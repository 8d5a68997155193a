import Asmodeus.Runner.Host.Runs

open FileTree UnixPath
open asmodeus.dsl
open asmodeus.control_plane (EventKind RunnerEvent)

namespace asmodeus.runner

/-- Some event of the run confirms its cleanup. -/
def Confirmed (w : Worker) : Prop := ∃ ev ∈ w.events, ev.cleanup_confirmed = true

/-- Only a terminal event confirms a cleanup. -/
def Terminal (w : Worker) : Prop := ∀ ev ∈ w.events, ev.cleanup_confirmed = true → RunnerEvent.ends ev = true

/-- What every move keeps of a run, among all the others. -/
structure Kept (follow : Option (FsTree Component) → FsPath → FsPath) (launch : Launch)
    (before : Option (FsTree Component))
    (run : HostRun) (t : Option (FsTree Component)) : Prop where
  req : run.worker.req = launch.req
  plan : run.worker.plan = launch.plan
  sound : Sound run.worker
  placed : Placed run.worker
  terminal : Terminal run.worker
  approach : Approach launch.key t
  rest : Holds follow launch.key before run.rest (Leads run.worker before) t
  idle : run.worker.pc.files = false → run.rest = .done .idle ∧ Settled run.worker before t
  told : ∀ ev ∈ run.worker.events, Told launch.plan ev
  gone : Confirmed run.worker → get launch.key t = none
  drop : ∀ cleaned, run.worker.pc = .dropping cleaned → Reached launch.key t ∧
    (run.rest = run.worker.statement ∨ ∃ result, run.rest = .done (.removed result))

section

variable {w : Worker} {r : Reading} {o : Outcome} {before t : Option (FsTree Component)}

theorem Terminal.step (h : Terminal w) : Terminal (w.step r o) := by
  intro ev hev hconfirmed
  by_cases hreporting : ∃ result, w.pc = .reporting result
  · obtain ⟨result, hpc⟩ := hreporting
    unfold Worker.step at hev
    rw [hpc] at hev
    rcases List.mem_append.mp hev with hev | hev
    · exact h ev hev hconfirmed
    · obtain rfl := List.mem_singleton.mp hev
      exact (ends_of_kind rfl).trans (terminal_ends w.cleanup_error result)
  · obtain hold | ⟨-, hnot⟩ := step_events (fun result hpc => hreporting ⟨result, hpc⟩) hev
    · exact h ev hold hconfirmed
    · rw [hnot] at hconfirmed
      cases hconfirmed

theorem confirmed_loud (hsound : Sound w) (hterminal : Terminal w) (h : Confirmed w) : w.pc.quiet = false := by
  obtain ⟨ev, hev, hconfirmed⟩ := h
  have hends := hterminal ev hev hconfirmed
  cases hquiet : w.pc.quiet with
  | false => rfl
  | true =>
    rw [hsound.quiet hquiet ev hev] at hends
    cases hends

/-- A confirmed cleanup has left nothing of the sandbox. -/
theorem Settled.gone (h : Settled w before t) (hsound : Sound w) (hterminal : Terminal w) (hconfirmed : Confirmed w) :
    get w.key t = none := by
  have hloud := confirmed_loud hsound hterminal hconfirmed
  obtain ⟨ev, hev, hcleaned⟩ := hconfirmed
  obtain h | h := h
  · rw [h.unconfirmed ev hev] at hcleaned
    cases hcleaned
  · obtain ⟨front, ending, hevents, hfront, htruthful⟩ := hsound.reported hloud
    have hending : ev = ending := by
      rw [hevents] at hev
      rcases List.mem_append.mp hev with hev' | hev'
      · have hends := hterminal ev (hevents ▸ List.mem_append_left _ hev') hcleaned
        rw [hfront ev hev'] at hends
        cases hends
      · exact List.mem_singleton.mp hev'
    obtain ⟨hdir, -, -⟩ := htruthful.cleaned (hending ▸ hcleaned)
    have hpresent := h.own.present
    rw [hdir] at hpresent
    exact Option.isSome_eq_false_iff.mp hpresent.symm |> Option.isNone_iff_eq_none.mp

end

theorem statement_idle {w : Worker} (h : w.pc.files = false) : w.statement = .done .idle := by
  unfold Worker.statement
  cases hpc : w.pc with
  | creating | making_dir | writing | injection | cleaning | removing | dropping =>
    rw [hpc] at h
    cases h
  | _ => rfl

section

variable {follow : Option (FsTree Component) → FsPath → FsPath} {launch : Launch}
  {before t t' : Option (FsTree Component)}
  {run run' : HostRun}

/-- A run that comes to its next statement. -/
theorem Settled.kept {w : Worker} (h : Settled w before t) (hreq : w.req = launch.req) (hplan : w.plan = launch.plan)
    (hsound : Sound w) (hplaced : Placed w) (hterminal : Terminal w) (hplace : Placeable launch.plan launch.req)
    (happroach : Approach launch.key t) : Kept follow launch before ⟨w, w.statement⟩ t := by
  have hkey : w.key = launch.key := by rw [Worker.key, Launch.key, hreq, hplan]
  have hreached (cleaned : Bool) (hpc : w.pc = .dropping cleaned) : Reached launch.key t := by
    obtain h | h := h
    · have hplaced := h.pc
      rw [hpc] at hplaced
      cases hplaced
    · exact hkey ▸ h.reached
  have htold : ∀ ev ∈ w.events, Told launch.plan ev := by
    rw [← hplan]
    obtain h | h := h
    · exact h.told
    · exact h.own.told
  refine ⟨hreq, hplan, hsound, hplaced, hterminal, happroach, ?_, fun hfiles => ⟨statement_idle hfiles, h⟩, htold,
    fun hconfirmed => hkey ▸ h.gone hsound hterminal hconfirmed, fun cleaned hpc => ⟨hreached cleaned hpc, Or.inl rfl⟩⟩
  rw [← hkey] at happroach ⊢
  rw [← hreq, ← hplan] at hplace
  exact h.statement hplace happroach

/-- The others leave a run what it has. -/
theorem Kept.leaves (h : Kept follow launch before run t) (hleaves : Leaves launch.key t t') :
    Kept follow launch before run t' := by
  have hkey : run.worker.key = launch.key := by rw [Worker.key, Launch.key, h.req, h.plan]
  refine ⟨h.req, h.plan, h.sound, h.placed, h.terminal, h.approach.leaves hleaves,
    h.rest.rely (fun _ _ _ => Leaves.trans) hleaves, fun hfiles => ?_, h.told, fun hconfirmed =>
      hleaves.own.trans (h.gone hconfirmed),
    fun cleaned hpc => ?_⟩
  · obtain ⟨hrest, hsettled⟩ := h.idle hfiles
    exact ⟨hrest, hsettled.leaves (hkey ▸ hleaves)⟩
  · obtain ⟨hreached, hrest⟩ := h.drop cleaned hpc
    exact ⟨hleaves.reached hreached, hrest⟩

/-- A removal is one call. -/
theorem cleanup_call (sandbox : Sandbox) : ∃ next : Verb.Reply .remove_dir_all → Fs Effect,
    (sandbox.cleanup >>= fun result => .done (.removed result)) = .call ⟨components sandbox.path, .remove_dir_all⟩
      next ∧
      ∀ reply, ∃ result, next reply = .done (.removed result) := by
  refine ⟨_, rfl, ?_⟩
  intro (reply : Except Errno Unit)
  cases reply with
  | ok _ => exact ⟨_, rfl⟩
  | error e => cases e <;> exact ⟨_, rfl⟩

/-- The one call of a run that drops its sandbox. -/
theorem Kept.dropping (h : Kept follow launch before run t) {op : Call Component} {next : op.verb.Reply → Fs Effect}
    (hrest : run.rest = .call op next) (fault : Option (Fault Component)) {cleaned : Bool}
    (hpc : run.worker.pc = .dropping cleaned) :
    Reached launch.key (op.exec follow fault t).2 ∧
      (get launch.key t = none → get launch.key (op.exec follow fault t).2 = none) ∧
      ∃ result, next (op.exec follow fault t).1 = .done (.removed result) := by
  have hpath : components run.worker.sandbox.path = launch.key := by
    rw [h.placed (by rw [hpc]; rfl), Launch.key, h.req, h.plan]
  obtain ⟨hreached, hstatement | ⟨result, hdone⟩⟩ := h.drop cleaned hpc
  · obtain ⟨last, hcleanup, hlast⟩ := cleanup_call run.worker.sandbox
    have hcall : run.worker.statement = .call ⟨launch.key, .remove_dir_all⟩ last := by
      rw [← hpath, ← hcleanup]
      unfold Worker.statement
      rw [hpc]
    rw [hstatement, hcall] at hrest
    cases hrest
    have hbelow : Below launch.key ⟨launch.key, .remove_dir_all⟩ := List.prefix_rfl
    obtain ⟨-, hafter, hreached', -⟩ := exec_act follow fault hreached hbelow
    refine ⟨hreached', fun hnone => ?_, hlast _⟩
    rw [hafter, hnone]
    unfold act
    dsimp only
    rw [List.drop_length]
    cases fault <;> rfl
  · rw [hdone] at hrest
    cases hrest

/-- A call of a run. -/
theorem Kept.call (h : Kept follow launch before run t) {op : Call Component}
    {next : op.verb.Reply → Fs Effect} (hrest : run.rest = .call op next) (fault : Option (Fault Component)) :
    Kept follow launch before ⟨run.worker, next (op.exec follow fault t).1⟩ (op.exec follow fault t).2 ∧
      Guards launch.key before t (op.exec follow fault t).2 := by
  have hholds := h.rest
  rw [hrest] at hholds
  obtain ⟨hguards, hnext⟩ := hholds.call (.refl launch.key) fault
  refine ⟨⟨h.req, h.plan, h.sound, h.placed, h.terminal, h.approach.grows hguards.grows, hnext, fun hfiles => ?_,
    h.told, fun hconfirmed => ?_, fun cleaned hpc => ?_⟩, hguards⟩
  · obtain ⟨hdone, -⟩ := h.idle hfiles
    rw [hrest] at hdone
    cases hdone
  · have hloud := confirmed_loud h.sound h.terminal hconfirmed
    cases hpc : run.worker.pc with
    | dropping cleaned =>
      obtain ⟨-, hnone, -⟩ := h.dropping hrest fault hpc
      exact hnone (h.gone hconfirmed)
    | returned cleaned =>
      obtain ⟨hdone, -⟩ := h.idle (by rw [hpc]; rfl)
      rw [hrest] at hdone
      cases hdone
    | _ =>
      rw [hpc] at hloud
      cases hloud
  · obtain ⟨hreached, -, hdone⟩ := h.dropping hrest fault hpc
    exact ⟨hreached, Or.inr hdone⟩

/-- A move of a run keeps what is said of it, and does no more than its sandbox needs. -/
theorem Kept.move (h : Kept follow launch before run t) (hplace : Placeable launch.plan launch.req) {chance : Chance}
    (hmove : run.move follow chance t = some (run', t')) :
    Kept follow launch before run' t' ∧ Guards launch.key before t t' := by
  unfold HostRun.move at hmove
  cases hrest : run.rest with
  | call op next =>
    rw [hrest] at hmove
    obtain ⟨rfl, rfl⟩ := Prod.mk.inj (Option.some.inj hmove)
    exact h.call hrest chance.fault
  | done effect =>
    rw [hrest] at hmove
    obtain ⟨rfl, rfl⟩ := Prod.mk.inj (Option.some.inj hmove)
    refine ⟨?_, .refl launch.key before t⟩
    have hholds := h.rest
    rw [hrest] at hholds
    have hleads : Leads run.worker before effect t := hholds t (.refl launch.key t)
    obtain ⟨hreq, hplan⟩ := step_request run.worker chance.reading
      (effect.outcome chance.outcome (get run.worker.key t))
    have hplace' : Placeable run.worker.plan run.worker.req := by
      rw [h.req, h.plan]
      exact hplace
    exact (hleads chance.reading chance.outcome).kept (hreq.trans h.req) (hplan.trans h.plan) h.sound.step
      (h.placed.step hplace') h.terminal.step hplace h.approach

end

/-- All that was there is there as it was, and what is new lies in the sandbox of a run or
is a directory above one. -/
structure Spared (launches : List Launch) (t₀ t : Option (FsTree Component)) : Prop where
  kept : ∀ q n, node q t₀ = some n → node q t = some n
  new : ∀ q, node q t₀ = none → node q t ≠ none →
    ∃ launch ∈ launches, launch.key <+: q ∨ (q <+: launch.key ∧ node q t = some .dir)

theorem Spared.guards {launches : List Launch} {launch : Launch} {t₀ t t' : Option (FsTree Component)}
    (h : Spared launches t₀ t) (hmem : launch ∈ launches) (hguards : Guards launch.key (get launch.key t₀) t t') :
    Spared launches t₀ t' where
  kept q n hn := by
    have hnow := h.kept q n hn
    by_cases hbelow : launch.key <+: q
    · obtain ⟨rest, rfl⟩ := hbelow
      have hbefore : get launch.key t₀ ≠ none := by
        intro hnone
        rw [node, get_append, hnone, get_none] at hn
        cases hn
      rw [node, get_append, hguards.kept hbefore, ← get_append]
      exact hnow
    · obtain hsame | ⟨hnone, -⟩ := hguards.grows.node q hbelow
      · exact hsame.trans hnow
      · rw [hnow] at hnone
        cases hnone
  new q hnone hnew := by
    by_cases hbelow : launch.key <+: q
    · exact ⟨launch, hmem, Or.inl hbelow⟩
    · obtain hsame | ⟨-, hdir, habove⟩ := hguards.grows.node q hbelow
      · rw [hsame] at hnew ⊢
        exact h.new q hnone hnew
      · exact ⟨launch, hmem, Or.inr ⟨habove, hdir⟩⟩

/-- Runs with sandboxes in scope, none of them in the sandbox of another. -/
structure Launchable (launches : List Launch) : Prop where
  placeable : ∀ launch ∈ launches, Placeable launch.plan launch.req
  apart : launches.Pairwise fun a b => Apart a.key b.key

/-- Accepted requests that keep out of the way of each other. -/
theorem Launchable.of_validated {is_valid : List UInt8 → List UInt8 → List UInt8 → Bool} {serde : Serde}
    {trusted_key : Option (List UInt8)} {launches : List Launch}
    (haccept : ∀ launch ∈ launches, validate is_valid serde trusted_key launch.req = .ok launch.plan)
    (hapart : launches.Pairwise fun a b => Apart a.key b.key) : Launchable launches :=
  ⟨fun launch hmem => (validate_ok (haccept launch hmem)).placeable, hapart⟩

/-- Runs of one directory are apart by their ids. -/
theorem apart_of_run_id {a b : Launch} (ha : Placeable a.plan a.req) (hb : Placeable b.plan b.req)
    (htarget : a.plan.target_dir = b.plan.target_dir) (hne : a.req.run_id ≠ b.req.run_id) : Apart a.key b.key := by
  rw [Launch.key, Launch.key, ha.components_eq, hb.components_eq, htarget]
  have hnot {x y : Launch} (hxy : x.req.run_id ≠ y.req.run_id) (front : FsPath) :
      ¬ front ++ [Component.normal x.req.run_id.toList] <+: front ++ [.normal y.req.run_id.toList] := by
    intro hprefix
    have hsingle := (List.prefix_append_right_inj front).mp hprefix
    obtain ⟨rest, hrest⟩ := hsingle
    have hhead := (List.cons.inj hrest).1
    exact hxy (String.toList_inj.mp (Component.normal.inj hhead))
  exact ⟨hnot hne _, hnot hne.symm _⟩

section

variable {launches : List Launch} {follow : Option (FsTree Component) → FsPath → FsPath}
  {t₀ : Option (FsTree Component)}
  {labels : List (Nat × Chance)} {host : Host}

theorem Launchable.apart_of_ne (h : Launchable launches) {i j : Nat} {a b : Launch} (hne : i ≠ j)
    (ha : launches[i]? = some a) (hb : launches[j]? = some b) : Apart a.key b.key := by
  obtain ⟨hi, rfl⟩ := List.getElem?_eq_some_iff.mp ha
  obtain ⟨hj, rfl⟩ := List.getElem?_eq_some_iff.mp hb
  have hpairwise := List.pairwise_iff_getElem.mp h.apart
  by_cases hlt : i < j
  · exact hpairwise i j hi hj hlt
  · exact (hpairwise j i hj hi (by omega)).symm

/-- Whatever the runs do and fail at, one call at a time, each keeps what is said of it. -/
theorem host_kept (h : Launchable launches) (hroots : RootsUnlinked t₀)
    (hrun : Transition.run (Host.step follow) (Host.start t₀ launches) labels = some host) :
    (∀ (i : Nat) run, host.parts[i]? = some run → ∃ launch, launches[i]? = some launch ∧
      Kept follow launch (get launch.key t₀) run host.shared) ∧ Spared launches t₀ host.shared := by
  have hmem {i : Nat} {launch : Launch} (hi : launches[i]? = some launch) : launch ∈ launches := List.mem_of_getElem? hi
  refine Transition.Preserved.run (Pool.parallel
    (fun (i : Nat) run t => ∃ launch, launches[i]? = some launch ∧ Kept follow launch (get launch.key t₀) run t)
    (fun (i : Nat) t t' => ∀ launch, launches[i]? = some launch → Leaves launch.key t t')
    (fun (i : Nat) t t' => ∀ launch, launches[i]? = some launch → Guards launch.key (get launch.key t₀) t t')
    (Spared launches t₀) ?_ ?_ ?_ ?_) ⟨fun i run hi => ?_, ?_⟩ hrun
  · rintro i run chance t run' t' ⟨launch, hlaunch, hkept⟩ hmove
    obtain ⟨hkept', hguards⟩ := hkept.move (h.placeable launch (hmem hlaunch)) hmove
    refine ⟨⟨launch, hlaunch, hkept'⟩, fun other hother => ?_⟩
    obtain rfl : launch = other := Option.some.inj (hlaunch.symm.trans hother)
    exact hguards
  · rintro i run t t' ⟨launch, hlaunch, hkept⟩ hleaves
    exact ⟨launch, hlaunch, hkept.leaves (hleaves launch hlaunch)⟩
  · rintro i j run other t t' hne ⟨launch, hlaunch, -⟩ - hguards other hother
    exact (hguards launch hlaunch).grows.leaves (h.apart_of_ne hne hlaunch hother)
  · rintro i run t t' ⟨launch, hlaunch, -⟩ hguards hspared
    exact hspared.guards (hmem hlaunch) (hguards launch hlaunch)
  · rw [Host.start, List.getElem?_map, Option.map_eq_some_iff] at hi
    obtain ⟨launch, hlaunch, rfl⟩ := hi
    have hstart : Settled (.spawn launch.backend launch.req launch.plan) (get launch.key t₀) t₀ :=
      Or.inl ⟨rfl, rfl, rfl, fun ev hev => absurd hev List.not_mem_nil, fun ev hev => absurd hev List.not_mem_nil⟩
    refine ⟨launch, hlaunch, hstart.kept rfl rfl (Sound.spawn ..) (fun hplaced => ?_)
      (fun ev hev => absurd hev List.not_mem_nil) (h.placeable launch (hmem hlaunch)) fun root hroot _ =>
        hroots root hroot⟩
    cases hplaced
  · exact ⟨fun q n hn => hn, fun q hnone hnew => absurd hnone hnew⟩

/-- The runs of a host keep apart, whatever fails and in whatever order their calls come. What
was there before is there as it was, and what is new lies in a sandbox or is a directory above
one. A cleanup that an event confirms has left nothing of the sandbox, and a run that has returned
has left its path as it was, or a sandbox it has failed to remove. When all have returned and
left none, the host has directories above the sandboxes more, and nothing else has changed. -/
theorem host_isolation (h : Launchable launches) (hroots : RootsUnlinked t₀)
    (hrun : Transition.run (Host.step follow) (Host.start t₀ launches) labels = some host) :
    Spared launches t₀ host.shared ∧
    (∀ (i : Nat) launch run, launches[i]? = some launch → host.parts[i]? = some run →
      (Confirmed run.worker → get launch.key host.shared = none) ∧
      ∀ cleaned, run.worker.pc = .returned cleaned → get launch.key host.shared = get launch.key t₀ ∨
        (get launch.key t₀ = none ∧ run.worker.dir = true)) ∧
    ((∀ (i : Nat) launch, launches[i]? = some launch → ∃ run cleaned, host.parts[i]? = some run ∧
        run.worker.pc = .returned cleaned ∧ run.worker.dir = false) →
      ∀ q, node q host.shared = node q t₀ ∨
        (node q t₀ = none ∧ node q host.shared = some .dir ∧ ∃ launch ∈ launches, q <+: launch.key ∧
          q ≠ launch.key)) := by
  obtain ⟨hkept, hspared⟩ := host_kept h hroots hrun
  have heach {i : Nat} {launch : Launch} {run : HostRun} (hlaunch : launches[i]? = some launch)
      (hpart : host.parts[i]? = some run) :
      Kept follow launch (get launch.key t₀) run host.shared := by
    obtain ⟨other, hother, hkept⟩ := hkept i run hpart
    obtain rfl : launch = other := Option.some.inj (hlaunch.symm.trans hother)
    exact hkept
  have hreturned {i : Nat} {launch : Launch} {run : HostRun} (hlaunch : launches[i]? = some launch)
      (hpart : host.parts[i]? = some run) {cleaned : Bool} (hpc : run.worker.pc = .returned cleaned) :
      get launch.key host.shared = get launch.key t₀ ∨ (get launch.key t₀ = none ∧ run.worker.dir = true) := by
    have hrun := heach hlaunch hpart
    have hkey : run.worker.key = launch.key := by rw [Worker.key, Launch.key, hrun.req, hrun.plan]
    obtain ⟨-, houtside | hinside⟩ := hrun.idle (by rw [hpc]; rfl)
    · exact Or.inl (hkey ▸ houtside.untouched)
    · have hpresent := hinside.own.present
      rw [hkey] at hpresent
      cases hdir : run.worker.dir with
      | true => exact Or.inr ⟨hinside.fresh, rfl⟩
      | false =>
        rw [hdir] at hpresent
        have hnone : get launch.key host.shared = none :=
          Option.isNone_iff_eq_none.mp (Option.isSome_eq_false_iff.mp hpresent.symm)
        exact Or.inl (hnone.trans hinside.fresh.symm)
  refine ⟨hspared, fun i launch run hlaunch hpart =>
    ⟨(heach hlaunch hpart).gone, fun cleaned => hreturned hlaunch hpart⟩,
    fun hall q => ?_⟩
  have hgone {launch : Launch} (hmem : launch ∈ launches) : get launch.key host.shared = get launch.key t₀ := by
    obtain ⟨i, hi⟩ := List.getElem?_of_mem hmem
    obtain ⟨run, cleaned, hpart, hpc, hdir⟩ := hall i launch hi
    refine (hreturned hi hpart hpc).resolve_right fun hleft => ?_
    rw [hdir] at hleft
    cases hleft.2
  cases hbefore : node q t₀ with
  | some n => exact Or.inl (hspared.kept q n hbefore)
  | none =>
    by_cases hnow : node q host.shared = none
    · exact Or.inl hnow
    · obtain ⟨launch, hmem, hplace⟩ := hspared.new q hbefore hnow
      have hbelow : ¬ launch.key <+: q := by
        rintro ⟨rest, rfl⟩
        rw [node, get_append, hgone hmem, ← get_append] at hnow
        exact hnow hbefore
      obtain ⟨habove, hdir⟩ := hplace.resolve_left hbelow
      exact Or.inr ⟨rfl, hdir, launch, hmem, habove, fun heq => hbelow (heq ▸ List.prefix_rfl)⟩

/-- A host with nothing but its directory for what is temporary. -/
def bare_host : Option (FsTree Component) := some (.dir [(.rootDir, .dir [(.normal "tmp".toList, .dir [])])])

theorem bare_host_unlinked : RootsUnlinked bare_host := by
  have hnone : ∀ root ∈ CANARY_ROOTS, links (components root.toList).dropLast bare_host = false := by decide
  exact fun root hroot => links_eq_false.mp (hnone root hroot)

def watchdog_launch (run_id : String) : Launch := ⟨"sim", watchdog_request run_id, watchdog_plan⟩

theorem watchdogs_launchable : Launchable [watchdog_launch "run_1", watchdog_launch "run_2"] := by
  have hplaceable : ∀ launch ∈ [watchdog_launch "run_1", watchdog_launch "run_2"], Placeable launch.plan
    launch.req := by
    intro launch hmem
    rcases List.mem_cons.mp hmem with rfl | hmem
    · exact ⟨by decide, by decide⟩
    · obtain rfl := List.mem_singleton.mp hmem
      exact ⟨by decide, by decide⟩
  refine ⟨hplaceable, List.pairwise_pair.mpr ?_⟩
  exact apart_of_run_id (hplaceable _ (by simp)) (hplaceable _ (by simp)) rfl (by decide : "run_1" ≠ "run_2")

/-- Two runs by turns, one call at a time. -/
def turns (n : Nat) : List (Nat × Chance) :=
  (List.range n).map fun i => (i % 2, ⟨calm_reading 0, calm_outcome (.ok ()), none⟩)

def watchdogs (n : Nat) : Option Host :=
  Transition.run (Host.step fun _ path => path)
    (Host.start bare_host [watchdog_launch "run_1", watchdog_launch "run_2"]) (turns n)

theorem watchdogs_isolated : ∃ host, watchdogs 60 = some host ∧
    Spared [watchdog_launch "run_1", watchdog_launch "run_2"] bare_host host.shared := by
  have hruns : (watchdogs 60).isSome = true := by decide +kernel
  obtain ⟨host, hhost⟩ := Option.isSome_iff_exists.mp hruns
  obtain ⟨hspared, -⟩ := host_isolation watchdogs_launchable bare_host_unlinked hhost
  exact ⟨host, hhost, hspared⟩

/-- The dwell that the statement is part of. -/
def Pc.dwell : Pc → Option Dwell
  | .waiting d _ | .checking (.dwell d _) | .checking (.dwell_end d) => some d
  | _ => none

end

end asmodeus.runner
