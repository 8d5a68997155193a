import Asmodeus.Runner.Host.Statements

open FileTree UnixPath
open asmodeus.dsl
open asmodeus.control_plane (EventKind RunnerEvent)

namespace asmodeus.runner

/-- A run that has made no sandbox, before it does or after it could not. -/
structure Outside (w : Worker) (before t : Option (FsTree Component)) : Prop where
  pc : w.pc.placed = false
  dir : w.dir = false
  untouched : get w.key t = before
  unconfirmed : ∀ ev ∈ w.events, ev.cleanup_confirmed = false
  told : ∀ ev ∈ w.events, Told w.plan ev

/-- A run with a sandbox of its own making. -/
structure Inside (w : Worker) (before t : Option (FsTree Component)) : Prop where
  fresh : before = none
  reached : Reached w.key t
  own : Own w (get w.key t)

/-- A run between two statements. -/
def Settled (w : Worker) (before t : Option (FsTree Component)) : Prop := Outside w before t ∨ Inside w before t

/-- Where a statement leads, over the whole tree. -/
def Leads (w : Worker) (before : Option (FsTree Component)) (effect : Effect) (t : Option (FsTree Component)) : Prop :=
  ∀ r o, Settled (w.step r (effect.outcome o (get w.key t))) before t

/-- The canary root above the sandbox is reached over no symbolic link. -/
def Approach (key : FsPath) (t : Option (FsTree Component)) : Prop :=
  ∀ root ∈ CANARY_ROOTS, components root.toList <+: key → Unlinked (components root.toList).dropLast t

section

variable {follow : Option (FsTree Component) → FsPath → FsPath} {w : Worker} {before t t' : Option (FsTree Component)}

theorem step_key (w : Worker) (r : Reading) (o : Outcome) : (w.step r o).key = w.key := by
  obtain ⟨hreq, hplan⟩ := step_request w r o
  rw [Worker.key, Worker.key, hreq, hplan]

theorem canary_root_above {key : FsPath} : ∀ root ∈ CANARY_ROOTS, components root.toList <+: key →
    (components root.toList).dropLast <+: key ∧ (components root.toList).dropLast ≠ key := by
  intro root hroot hprefix
  refine ⟨(List.dropLast_prefix _).trans hprefix, fun heq => ?_⟩
  have hlength := hprefix.length_le
  have hne : components root.toList ≠ [] := by
    obtain ⟨hlast, -⟩ := canary_root_scope root hroot
    intro hnil
    rw [hnil] at hlast
    cases hlast
  rw [← heq, List.length_dropLast] at hlength
  have hpos := List.length_pos_of_ne_nil hne
  omega

theorem Approach.leaves {key : FsPath} (h : Approach key t) (hleaves : Leaves key t t') : Approach key t' :=
  fun root hroot hprefix =>
    have ⟨habove, hne⟩ := canary_root_above root hroot hprefix
    (h root hroot hprefix).leaves habove hne hleaves

theorem Approach.grows {key : FsPath} (h : Approach key t) (hgrows : Grows key t t') : Approach key t' :=
  fun root hroot hprefix =>
    have ⟨habove, hne⟩ := canary_root_above root hroot hprefix
    (h root hroot hprefix).grows habove hne hgrows

theorem Settled.leaves (h : Settled w before t) (hleaves : Leaves w.key t t') : Settled w before t' := by
  obtain h | h := h
  · exact Or.inl ⟨h.pc, h.dir, hleaves.own.trans h.untouched, h.unconfirmed, h.told⟩
  · exact Or.inr ⟨h.fresh, hleaves.reached h.reached, hleaves.own.symm ▸ h.own⟩

theorem Leads.leaves {effect : Effect} (h : Leads w before effect t) (hleaves : Leaves w.key t t') :
    Leads w before effect t' := fun r o => by
  rw [hleaves.own]
  have hkey : (w.step r (effect.outcome o (get w.key t))).key = w.key := step_key w r _
  exact (h r o).leaves (hkey.symm ▸ hleaves)

theorem Outside.emit (h : Outside w before t) {w' : Worker} {ev : RunnerEvent} (hkey : w'.key = w.key)
    (hplan : w'.plan = w.plan) (hdir : w'.dir = w.dir) (hpc : w'.pc.placed = false)
    (hevents : w'.events = w.events ++ [ev])
    (hev : ev.cleanup_confirmed = false) (hkind : ev.kind ≠ EventKind.Completed.number) : Outside w' before t where
  pc := hpc
  dir := hdir.trans h.dir
  untouched := hkey ▸ h.untouched
  unconfirmed e he := by
    rw [hevents] at he
    rcases List.mem_append.mp he with he | he
    · exact h.unconfirmed e he
    · exact List.mem_singleton.mp he ▸ hev
  told e he := by
    rw [hevents] at he
    rw [hplan]
    rcases List.mem_append.mp he with he | he
    · exact h.told e he
    · obtain rfl := List.mem_singleton.mp he
      exact fun hcompleted => absurd hcompleted hkind

/-- A run without a sandbox makes one, or stays without. -/
theorem Outside.statement (h : Outside w before t) (hplace : Placeable w.plan w.req) (happroach : Approach w.key t) :
    Holds follow w.key before w.statement (Leads w before) t := by
  have hdone {effect : Effect} (hleads : Leads w before effect t) :
      Holds follow w.key before (.done effect) (Leads w before) t := fun t' hleaves => hleads.leaves hleaves
  cases hpc : w.pc with
  | starting =>
    unfold Worker.statement
    rw [hpc]
    refine hdone fun r o => Or.inl ?_
    unfold Worker.step
    rw [hpc]
    exact h.emit rfl rfl rfl rfl rfl rfl (by decide : EventKind.StateChanged.number ≠ EventKind.Completed.number)
  | rejecting message =>
    unfold Worker.statement
    rw [hpc]
    refine hdone fun r o => Or.inl ?_
    unfold Worker.step
    rw [hpc]
    exact h.emit rfl rfl rfl rfl rfl rfl (by decide : EventKind.Rejected.number ≠ EventKind.Completed.number)
  | returned cleaned =>
    unfold Worker.statement
    rw [hpc]
    refine hdone fun r o => Or.inl ?_
    unfold Worker.step
    rw [hpc]
    exact h
  | creating =>
    obtain ⟨root, hroot, rest, hrest, hbelow⟩ := below_scope_eq hplace.target_dir
    have hkey : w.key = components root.toList ++ rest ++ [.normal w.req.run_id.toList] := by
      rw [Worker.key, hplace.components_eq, hrest]
    have hprefix : components root.toList <+: w.key :=
      ⟨rest ++ [.normal w.req.run_id.toList], by rw [hkey, List.append_assoc]⟩
    have hstatement : w.statement = make_sandbox w.key (rest.inits.map fun q => components root.toList ++ q) >>=
        fun result => .done (.sandbox result) := by
      unfold Worker.statement
      rw [hpc]
      dsimp only
      rw [hplace.create, hbelow]
      rfl
    rw [hstatement]
    refine Program.holds_bind (.refl w.key) ((make_sandbox_holds hkey (happroach root hroot hprefix)
      h.untouched).mono ?_)
    intro result t₁ hcreated t₂ hleaves
    refine Leads.leaves (fun r o => ?_) hleaves
    cases result with
    | error e =>
      have hstep : w.step r ((Effect.sandbox (.error e)).outcome o (get w.key t₁)) = { w with pc := .rejecting e } := by
        unfold Worker.step
        rw [hpc]
        dsimp only
        rw [hplace.create]
        rfl
      rw [hstep]
      exact Or.inl ⟨rfl, h.dir, hcreated, h.unconfirmed, h.told⟩
    | ok made =>
      have hstep : w.step r ((Effect.sandbox (.ok made)).outcome o (get w.key t₁)) =
          { w with sandbox := ⟨sandbox_dir w.plan w.req⟩, dir := true, pc := .arming } := by
        unfold Worker.step
        rw [hpc]
        dsimp only
        rw [hplace.create]
        rfl
      obtain ⟨hfresh, hreached, hempty⟩ := hcreated
      have hpresent : true = (get w.key t₁).isSome := by rw [hempty, Option.isSome_some]
      rw [hstep]
      exact Or.inr ⟨hfresh, hreached, ⟨rfl, hpresent, hempty, h.told⟩⟩
  | _ =>
    have hplaced := h.pc
    rw [hpc] at hplaced
    cases hplaced

/-- A run with a sandbox works in it alone. -/
theorem Inside.statement (h : Inside w before t) (hplace : Placeable w.plan w.req) :
    Holds follow w.key before w.statement (Leads w before) t := by
  have hwp := h.own.statement hplace fun f : Option (Fault Component) => f
  have hholds : w.statement.Holds (fun fault => Call.exec follow fault) (Leaves w.key) (Grows w.key)
      (fun effect t => Reached w.key t ∧ Owns w effect (get w.key t)) t := wp_holds h.reached hwp
  have hguards (a b : Option (FsTree Component)) (hgrows : Grows w.key a b) : Guards w.key before a b :=
    ⟨hgrows, fun hbefore => absurd h.fresh hbefore⟩
  refine (hholds.promise hguards).mono ?_
  rintro effect t' ⟨hreached, howns⟩ r o
  have hkey : (w.step r (effect.outcome o (get w.key t'))).key = w.key := step_key w r _
  exact Or.inr ⟨h.fresh, hkey.symm ▸ hreached, hkey.symm ▸ howns r o⟩

theorem Settled.statement (h : Settled w before t) (hplace : Placeable w.plan w.req) (happroach : Approach w.key t) :
    Holds follow w.key before w.statement (Leads w before) t := by
  obtain h | h := h
  · exact h.statement hplace happroach
  · exact h.statement hplace

end

end asmodeus.runner
