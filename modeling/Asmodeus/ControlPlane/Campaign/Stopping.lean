import Asmodeus.ControlPlane.Campaign.Cancellation

open asmodeus.common asmodeus.telemetry

namespace asmodeus.control_plane

open campaign_run

section

variable {env : Env}

namespace CampaignState

variable {s next : CampaignState} {label : CampaignLabel} {index : Nat} {w : CampaignWorker}

/-- Nobody starts the scenario run any more: whoever plans it is cancelled, and has not passed its
check. -/
structure Foregone (s : CampaignState) (id : String) : Prop where
  issued : id ∈ s.issued
  unstarted : ∀ a ∈ s.attempts, a.run_id ≠ id
  barred : ∀ (i : Nat) (w : CampaignWorker), s.workers[i]? = some w → w.planned = some id →
    w.control.cancelled = true ∧ ∀ stage, w.phase ≠ .starting stage

/-- Every id that was given out stays so. -/
theorem Moves.issued (hmoves : s.Moves env label next) {id : String} (hid : id ∈ s.issued) : id ∈ next.issued := by
  cases hmoves with
  | start | launch => exact List.mem_cons_of_mem _ hid
  | cancel request r next hready hrequest hcancels => cases hcancels <;> exact hid
  | work index w label next hready hw hworks =>
    cases hworks with
    | intend => exact List.mem_cons_of_mem _ hid
    | _ => exact hid
  | _ => exact hid

/-- A worker plans what it planned before or what was never given out, and passes its check only
while it is not cancelled. -/
theorem Works.plans (hworks : s.Works env index w label next) (hw : s.workers[index]? = some w)
    (hconsistent : Consistent s.campaign_runs.value s.workers s.controls s.issued) :
    ∃ w', next.workers = s.workers.set index w' ∧ w'.control.cancelled = w.control.cancelled ∧
      ∀ id, w'.planned = some id → id ∉ s.issued ∨
        w.planned = some id ∧ ∀ stage, w'.phase = .starting stage → w.control.cancelled = false := by
  cases hworks with
  | intend n step hphase hstep hgoing hfresh =>
    refine ⟨_, rfl, rfl, fun id hplanned => Or.inl ?_⟩
    obtain rfl := Option.some.inj hplanned
    exact hfresh
  | save now disk change phase run next hsaves hupdate =>
    exact ⟨_, rfl, rfl, fun id hplanned => Or.inr ⟨hsaves.planned run hplanned, fun stage hstage =>
      absurd hstage (Saves.after hsaves run stage)⟩⟩
  | withdraw stage hphase hcancelled =>
    obtain ⟨-, hattempting⟩ : s.campaign_runs.value.get w.run.id = some w.run ∧ w.run.Attempting stage := by
      have hactive := hconsistent.active index w hw (by rw [hphase]; rfl)
      rwa [hphase] at hactive
    refine ⟨_, rfl, rfl, fun id hplanned => Or.inr ⟨?_, fun stage' hstage => by cases hstage⟩⟩
    have hlast : w.run.current_ids.getLast? = some id := hplanned
    rw [CampaignWorker.planned_intended hphase, ← hlast, CampaignRun.Attempting.last_id hattempting]
  | recheck stage hphase hgoing =>
    exact ⟨_, rfl, rfl, fun id hplanned => Or.inr ⟨(CampaignWorker.planned_intended hphase).trans hplanned,
      fun _ _ => hgoing⟩⟩
  | enter stage handle x hphase hx hentered =>
    refine ⟨_, rfl, rfl, fun id hplanned => ?_⟩
    cases hcancelled : w.control.cancelled with
    | true =>
      rw [hcancelled] at hplanned
      cases hplanned
    | false =>
      rw [hcancelled] at hplanned
      cases hplanned
  | _ => exact ⟨_, rfl, rfl, fun id hplanned => by cases hplanned⟩

theorem Foregone.moves {id : String} (h : s.Foregone id)
    (hconsistent : Consistent s.campaign_runs.value s.workers s.controls s.issued)
    (hmoves : s.Moves env label next) : next.Foregone id where
  issued := hmoves.issued h.issued
  unstarted a ha := by
    obtain hsame | ⟨index, w, stage, hw, hphase, hgrown⟩ := hmoves.starts
    · exact h.unstarted a (hsame ▸ ha)
    · rw [hgrown] at ha
      obtain rfl | ha := List.mem_cons.mp ha
      · rintro rfl
        exact (h.barred index w hw (CampaignWorker.planned_starting hphase)).2 stage hphase
      · exact h.unstarted a ha
  barred i u hu hplanned := by
    cases hmoves with
    | crash | abandon => cases hu
    | launch | resume =>
      obtain hu | ⟨-, rfl⟩ := launched_cases hu
      · exact h.barred i u hu hplanned
      · cases hplanned
    | cancel request r next hready hrequest hcancels =>
      cases hcancels with
      | flag worker w hphase hw =>
        obtain ⟨rfl, rfl⟩ | ⟨-, hu⟩ := get_set_cases hu
        · exact ⟨rfl, (h.barred i w hw hplanned).2⟩
        · exact h.barred i u hu hplanned
      | _ => exact h.barred i u hu hplanned
    | work index w label next hready hw hworks =>
      obtain ⟨w', hworkers, hcancelled, hplans⟩ := hworks.plans hw hconsistent
      rw [hworkers] at hu
      obtain ⟨rfl, rfl⟩ | ⟨-, hu⟩ := get_set_cases hu
      · obtain hfresh | ⟨hbefore, hpasses⟩ := hplans id hplanned
        · exact absurd h.issued hfresh
        · obtain ⟨hset, -⟩ := h.barred i w hw hbefore
          refine ⟨hcancelled.trans hset, fun stage hstage => ?_⟩
          cases hset.symm.trans (hpasses stage hstage)
      · exact h.barred i u hu hplanned
    | _ => exact h.barred i u hu hplanned

/-- Where a worker stands at a scenario that its cancellation has not marked yet. -/
inductive Unmarked (env : Env) (s : CampaignState) (r : CancelRequest) (i handle : Nat) (stage : Stage) :
    CampaignPhase → Prop
  | admitting : Unmarked env s r i handle stage (.admitting stage handle)
  | cancelling (hmarks : ∃ next x, s.step env (.cancel_stage i) = some next ∧ next.exec.workers[handle]? = some x ∧
      x.Halting) : Unmarked env s r i handle stage (.cancelling stage handle)
  | awaiting (hstopping : r.phase = .stopping i stage.run_id) :
      Unmarked env s r i handle stage (.awaiting stage handle)

theorem Unmarked.of_awaiting {r : CancelRequest} {i handle handle' : Nat} {stage stage' : Stage}
    {phase : CampaignPhase} (h : Unmarked env s r i handle stage phase) (hphase : phase = .awaiting stage' handle') :
    r.phase = .stopping i stage.run_id := by
  cases h with
  | awaiting hstopping => exact hstopping
  | _ => cases hphase

/-- A worker takes no stage past a check any more. What it plans is never started by anybody, and a
stage it gives up is recorded as cancelled. -/
structure Barred (env : Env) (s : CampaignState) (i : Nat) (w : CampaignWorker) : Prop where
  check : ∀ n next, s.step env (.check i n) = some next → next.At i .stopping ∨ next.At i .completing
  recheck : ∀ next, s.step env (.recheck i) = some next → next.At i .withdrawing
  planned : ∀ run_id, w.planned = some run_id → (∀ stage, w.phase ≠ .starting stage) → ∀ labels t,
    Transition.run (step env) s labels = some t → ∀ a ∈ t.attempts, a.run_id ≠ run_id
  withdrawn : ∀ now disk next, w.phase = .withdrawing → s.step env (.commit i now disk) = some next →
    next.At i .closing ∧ (disk = .ok () → ∀ run, next.campaign_runs.value.get w.run.id = some run →
      run.status = CANCELLED ∧
        run.step_results.getLast?.map (fun result => (result.status, result.run_id)) = some (CANCELLED, ""))

theorem Cancellable.foregone {started : List String} (h : s.Cancellable started) {i : Nat}
    (hw : s.workers[i]? = some w) (hcancelled : w.control.cancelled = true) {id : String}
    (hplanned : w.planned = some id) (hbefore : ∀ stage, w.phase ≠ .starting stage) : s.Foregone id where
  issued := (h.accountable.staged.planned i w id hw hplanned).1
  unstarted a ha := by
    rintro rfl
    exact (h.accountable.staged.planned i w a.run_id hw hplanned).2.1 (h.accountable.staged.named a ha).1
  barred j u hu huplanned := by
    obtain rfl := h.accountable.staged.apart i j w u id hw hu hplanned huplanned
    obtain rfl := Option.some.inj (hw.symm.trans hu)
    exact ⟨hcancelled, hbefore⟩

theorem Cancellable.never_started {started : List String} (h : s.Cancellable started) {id : String}
    (hforegone : s.Foregone id) {labels : List CampaignLabel} {t : CampaignState}
    (hrun : Transition.run (step env) s labels = some t) : ∀ a ∈ t.attempts, a.run_id ≠ id := by
  have hkept : Transition.Preserved (step env) fun s => (∃ started, s.Cancellable started) ∧ s.Foregone id := by
    rintro s label next ⟨⟨started, hcancellable⟩, hforegone⟩ hstep
    have hmoves := step_moves hstep
    exact ⟨hcancellable.moves hmoves, hforegone.moves hcancellable.accountable.orderly.consistent hmoves⟩
  exact (hkept.run ⟨⟨started, h⟩, hforegone⟩ hrun).2.unstarted

/-- The loop of a cancelled worker comes to its end. -/
theorem Moves.check_cancelled {i : Nat} {n : UInt64} (hmoves : s.Moves env (.check i n) next)
    (hw : s.workers[i]? = some w) (hcancelled : w.control.cancelled = true) :
    next.At i .stopping ∨ next.At i .completing := by
  obtain ⟨hlt, -⟩ := List.getElem?_eq_some_iff.mp hw
  cases hmoves with
  | work index u label next hready hu hworks =>
    cases hworks with
    | complete n hphase hdone => exact Or.inr ⟨_, List.getElem?_set_self hlt, rfl⟩
    | stop n hphase hstop => exact Or.inl ⟨_, List.getElem?_set_self hlt, rfl⟩
    | intend n step hphase hstep hgoing hfresh =>
      obtain rfl := Option.some.inj (hw.symm.trans hu)
      cases hcancelled.symm.trans hgoing

theorem Cancellable.barred {started : List String} (h : s.Cancellable started) {i : Nat} (hw : s.workers[i]? = some w)
    (hflagged : s.Flagged i) (hcancelled : w.control.cancelled = true) : s.Barred env i w where
  check _ _ hstep := (step_moves hstep).check_cancelled hw hcancelled
  recheck _ hstep := h.watched.recheck hflagged (step_moves hstep)
  planned _ hplanned hbefore _ _ hrun := h.never_started (h.foregone hw hcancelled hplanned hbefore) hrun
  withdrawn _ _ _ hphase hstep := (h.withdraws hw hphase hstep).2

/-- A worker that has recorded its stage after the cancellation marks its scenario next. -/
theorem Cancellable.marks {started : List String} (h : s.Cancellable started) {i handle : Nat}
    (hw : s.workers[i]? = some w) {stage : Stage} (hphase : w.phase = .cancelling stage handle) :
    ∃ next x, s.step env (.cancel_stage i) = some next ∧ next.exec.workers[handle]? = some x ∧ x.Halting := by
  obtain ⟨x, hx, hid, hentered⟩ := (h.watched.attends i w hw).scenario stage handle (by rw [hphase]; rfl)
  have hready : s.ready = true := by
    by_contra hidle
    obtain ⟨hnone, -⟩ := h.accountable.orderly.idle (Bool.eq_false_iff.mpr hidle)
    rw [hnone] at hw
    cases hw
  have hserving : s.exec.is_serving = true := by
    by_contra hidle
    obtain ⟨hnone, -⟩ := h.accountable.sound.idle (Bool.eq_false_iff.mpr hidle)
    rw [hnone] at hx
    cases hx
  have hexec : s.exec.step env (.cancel_scenario stage.run_id) = some (s.exec.cancel_scenario stage.run_id) := by
    unfold ExecutionState.step
    exact if_pos hserving
  have hstep : s.step env (.cancel_stage i) = some { s.set_phase i w (.awaiting stage handle) with
      exec := s.exec.cancel_scenario stage.run_id } := by
    unfold step
    dsimp only
    rw [if_pos hready, hw, Option.bind_some]
    unfold work
    rw [hphase]
    dsimp only
    rw [hexec]
    rfl
  obtain ⟨y, hy, -⟩ := s.exec.cancel_scenario_continues stage.run_id handle x hx
  refine ⟨_, y, hstep, hy, ?_⟩
  refine h.mapped.cancel_scenario hx (hentered (by rw [hphase]; simp)) ?_
  rw [hid]
  exact hy

/-- Where the scenario of a stage stands whose worker was found. -/
theorem Cancellable.caught {started : List String} (h : s.Cancellable started) {r : CancelRequest} (hr : r ∈ s.requests)
    {i : Nat} (hi : i ∈ r.found) (hw : s.workers[i]? = some w) {a : Attempt} (ha : a ∈ s.attempts)
    (hrun : a.campaign_run = w.run.id) {handle : Nat} {x : Worker} (hx : s.exec.workers[handle]? = some x)
    (hid : a.run_id = x.record.run_id) : x.Halting ∨
      (∃ stage, stage.run_id = a.run_id ∧ Unmarked env s r i handle stage w.phase) ∨
      (w.phase.is_active = false ∧ ∃ j u stage, j ≠ i ∧ s.workers[j]? = some u ∧ u.run.id = w.run.id ∧
        u.phase.scenario = some (stage, handle)) := by
  obtain ⟨v, hv, hreached⟩ := h.watched.reached r hr i hi
  obtain rfl := Option.some.inj (hv.symm.trans hw)
  obtain hended | ⟨j, u, stage, hu, huid, hrunid, hscenario⟩ := h.accompanied handle x hx a ha hid
  · exact Or.inl (Or.inl hended)
  · by_cases hji : j = i
    · subst hji
      obtain rfl := Option.some.inj (hu.symm.trans hw)
      obtain hphase | hphase | hphase := CampaignPhase.of_scenario hscenario
      · exact Or.inr (Or.inl ⟨stage, hrunid, hphase ▸ .admitting⟩)
      · exact Or.inr (Or.inl ⟨stage, hrunid, hphase ▸ .cancelling (h.marks hw hphase)⟩)
      · obtain hhalting | hstopping := hreached.halting stage handle x hphase hx
        · exact Or.inl hhalting
        · exact Or.inr (Or.inl ⟨stage, hrunid, hphase ▸ .awaiting hstopping⟩)
    · refine Or.inr (Or.inr ⟨?_, j, u, stage, hji, hu, huid.trans hrun, hscenario⟩)
      have huactive : u.phase.is_active = true := by
        obtain hphase | hphase | hphase := CampaignPhase.of_scenario hscenario <;> rw [hphase] <;> rfl
      by_contra hactive
      refine hji (h.accountable.orderly.consistent.sole hw hu ?_ (CampaignPhase.holds_of_active huactive)
        (huid.trans hrun))
      exact CampaignPhase.holds_of_active (Bool.not_eq_false _ ▸ hactive)

/-- A worker that a cancellation has found takes no stage past a check any more. A scenario it had
started has ended or is marked, once the cancellation has returned and the worker is past
`set_current`. An abort that has returned has found every worker that was active at its start on a
run its caller may launch, unless that worker has come to its end. -/
theorem found_worker_stops (env : Env) (audit_path state_dir : Bool) (catalog : Catalog) (run_namespace : RunNamespace)
    {labels : List CampaignLabel} {s : CampaignState}
    (hrun : Transition.run (step env) (initial audit_path state_dir catalog run_namespace) labels = some s) :
    ∀ r ∈ s.requests,
      (∀ i ∈ r.found, ∃ w : CampaignWorker, s.workers[i]? = some w ∧ s.Barred env i w ∧
        ∀ a ∈ s.attempts, a.campaign_run = w.run.id → ∀ (handle : Nat) (x : Worker), s.exec.workers[handle]? = some x →
          a.run_id = x.record.run_id → x.Halting ∨
            (∃ stage, stage.run_id = a.run_id ∧ Unmarked env s r i handle stage w.phase) ∨
            (w.phase.is_active = false ∧ ∃ j u stage, j ≠ i ∧ s.workers[j]? = some u ∧ u.run.id = w.run.id ∧
              u.phase.scenario = some (stage, handle))) ∧
      (r.phase = .sweeping → r.queue = [] → ∀ i ∈ r.active, ∃ w : CampaignWorker, s.workers[i]? = some w ∧
        (w.phase.is_active = true → authorized s.catalog w.run r.role = true → i ∈ r.found)) := by
  obtain ⟨started, h⟩ := Cancellable.preserved.run ⟨[], .initial audit_path state_dir catalog run_namespace⟩ hrun
  refine fun r hr => ⟨fun i hi => ?_, fun hphase hqueue i hi => ?_⟩
  · obtain ⟨w, hw, hreached⟩ := h.watched.reached r hr i hi
    exact ⟨w, hw, h.barred hw ⟨r, hr, hi⟩ hreached.cancelled, fun a ha hid handle x hx hrunid =>
      h.caught hr hi hw ha hid hx hrunid⟩
  · exact h.watched.returned hr hphase hqueue hi

/-- A cancellation that comes between the admission of a scenario and its entry in the control. -/
def cancelled_stage : List CampaignLabel :=
  canary_stage.take 13 ++ [.cancel_campaign_run .Admin (next_campaign_run_id latency_namespace 1), .cancel 0, .cancel 0,
    .enter 0, .cancel_stage 0]

theorem cancelled_stage_stops : ∃ s,
    Transition.run (step blank_env) (initial true true canary_catalog latency_namespace) cancelled_stage = some s ∧
      ∃ w x, s.workers = [w] ∧ s.Barred blank_env 0 w ∧ s.exec.workers = [x] ∧ x.Halting := by
  have hrun : Transition.run (step blank_env) (initial true true canary_catalog latency_namespace) cancelled_stage =
    some _ := rfl
  obtain ⟨hfound, -⟩ :=
    found_worker_stops blank_env true true canary_catalog latency_namespace hrun _ (List.mem_singleton_self _)
  obtain ⟨w, hw, hbarred, hcaught⟩ := hfound 0 (List.mem_singleton_self _)
  obtain rfl := Option.some.inj hw
  refine ⟨_, hrun, _, _, rfl, hbarred, rfl, ?_⟩
  refine (hcaught _ (List.mem_singleton_self _) rfl 0 _ rfl rfl).resolve_right ?_
  rintro (⟨stage, -, hunmarked⟩ | ⟨hended, -⟩)
  · cases hunmarked.of_awaiting rfl
  · cases hended

end CampaignState

end

end asmodeus.control_plane
