import Asmodeus.ControlPlane.Campaign.Watch

open asmodeus.common asmodeus.telemetry

namespace asmodeus.control_plane

open campaign_run

section

variable {env : Env} {exec exec' : ExecutionState} {w w' : CampaignWorker} {x y : Worker} {r : CancelRequest}
    {index : Nat}

namespace CampaignState

/-- A scenario that was started for a stage and the worker that stands at it. -/
def Attached (s : CampaignState) (a : Attempt) (handle : Nat) : Prop :=
  ∃ (i : Nat) (w : CampaignWorker) (stage : Stage), s.workers[i]? = some w ∧ w.run.id = a.campaign_run ∧
    stage.run_id = a.run_id ∧ w.phase.scenario = some (stage, handle)

/-- No scenario of a stage goes on without its worker. -/
def Accompanied (s : CampaignState) : Prop :=
  ∀ (handle : Nat) (x : Worker), s.exec.workers[handle]? = some x → ∀ a ∈ s.attempts, a.run_id = x.record.run_id →
    x.phase.ended = true ∨ s.Attached a handle

section

variable {s next : CampaignState} {label : CampaignLabel}

section

variable {a : Attempt} {handle : Nat} {started started' : List String} {final : String → Prop}

theorem Attached.kept (h : s.Attached a handle)
    (hkept : ∀ (i : Nat) (w : CampaignWorker), s.workers[i]? = some w → next.workers[i]? = some w) :
      next.Attached a handle := by
  obtain ⟨i, w, stage, hw, hattached⟩ := h
  exact ⟨i, w, stage, hkept i w hw, hattached⟩

/-- A worker leaves its scenario only at its end. -/
theorem Attached.turn (h : s.Attached a handle) (hw : s.workers[index]? = some w) (hturns : w.Turns w' s.exec next.exec)
    (hworkers : next.workers = s.workers.set index w') :
    next.Attached a handle ∨ ∃ x : Worker, s.exec.workers[handle]? = some x ∧ x.phase.ended = true := by
  obtain ⟨i, u, stage, hu, hid, hrunid, hscenario⟩ := h
  obtain ⟨rfl, rfl, hu'⟩ | hu' := set_cases w' hw hu
  · obtain ⟨hscenario', hid'⟩ | hended := hturns.leaves stage handle hscenario
    · exact Or.inl ⟨i, w', stage, hworkers ▸ hu', hid'.trans hid, hrunid, hscenario'⟩
    · exact Or.inr hended
  · exact Or.inl ⟨i, u, stage, hworkers ▸ hu', hid, hrunid, hscenario⟩

theorem Executes.worker_from (hexecutes : s.Executes env next started started')
    (hy : next.exec.workers[handle]? = some y) :
    (∃ x : Worker, s.exec.workers[handle]? = some x ∧ x.Follows y) ∨ y.record.run_id ∉ started := by
  obtain ⟨hexec, -⟩ | ⟨label, hmoves, hids⟩ := hexecutes
  · exact Or.inl ⟨y, hexec ▸ hy, .refl y⟩
  · obtain hold | ⟨id, entry, role, selected, now, hlabel, -, hsign, -⟩ := hmoves.workers_from hy
    · exact Or.inl hold
    · refine Or.inr ?_
      rw [(admission_record_spec hsign).1]
      exact (hids.fresh id entry role selected now hlabel).1

/-- No scenario is started for a stage, and those under way keep their workers. -/
theorem Accompanied.keeps (h : s.Accompanied) (hexecutes : s.Executes env next started started')
    (hstarted : ∀ a ∈ s.attempts, a.run_id ∈ started) (hattempts : next.attempts = s.attempts)
    (hattached : ∀ a handle, s.Attached a handle →
      next.Attached a handle ∨ ∃ x : Worker, s.exec.workers[handle]? = some x ∧ x.phase.ended = true) :
    next.Accompanied := by
  intro handle y hy a ha hid
  rw [hattempts] at ha
  obtain ⟨x, hx, hfollows⟩ | hnew := hexecutes.worker_from hy
  · have hended {x' : Worker} (hx' : s.exec.workers[handle]? = some x') (hx'ended : x'.phase.ended = true) :
        y.phase.ended = true := by
      obtain rfl := Option.some.inj (hx.symm.trans hx')
      exact (congrArg Phase.ended (hfollows.ended hx'ended)).trans hx'ended
    obtain hxended | hbefore := h handle x hx a ha (hid.trans (congrArg AuditRecord.run_id hfollows.record))
    · exact Or.inl (hended hx hxended)
    · obtain hnext | ⟨x', hx', hx'ended⟩ := hattached a handle hbefore
      · exact Or.inr hnext
      · exact Or.inl (hended hx' hx'ended)
  · exact absurd (hid ▸ hstarted a ha) hnew

/-- The scenario of a stage starts beside its worker. -/
theorem Accompanied.start (h : s.Accompanied) (hissues : s.exec.Issues started)
    (hstaged : Staged s.campaign_runs.value s.workers s.attempts s.issued started final)
    (hw : s.workers[index]? = some w) {stage : Stage} (hphase : w.phase = .starting stage)
    (hstarted : s.exec.Started stage.run_id exec) {step : Nat} :
    Accompanied { s.set_phase index w (.admitting stage s.exec.workers.length) with
      exec := exec, attempts := ⟨w.run.id, step, stage.run_id⟩ :: s.attempts } := by
  have hplanned := CampaignWorker.planned_starting hphase
  have hunstarted := (hstaged.planned index w stage.run_id hw hplanned).2.1
  obtain ⟨z, rfl, hzid⟩ := hstarted
  intro handle y hy a ha hid
  have hy : (s.exec.workers ++ [z])[handle]? = some y := hy
  rw [List.getElem?_append] at hy
  split at hy
  · -- a scenario that was there before is not that of the new attempt
    have hknown := hissues.known handle y hy
    obtain rfl | ha := List.mem_cons.mp ha
    · have hid : stage.run_id = y.record.run_id := hid
      exact absurd (hid ▸ hknown) hunstarted
    · refine (h handle y hy a ha hid).imp_right fun hattached => ?_
      obtain ⟨i, u, stage', hu, hrun, hrunid, hscenario⟩ := hattached
      obtain ⟨rfl, rfl, -⟩ | hu' := set_cases { w with phase := .admitting stage s.exec.workers.length } hw hu
      · rw [hphase] at hscenario
        cases hscenario
      · exact ⟨i, u, stage', hu', hrun, hrunid, hscenario⟩
  · obtain ⟨hlt, hlast⟩ := List.getElem?_eq_some_iff.mp hy
    rw [List.getElem_singleton] at hlast
    subst hlast
    rw [List.length_singleton] at hlt
    obtain rfl | ha := List.mem_cons.mp ha
    · refine Or.inr ⟨index, { w with phase := .admitting stage s.exec.workers.length }, stage, ?_, rfl, rfl, ?_⟩
      · obtain ⟨hlt, -⟩ := List.getElem?_eq_some_iff.mp hw
        exact List.getElem?_set_self hlt
      · change some (stage, s.exec.workers.length) = some (stage, handle)
        rw [show handle = s.exec.workers.length by omega]
    · rw [hzid] at hid
      exact absurd (hid ▸ (hstaged.named a ha).1) hunstarted

/-- Every step keeps the workers at their scenarios. -/
theorem Accompanied.moves (h : s.Accompanied) (hwatched : s.Watched) (hmapped : s.exec.Mapped)
    (haccountable : s.Accountable started)
    (hexecutes : s.Executes env next started started') (hmoves : s.Moves env label next) : next.Accompanied := by
  have hstarted : ∀ a ∈ s.attempts, a.run_id ∈ started := fun a ha => (haccountable.staged.named a ha).1
  cases hmoves with
  | crash label exec hexec hdown =>
    obtain rfl := (ExecutionState.step_moves hexec).of_down hdown
    intro handle y hy
    cases hy
  | abandon =>
    intro handle y hy
    cases hy
  | launch | resume =>
    refine h.keeps hexecutes hstarted rfl fun a handle hattached => Or.inl (hattached.kept fun i w hw => ?_)
    obtain ⟨hlt, -⟩ := List.getElem?_eq_some_iff.mp hw
    exact (List.getElem?_append_left hlt).trans hw
  | cancel request r next hready hrequest hcancels =>
    cases hcancels with
    | flag worker w hphase hw =>
      refine h.keeps hexecutes hstarted rfl fun a handle hattached => Or.inl ?_
      obtain ⟨i, u, stage, hu, hid, hrunid, hscenario⟩ := hattached
      obtain ⟨rfl, rfl, hu'⟩ | hu' := set_cases { w with control := { w.control with cancelled := true } } hw hu
      · exact ⟨i, _, stage, hu', hid, hrunid, hscenario⟩
      · exact ⟨i, u, stage, hu', hid, hrunid, hscenario⟩
    | _ => exact h.keeps hexecutes hstarted rfl fun a handle hattached => Or.inl (hattached.kept fun i w hw => hw)
  | work index w label next hready hw hworks =>
    obtain ⟨w', hworkers, hturns⟩ := hworks.turns hw haccountable.orderly.consistent hmapped
      (hwatched.attends index w hw)
    cases hworks with
    | start stage entry selected now exec hphase hentry hexec =>
      exact h.start haccountable.heard.issues haccountable.staged hw hphase (ExecutionState.step_start hexec).2
    | _ => exact h.keeps hexecutes hstarted rfl fun a handle hattached => hattached.turn hw hturns hworkers
  | _ => exact h.keeps hexecutes hstarted rfl fun a handle hattached => Or.inl (hattached.kept fun i w hw => hw)

end

/-- What every step keeps, with the scenario runs that were started. -/
structure Cancellable (s : CampaignState) (started : List String) : Prop where
  accountable : s.Accountable started
  mapped : s.exec.Mapped
  watched : s.Watched
  accompanied : s.Accompanied

theorem Cancellable.initial (audit_path state_dir : Bool) (catalog : Catalog) (run_namespace : RunNamespace) :
    (CampaignState.initial audit_path state_dir catalog run_namespace).Cancellable [] where
  accountable := .initial audit_path state_dir catalog run_namespace
  mapped := (ExecutionState.initial_stoppable audit_path).mapped
  watched := .idle rfl rfl
  accompanied handle x hx := by cases hx

theorem Cancellable.moves {started : List String} (h : s.Cancellable started) (hmoves : s.Moves env label next) :
    ∃ started', next.Cancellable started' := by
  obtain ⟨started', hexecutes, haccountable⟩ := h.accountable.moves hmoves
  have hmapped : next.exec.Mapped := by
    obtain ⟨hexec, -⟩ | ⟨label, hexec, -⟩ := hexecutes
    · exact hexec ▸ h.mapped
    · exact h.mapped.moves h.accountable.sound hexec
  exact ⟨started', haccountable, hmapped, h.watched.moves h.accountable.orderly h.mapped hmoves,
    h.accompanied.moves h.watched h.mapped h.accountable hexecutes hmoves⟩

theorem Cancellable.preserved : Transition.Preserved (step env) fun s => ∃ started, s.Cancellable started := by
  rintro s label next ⟨started, h⟩ hstep
  exact h.moves (step_moves hstep)

/-- A worker in a phase. -/
def At (s : CampaignState) (i : Nat) (phase : CampaignPhase) : Prop :=
  ∃ w : CampaignWorker, s.workers[i]? = some w ∧ w.phase = phase

/-- A cancellation has found the control of the worker. -/
def Flagged (s : CampaignState) (i : Nat) : Prop := ∃ r ∈ s.requests, i ∈ r.found

theorem Watched.not_flagged (h : s.Watched) {i : Nat} (hw : s.workers[i]? = some w)
    (hgoing : w.control.cancelled = false) :
    ¬ s.Flagged i := by
  rintro ⟨r, hr, hi⟩
  obtain ⟨u, hu, hreached⟩ := h.reached r hr i hi
  obtain rfl := Option.some.inj (hw.symm.trans hu)
  cases hgoing.symm.trans hreached.cancelled

/-- A worker that a cancellation has found gives up its stage at the next check. -/
theorem Watched.recheck (h : s.Watched) {i : Nat} (hflagged : s.Flagged i) (hmoves : s.Moves env (.recheck i) next) :
    next.At i .withdrawing := by
  cases hmoves with
  | work index u label next hready hu hworks =>
    cases hworks with
    | withdraw stage' hintended hcancelled =>
      obtain ⟨hlt, -⟩ := List.getElem?_eq_some_iff.mp hu
      exact ⟨_, List.getElem?_set_self hlt, rfl⟩
    | recheck stage' hintended hgoing => exact absurd hflagged (h.not_flagged hu hgoing)

/-- Once a cancellation has returned, the scenario its worker awaits does not go on unmarked. -/
theorem Watched.answered (h : s.Watched) (hr : r ∈ s.requests) {i handle : Nat} (hanswered : r.Answered i)
    (hw : s.workers[i]? = some w) {stage : Stage} (hphase : w.phase = .awaiting stage handle)
    (hx : s.exec.workers[handle]? = some x) : x.Halting := by
  obtain ⟨u, hu, hreached⟩ := h.reached r hr i hanswered.1
  obtain rfl := Option.some.inj (hw.symm.trans hu)
  exact (hreached.halting stage handle x hphase hx).resolve_right (hanswered.2 stage.run_id)

/-- An abort that has returned has found the active workers of the runs its caller may launch. -/
theorem Watched.returned (h : s.Watched) (hr : r ∈ s.requests) (hphase : r.phase = .sweeping) (hqueue : r.queue = [])
    {i : Nat} (hi : i ∈ r.active) : ∃ w : CampaignWorker, s.workers[i]? = some w ∧
      (w.phase.is_active = true → authorized s.catalog w.run r.role = true → i ∈ r.found) := by
  obtain ⟨w, hw, hswept⟩ := h.swept r hr i hi
  refine ⟨w, hw, fun hactive hauthorized => (hswept.heads hactive hauthorized).resolve_right fun hheads => ?_⟩
  unfold CancelRequest.Heads at hheads
  rw [hphase, hqueue] at hheads
  cases hheads

theorem Saves.after {phase : CampaignPhase} {change : CampaignRun → CampaignRun} {after : CampaignRun → CampaignPhase}
    (hsaves : phase.Saves change after) (run : CampaignRun) (stage : Stage) : after run ≠ .starting stage := by
  cases hsaves with
  | cancel | withdraw | complete | intend => exact fun h => by cases h
  | record result terminal =>
    dsimp only
    split <;> exact fun h => by cases h

/-- Only the check that finds no cancellation leads a worker to the start of its stage. -/
theorem Moves.checks (hmoves : s.Moves env label next) {i : Nat} {stage : Stage} (hbefore : ¬ s.At i (.starting stage))
    (hafter : next.At i (.starting stage)) : label = .recheck i ∧
      ∃ w : CampaignWorker, s.workers[i]? = some w ∧ w.phase = .intended stage ∧ w.control.cancelled = false := by
  obtain ⟨u, hu, hphase⟩ := hafter
  have hkept (hu : s.workers[i]? = some u) : False := hbefore ⟨u, hu, hphase⟩
  cases hmoves with
  | crash | abandon => cases hu
  | launch | resume =>
    obtain hu | ⟨-, rfl⟩ := launched_cases hu
    · exact (hkept hu).elim
    · cases hphase
  | cancel request r next hready hrequest hcancels =>
    cases hcancels with
    | flag worker w hflagging hw =>
      obtain ⟨rfl, rfl⟩ | ⟨-, hu⟩ := get_set_cases hu
      · exact absurd ⟨w, hw, hphase⟩ hbefore
      · exact (hkept hu).elim
    | _ => exact (hkept hu).elim
  | work index w label next hready hw hworks =>
    cases hworks with
    | recheck stage' hintended hgoing =>
      obtain ⟨rfl, rfl⟩ | ⟨-, hu⟩ := get_set_cases hu
      · obtain rfl := CampaignPhase.starting.inj hphase
        exact ⟨rfl, w, hw, hintended, hgoing⟩
      · exact (hkept hu).elim
    | save now disk change phase run next hsaves hupdate =>
      obtain ⟨-, rfl⟩ | ⟨-, hu⟩ := get_set_cases hu
      · exact absurd hphase (Saves.after hsaves run stage)
      · exact (hkept hu).elim
    | enter stage' handle x hadmitting hx hentered =>
      obtain ⟨-, rfl⟩ | ⟨-, hu⟩ := get_set_cases hu
      · dsimp only at hphase
        split at hphase <;> cases hphase
      · exact (hkept hu).elim
    | _ =>
      obtain ⟨-, rfl⟩ | ⟨-, hu⟩ := get_set_cases hu
      · cases hphase
      · exact (hkept hu).elim
  | _ => exact (hkept hu).elim

theorem step_commit_withdraw {i : Nat} {now : String} {disk : Disk} (hw : s.workers[i]? = some w)
    (hphase : w.phase = .withdrawing) (hstep : s.step env (.commit i now disk) = some next) :
    next = s.save i w now disk CampaignRun.withdraw fun _ => .closing := by
  unfold step at hstep
  dsimp only at hstep
  split at hstep
  · rw [hw, Option.bind_some] at hstep
    change s.commit i w now disk = some next at hstep
    unfold commit at hstep
    rw [hphase] at hstep
    exact (Option.some.inj hstep).symm
  · cases hstep

/-- A worker that gives up its stage writes that down, and has not started it. -/
theorem Cancellable.withdraws {started : List String} (h : s.Cancellable started) {i : Nat} {now : String} {disk : Disk}
    (hw : s.workers[i]? = some w) (hphase : w.phase = .withdrawing)
    (hstep : s.step env (.commit i now disk) = some next) :
    (∀ a ∈ next.attempts, w.run.current_ids.getLast? ≠ some a.run_id) ∧ next.At i .closing ∧
      (disk = .ok () → ∀ run, next.campaign_runs.value.get w.run.id = some run → run.status = CANCELLED ∧
        run.step_results.getLast?.map (fun result => (result.status, result.run_id)) = some (CANCELLED, "")) := by
  obtain ⟨hlt, -⟩ := List.getElem?_eq_some_iff.mp hw
  have hplanned := CampaignWorker.planned_withdrawing hphase
  have hunstarted : ∀ a ∈ s.attempts, w.run.current_ids.getLast? ≠ some a.run_id := fun a ha hlast =>
    (h.accountable.staged.planned i w a.run_id hw (hplanned.trans hlast)).2.1 (h.accountable.staged.named a ha).1
  obtain ⟨hget, stage, hattempting⟩ : s.campaign_runs.value.get w.run.id = some w.run ∧
    ∃ stage, w.run.Attempting stage := by
    have hactive := h.accountable.orderly.consistent.active i w hw (by rw [hphase]; rfl)
    rwa [hphase] at hactive
  obtain ⟨finished, hresults, -, -⟩ := CampaignRun.Attempting.current_ids hattempting
  have hconcat : ({ w.run with status := CANCELLED } : CampaignRun).step_results = finished ++ [stage.pending] :=
    hresults
  have hwithdrawn := CampaignRun.set_last_concat hconcat fun last => { last with status := CANCELLED, run_id := "" }
  have hid : w.run.withdraw.id = w.run.id := CampaignRun.set_last_id _ _
  obtain rfl := step_commit_withdraw hw hphase hstep
  unfold save
  cases hupdate : s.campaign_runs.update disk fun store => store.update w.run.id now CampaignRun.withdraw with
  | mk result runs =>
    obtain ⟨e, rfl, rfl⟩ | ⟨saved, store, rfl, hsaved, rfl⟩ := Persistent.update_cases hupdate
    · refine ⟨hunstarted, ⟨_, List.getElem?_set_self hlt, rfl⟩, ?_⟩
      rintro rfl
      obtain ⟨saved, store, hok⟩ : ∃ saved store,
          s.campaign_runs.value.update w.run.id now CampaignRun.withdraw = .ok (saved, store) := by
        unfold CampaignRunStore.update
        rw [hget]
        exact ⟨_, _, rfl⟩
      cases hupdate.symm.trans (Persistent.update_of_ok hok)
    · refine ⟨hunstarted, ⟨_, List.getElem?_set_self hlt, rfl⟩, fun _ run hrun => ?_⟩
      obtain ⟨rfl, hwrites, hsavedid⟩ := h.accountable.orderly.consistent.update hid hget hsaved
      obtain ⟨-, rfl⟩ | ⟨hne, -⟩ := hwrites.origin _ _ hrun
      · unfold CampaignRun.withdraw
        rw [hwithdrawn]
        exact ⟨rfl, by rw [List.getLast?_concat]; rfl⟩
      · exact absurd hsavedid.symm hne

end

end CampaignState

end

namespace CampaignState

/-- In every interleaving, a cancellation that has found a worker is not missed by it. A started
stage has passed its check before any cancellation found its worker; a check after that gives the
stage up, which is recorded as cancelled and never started. A scenario of a stage has ended, has
its cancel flag set, or its worker is yet to pass `set_current` or was found by no cancellation
that has returned. An abort that has returned has found every worker that was active at its start
on a run its caller may launch, unless that worker has come to its end. -/
theorem cancellation_not_missed (env : Env) (audit_path state_dir : Bool) (catalog : Catalog)
    (run_namespace : RunNamespace) :
    (∀ labels s, Transition.run (step env) (initial audit_path state_dir catalog run_namespace) labels = some s →
      (∀ label next a, s.step env label = some next → next.attempts = a :: s.attempts → ∃ i stage,
        stage.run_id = a.run_id ∧ Transition.Since (step env)
          (fun _ u check _ => check = .recheck i ∧ u.At i (.intended stage) ∧ ¬ u.Flagged i)
          (fun u _ v => u.At i (.starting stage) ∧ v.At i (.starting stage))
          (initial audit_path state_dir catalog run_namespace) labels ∧ s.At i (.starting stage)) ∧
      (∀ i next, s.Flagged i → s.step env (.recheck i) = some next →
        next.At i .withdrawing) ∧
      (∀ (i : Nat) (w : CampaignWorker) (now : String) (disk : Disk) (next : CampaignState), s.workers[i]? = some w →
        w.phase = .withdrawing → s.step env (.commit i now disk) = some next →
          (∀ a ∈ next.attempts, w.run.current_ids.getLast? ≠ some a.run_id) ∧ next.At i .closing ∧
            (disk = .ok () → ∀ run, next.campaign_runs.value.get w.run.id = some run → run.status = CANCELLED ∧
              run.step_results.getLast?.map (fun result => (result.status, result.run_id)) = some (CANCELLED, ""))) ∧
      (∀ (handle : Nat) (x : Worker) (a : Attempt), s.exec.workers[handle]? = some x → a ∈ s.attempts →
        a.run_id = x.record.run_id → x.Halting ∨ ∃ i w stage, s.workers[i]? = some w ∧ w.run.id = a.campaign_run ∧
          stage.run_id = a.run_id ∧ (w.phase = .admitting stage handle ∨ w.phase = .cancelling stage handle ∨
            w.phase = .awaiting stage handle ∧ ∀ r ∈ s.requests, ¬ r.Answered i)) ∧
      ∀ r ∈ s.requests, r.phase = .sweeping → r.queue = [] → ∀ i ∈ r.active, ∃ w : CampaignWorker,
        s.workers[i]? = some w ∧ (w.phase.is_active = true → authorized s.catalog w.run r.role = true →
          i ∈ r.found)) := by
  have hinitial : ∃ started, (initial audit_path state_dir catalog run_namespace).Cancellable started :=
    ⟨[], .initial audit_path state_dir catalog run_namespace⟩
  intro labels s hrun
  obtain ⟨started, h⟩ := Cancellable.preserved.run hinitial hrun
  refine ⟨fun label next a hstep ha => ?_, fun i next hflagged hstep => ?_,
    fun i w now disk next hw hphase hstep => h.withdraws hw hphase hstep, fun handle x a hx ha hid => ?_,
    fun r hr hphase hqueue i hi => ?_⟩
  · obtain hsame | ⟨i, w, stage, hw, hphase, hgrown⟩ := (step_moves hstep).starts
    · rw [ha] at hsame
      exact absurd hsame (by simp)
    · obtain ⟨rfl, -⟩ := List.cons_eq_cons.mp (ha.symm.trans hgrown)
      have hstarting : s.At i (.starting stage) := ⟨w, hw, hphase⟩
      have hstart : ¬ (initial audit_path state_dir catalog run_namespace).At i (.starting stage) := by
        rintro ⟨u, hu, -⟩
        cases hu
      have hsince := Transition.since_of_not (P := fun s => s.At i (.starting stage)) hrun hstart hstarting
      refine ⟨i, stage, rfl, hsince.imp fun before u check v hbefore hcheck hpasses => ?_, hstarting⟩
      obtain ⟨hu, hv⟩ := hpasses
      obtain ⟨hlabel, x, hx, hintended, hgoing⟩ := (step_moves hcheck).checks hu hv
      obtain ⟨earlier, hcancellable⟩ := Cancellable.preserved.run hinitial hbefore
      exact ⟨hlabel, ⟨x, hx, hintended⟩, hcancellable.watched.not_flagged hx hgoing⟩
  · exact h.watched.recheck hflagged (step_moves hstep)
  · obtain hended | ⟨i, w, stage, hw, hrunid, hstage, hscenario⟩ := h.accompanied handle x hx a ha hid
    · exact Or.inl (Or.inl hended)
    · obtain hadmitting | hcancelling | hawaiting := CampaignPhase.of_scenario hscenario
      · exact Or.inr ⟨i, w, stage, hw, hrunid, hstage, Or.inl hadmitting⟩
      · exact Or.inr ⟨i, w, stage, hw, hrunid, hstage, Or.inr (Or.inl hcancelling)⟩
      · by_cases hhalting : x.Halting
        · exact Or.inl hhalting
        · refine Or.inr ⟨i, w, stage, hw, hrunid, hstage,
            Or.inr (Or.inr ⟨hawaiting, fun r hr hanswered => hhalting ?_⟩)⟩
          exact h.watched.answered hr hanswered hw hawaiting hx
  · exact h.watched.returned hr hphase hqueue hi

/-- A campaign of one simulated stage that an abort comes upon while its scenario runs. -/
def aborted_stage : List CampaignLabel :=
  canary_stage.take 14 ++ [.abort_all .Admin, .cancel 0, .cancel 0, .cancel 0, .cancel 0, .cancel 0, .cancel 0]

theorem aborted_stage_not_missed : ∃ s,
    Transition.run (step blank_env) (initial true true canary_catalog latency_namespace) aborted_stage = some s ∧
      ∃ r x, s.requests = [r] ∧ 0 ∈ r.found ∧ s.exec.workers = [x] ∧ x.Halting := by
  have hrun : Transition.run (step blank_env) (initial true true canary_catalog latency_namespace) aborted_stage =
    some _ := rfl
  obtain ⟨-, -, -, hscenario, hswept⟩ :=
    cancellation_not_missed blank_env true true canary_catalog latency_namespace _ _ hrun
  obtain ⟨w, hw, hfound⟩ := hswept _ (List.mem_singleton_self _) rfl rfl 0 (List.mem_singleton_self _)
  obtain rfl := Option.some.inj hw
  refine ⟨_, hrun, _, _, rfl, hfound rfl rfl, rfl, ?_⟩
  refine (hscenario 0 _ _ rfl (List.mem_singleton_self _) rfl).resolve_right ?_
  rintro ⟨i, w, stage, hw, -, -, hadmitting | hcancelling | ⟨-, hmissed⟩⟩
  · cases i <;> cases hw
    cases hadmitting
  · cases i <;> cases hw
    cases hcancelling
  · refine hmissed _ (List.mem_singleton_self _) ?_
    cases i <;> cases hw
    exact ⟨List.mem_singleton_self _, nofun⟩

end CampaignState

end asmodeus.control_plane
