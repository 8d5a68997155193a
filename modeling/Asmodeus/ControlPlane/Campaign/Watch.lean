import Asmodeus.ControlPlane.Campaign.Snapshot
import Asmodeus.ControlPlane.Campaign.Stages
import Asmodeus.ControlPlane.Execution.EmergencyStop

open asmodeus.common asmodeus.telemetry

namespace asmodeus.control_plane

open campaign_run

/-- The scenario has come to its end, or its cancel flag is set. A refused one has ended. -/
def Worker.Halting (w : Worker) : Prop := w.phase.ended = true ∨ w.cancel = true

/-- The stage a worker stands at, with the handle of its scenario. -/
def CampaignPhase.scenario : CampaignPhase → Option (Stage × Nat)
  | .admitting stage handle | .cancelling stage handle | .awaiting stage handle => some (stage, handle)
  | _ => none

/-- The scenario run that the control of a worker holds. -/
def CampaignPhase.current : CampaignPhase → Option String
  | .cancelling stage _ | .awaiting stage _ => some stage.run_id
  | _ => none

/-- A cancellation has found the worker and is done with it. -/
def CancelRequest.Answered (r : CancelRequest) (worker : Nat) : Prop :=
  worker ∈ r.found ∧ ∀ run_id, r.phase ≠ .stopping worker run_id

/-- The sweep of an abort has yet to come to a campaign run and its worker. -/
def CancelRequest.Heads (r : CancelRequest) (id : String) (worker : Nat) : Prop :=
  match r.phase with
  | .aborting _ | .collecting => True
  | .sweeping | .stopping _ _ => id ∈ r.queue
  | .looking looked => id = looked ∨ id ∈ r.queue
  | .flagging flagged => worker = flagged ∨ id ∈ r.queue

/-- The run of the worker has entered the map of runs, whether or not it has left it. -/
def Worker.Entered (w : Worker) : Prop := w.phase.mapped = true ∨ w.phase.ended = true

/-- The executions go on. -/
def ExecutionState.Continues (s next : ExecutionState) : Prop :=
  ∀ (handle : Nat) (x : Worker), s.workers[handle]? = some x →
    ∃ y : Worker, next.workers[handle]? = some y ∧ x.Follows y ∧ (x.Entered → y.Entered)

/-- The control of a worker holds the scenario of its stage once that is in the map of runs. -/
structure CampaignWorker.Attends (w : CampaignWorker) (exec : ExecutionState) : Prop where
  current : w.control.current = w.phase.current
  scenario : ∀ stage handle, w.phase.scenario = some (stage, handle) →
    ∃ x : Worker, exec.workers[handle]? = some x ∧ x.record.run_id = stage.run_id ∧
      (w.phase ≠ .admitting stage handle → x.Entered)

/-- A cancellation has reached the worker it has found. -/
structure CampaignWorker.Reached (w : CampaignWorker) (exec : ExecutionState) (r : CancelRequest) (worker : Nat) :
    Prop where
  cancelled : w.control.cancelled = true
  halting : ∀ stage handle x, w.phase = .awaiting stage handle → exec.workers[handle]? = some x →
    x.Halting ∨ r.phase = .stopping worker stage.run_id

/-- An abort comes to a worker that was active at its start as long as that is active. -/
structure CampaignWorker.Swept (w : CampaignWorker) (catalog : Catalog) (r : CancelRequest) (worker : Nat) : Prop where
  entered : w.phase.is_pending = false
  heads : w.phase.is_active = true → authorized catalog w.run r.role = true →
    worker ∈ r.found ∨ r.Heads w.run.id worker

section

variable {env : Env} {exec exec' : ExecutionState} {w w' : CampaignWorker} {x y : Worker} {r : CancelRequest}
    {index : Nat}

theorem Worker.Follows.halting (h : x.Follows y) (hx : x.Halting) : y.Halting := by
  obtain hended | hcancel := hx
  · exact Or.inl ((congrArg Phase.ended (h.ended hended)).trans hended)
  · exact Or.inr (h.cancel hcancel)

namespace ExecutionState

theorem Continues.refl (s : ExecutionState) : s.Continues s := fun _ x hx => ⟨x, hx, .refl x, id⟩

theorem stopped_entered (exec : ExecutionState) (stop : StopRequest) {handle : Nat}
    (hx : exec.workers[handle]? = some x)
    (hy : (exec.stopped stop).workers[handle]? = some y) (hentered : x.Entered) : y.Entered := by
  rw [stopped_worker, hx, Option.map_some, Option.some.injEq] at hy
  subst hy
  split <;> exact hentered

theorem stopped_continues (exec : ExecutionState) (stop : StopRequest) : exec.Continues (exec.stopped stop) := by
  intro handle x hx
  obtain ⟨y, hy, hfollows⟩ := exec.stopped_follows stop handle x hx
  exact ⟨y, hy, hfollows, exec.stopped_entered stop hx hy⟩

/-- A run leaves the map only at its end. -/
theorem Moves.entered {label : ExecutionLabel} (hmoves : exec.Moves env label exec') {handle : Nat}
    (hx : exec.workers[handle]? = some x) (hy : exec'.workers[handle]? = some y) (hentered : x.Entered) :
      y.Entered := by
  have hset {h : Nat} {w w' : Worker} (hw : exec.workers[h]? = some w)
      (hy : (exec.set_worker h w').workers[handle]? = some y)
      (hstep : w.Entered → w'.Entered) : y.Entered := by
    obtain ⟨rfl, rfl⟩ | ⟨-, hother⟩ := get_set_worker hy
    · obtain rfl := Option.some.inj (hw.symm.trans hx)
      exact hstep hentered
    · exact Option.some.inj (hx.symm.trans hother) ▸ hentered
  have hearly {w : Worker} {phase : Phase} (hphase : w.phase = phase) (hmapped : phase.mapped = false)
      (hended : phase.ended = false) : ¬ w.Entered := by
    rintro (h | h)
    · cases (hphase ▸ h).symm.trans hmapped
    · cases (hphase ▸ h).symm.trans hended
  cases hmoves with
  | crash => cases hy
  | start id entry role selected now record hserving hrole hsign =>
    obtain ⟨hlt, -⟩ := List.getElem?_eq_some_iff.mp hx
    rw [List.getElem?_append_left hlt] at hy
    exact Option.some.inj (hx.symm.trans hy) ▸ hentered
  | refuse h w hserving hw hphase => exact hset hw hy fun hw => absurd hw (hearly hphase rfl rfl)
  | append h w hserving hw hphase hnew => exact hset hw hy fun hw => absurd hw (hearly hphase rfl rfl)
  | insert h w hserving hw hphase => exact hset hw hy fun _ => Or.inl rfl
  | settle h w settlement hserving hw hphase => exact hset hw hy fun _ => Or.inl rfl
  | unsave h w hserving hw hphase => exact hset hw hy fun _ => Or.inl rfl
  | vanish h w hserving hw hphase hgone => exact hset hw hy fun _ => Or.inl rfl
  | commit h w settlement now old record hserving hw hphase hold hrevise hid hsettlement =>
    exact hset hw hy fun _ => Or.inl rfl
  | remove h w hserving hw hphase => exact hset hw hy fun _ => Or.inr rfl
  | stop_pass request stop hserving hstop hpending => exact exec.stopped_entered stop hx hy hentered
  | cancel_scenario run_id hserving => exact exec.stopped_entered ⟨.Admin, some run_id, [], false⟩ hx hy hentered
  | _ => exact Option.some.inj (hx.symm.trans hy) ▸ hentered

theorem Moves.continues {label : ExecutionLabel} (hmoves : exec.Moves env label exec') (hlive : exec' ≠ exec.crash) :
    exec.Continues exec' := by
  intro handle x hx
  obtain ⟨y, hy, hfollows⟩ := hmoves.follows hlive handle x hx
  exact ⟨y, hy, hfollows, hmoves.entered hx hy⟩

theorem step_cancel_scenario {run_id : String} (h : exec.step env (.cancel_scenario run_id) = some exec') :
    exec' = exec.cancel_scenario run_id := by
  unfold ExecutionState.step at h
  dsimp only at h
  split at h
  · exact (Option.some.inj h).symm
  · cases h

theorem cancel_scenario_continues (exec : ExecutionState) (run_id : String) :
    exec.Continues (exec.cancel_scenario run_id) :=
  exec.stopped_continues ⟨.Admin, some run_id, [], false⟩

/-- The flag of a run in the map is set. -/
theorem Mapped.cancel_scenario (hmapped : exec.Mapped) {handle : Nat} (hx : exec.workers[handle]? = some x)
    (hentered : x.Entered)
    (hy : (exec.cancel_scenario x.record.run_id).workers[handle]? = some y) : y.Halting := by
  obtain hphase | hended := hentered
  · have hcovers : StopRequest.Covers ⟨.Admin, some x.record.run_id, [], false⟩ x := by
      refine ⟨?_, fun run_id htarget => Option.some.inj htarget⟩
      cases x.category <;> rfl
    rw [cancel_scenario_eq_stopped, stopped_worker, hx, Option.map_some, hmapped.flags hx hphase hcovers,
      if_pos rfl] at hy
    exact Or.inr (Option.some.inj hy ▸ rfl)
  · obtain ⟨z, hz, hfollows, -⟩ := exec.cancel_scenario_continues x.record.run_id handle x hx
    obtain rfl := Option.some.inj (hy.symm.trans hz)
    exact hfollows.halting (Or.inl hended)

theorem step_stop_pass {request : Nat} (h : exec.step env (.stop_pass request) = some exec') :
    exec.Continues exec' := by
  unfold ExecutionState.step at h
  dsimp only at h
  split at h
  · unfold ExecutionState.stop_pass at h
    split at h
    · rename_i stop _
      obtain ⟨-, h⟩ := Option.ite_none_left_eq_some.mp h
      obtain rfl := Option.some.inj h
      exact exec.stopped_continues stop
    · cases h
  · cases h

theorem step_begin_abort {role : Role} (h : exec.step env (.begin_abort role) = some exec') : exec.Continues exec' := by
  unfold ExecutionState.step at h
  dsimp only at h
  split at h
  · unfold ExecutionState.begin_abort at h
    split at h
    · obtain rfl := Option.some.inj h
      exact .refl exec
    · cases h
  · cases h

end ExecutionState

/-- A scenario that has entered the map of runs is in it until it ends. -/
theorem Phase.runs_of_entered {phase : Phase} (h : phase.entered = true) :
    phase.mapped = true ∨ phase.ended = true := by
  cases phase with
  | admitting | refused | appended => cases h
  | running | settled | committed | unsaved => exact Or.inl rfl
  | finished => exact Or.inr rfl

theorem CampaignPhase.current_of_scenario {phase : CampaignPhase} (h : phase.scenario = none) :
    phase.current = none := by
  cases phase with
  | admitting | cancelling | awaiting => cases h
  | _ => rfl

theorem CampaignPhase.of_scenario {phase : CampaignPhase} {stage : Stage} {handle : Nat}
    (h : phase.scenario = some (stage, handle)) :
    phase = .admitting stage handle ∨ phase = .cancelling stage handle ∨ phase = .awaiting stage handle := by
  cases phase with
  | admitting | cancelling | awaiting =>
    obtain ⟨rfl, rfl⟩ := Prod.mk.inj (Option.some.inj h)
    simp
  | _ => cases h

theorem CampaignWorker.Attends.follows (h : w.Attends exec) (hcontinues : exec.Continues exec') : w.Attends exec' where
  current := h.current
  scenario stage handle hscenario := by
    obtain ⟨x, hx, hid, hentered⟩ := h.scenario stage handle hscenario
    obtain ⟨y, hy, hfollows, hkept⟩ := hcontinues handle x hx
    exact ⟨y, hy, hfollows.record ▸ hid, fun hphase => hkept (hentered hphase)⟩

/-- A worker that stands at no stage. -/
theorem CampaignWorker.Attends.of_none (hcurrent : w.control.current = none) (hscenario : w.phase.scenario = none) :
    w.Attends exec where
  current := by rw [hcurrent, CampaignPhase.current_of_scenario hscenario]
  scenario stage handle h := by cases hscenario.symm.trans h

theorem CampaignWorker.Reached.follows (h : w.Reached exec r index) (hattends : w.Attends exec)
    (hcontinues : exec.Continues exec') : w.Reached exec' r index where
  cancelled := h.cancelled
  halting stage handle y hphase hy := by
    obtain ⟨x, hx, -⟩ := hattends.scenario stage handle (by rw [hphase]; rfl)
    obtain ⟨z, hz, hfollows, -⟩ := hcontinues handle x hx
    obtain rfl := Option.some.inj (hy.symm.trans hz)
    exact (h.halting stage handle x hphase hx).imp_left hfollows.halting

/-- What a step of a worker means to those who watch it. -/
structure CampaignWorker.Turns (w w' : CampaignWorker) (exec exec' : ExecutionState) : Prop where
  continues : exec.Continues exec'
  cancelled : w'.control.cancelled = w.control.cancelled
  attends : w'.Attends exec'
  halting : w.control.cancelled = true → ∀ stage handle x, w'.phase = .awaiting stage handle →
    exec'.workers[handle]? = some x → x.Halting
  leaves : ∀ stage handle, w.phase.scenario = some (stage, handle) →
    (w'.phase.scenario = some (stage, handle) ∧ w'.run.id = w.run.id) ∨
      ∃ x : Worker, exec.workers[handle]? = some x ∧ x.phase.ended = true
  entered : w.phase.is_pending = false → w'.phase.is_pending = false
  active : w.phase.is_pending = false → w'.phase.is_active = true →
    w.phase.is_active = true ∧ w'.run.id = w.run.id ∧ w'.run.steps = w.run.steps

/-- A worker goes from where it stands at no stage to where it stands at none. -/
theorem CampaignWorker.Turns.of_none (hattends : w.Attends exec) (hcontrol : w'.control = w.control)
    (hbefore : w.phase.scenario = none) (hafter : w'.phase.scenario = none)
    (hentered : w.phase.is_pending = false → w'.phase.is_pending = false)
    (hactive : w.phase.is_pending = false → w'.phase.is_active = true →
      w.phase.is_active = true ∧ w'.run.id = w.run.id ∧ w'.run.steps = w.run.steps) : w.Turns w' exec exec where
  continues := .refl exec
  cancelled := by rw [hcontrol]
  attends := .of_none (by rw [hcontrol, hattends.current, CampaignPhase.current_of_scenario hbefore]) hafter
  halting _ stage handle x hphase := by
    rw [hphase] at hafter
    cases hafter
  leaves stage handle h := by cases hbefore.symm.trans h
  entered := hentered
  active := hactive

theorem CampaignWorker.Turns.onward (hattends : w.Attends exec) {before phase : CampaignPhase}
    (hphase : w.phase = before)
    (hbefore : before.scenario = none) (hafter : phase.scenario = none)
    (hactive : before.is_active = true ∨ phase.is_active = false) (hpending : phase.is_pending = false) :
    w.Turns { w with phase := phase } exec exec := by
  subst hphase
  refine .of_none hattends rfl hbefore hafter (fun _ => hpending) fun _ h => ?_
  obtain hactive | hended := hactive
  · exact ⟨hactive, rfl, rfl⟩
  · cases hended.symm.trans h

theorem CampaignPhase.Saves.no_scenario {phase : CampaignPhase} {change : CampaignRun → CampaignRun}
    {after : CampaignRun → CampaignPhase} (hsaves : phase.Saves change after) (run : CampaignRun) :
    phase.scenario = none ∧ (after run).scenario = none := by
  cases hsaves with
  | cancel | intend | withdraw | complete => exact ⟨rfl, rfl⟩
  | record result terminal =>
    refine ⟨rfl, ?_⟩
    dsimp only
    split <;> rfl

section

variable {stage : Stage} {handle : Nat}

/-- A scenario is started, and the worker stands at its admission. -/
theorem CampaignWorker.Turns.start (hattends : w.Attends exec) (hphase : w.phase = .starting stage)
    (hcontinues : exec.Continues exec')
    (hstarted : ∃ x : Worker, exec'.workers[handle]? = some x ∧ x.record.run_id = stage.run_id) :
    w.Turns { w with phase := .admitting stage handle } exec exec' where
  continues := hcontinues
  cancelled := rfl
  attends := by
    refine ⟨by rw [hattends.current, hphase]; rfl, fun stage' handle' h => ?_⟩
    obtain ⟨rfl, rfl⟩ := Prod.mk.inj (Option.some.inj h)
    obtain ⟨x, hx, hid⟩ := hstarted
    exact ⟨x, hx, hid, fun hne => absurd rfl hne⟩
  halting _ stage handle x h := by cases h
  leaves stage handle h := by
    rw [hphase] at h
    cases h
  entered _ := rfl
  active _ _ := ⟨by rw [hphase]; rfl, rfl, rfl⟩

/-- The scenario has ended, and the worker leaves its stage. -/
theorem CampaignWorker.Turns.depart (hphase : w.phase.scenario = some (stage, handle))
    (hactive : w.phase.is_active = true)
    (hx : exec.workers[handle]? = some x) (hended : x.phase.ended = true)
    (hcancelled : w'.control.cancelled = w.control.cancelled)
    (hcurrent : w'.control.current = none) {outcome : Bool} (hphase' : w'.phase = .reading stage outcome)
    (hrun : w'.run = w.run) : w.Turns w' exec exec where
  continues := .refl exec
  cancelled := hcancelled
  attends := .of_none hcurrent (by rw [hphase']; rfl)
  halting _ stage handle x h := by
    rw [hphase'] at h
    cases h
  leaves stage' handle' h := by
    obtain ⟨rfl, rfl⟩ := Prod.mk.inj (Option.some.inj (hphase.symm.trans h))
    exact Or.inr ⟨x, hx, hended⟩
  entered _ := by rw [hphase']; rfl
  active _ _ := ⟨hactive, by rw [hrun], by rw [hrun]⟩

/-- The worker goes on at its stage, with the scenario in the map of runs. -/
theorem CampaignWorker.Turns.stay (hphase : w.phase.scenario = some (stage, handle))
    (hactive : w.phase.is_active = true)
    (hcontinues : exec.Continues exec') (hy : exec'.workers[handle]? = some y) (hid : y.record.run_id = stage.run_id)
    (hentered : y.Entered) (hcancelled : w'.control.cancelled = w.control.cancelled)
    (hcurrent : w'.control.current = some stage.run_id)
    (hphase' : w'.phase = .cancelling stage handle ∨
      (w'.phase = .awaiting stage handle ∧ (w.control.cancelled = true → y.Halting)))
    (hrun : w'.run = w.run) : w.Turns w' exec exec' := by
  have hscenario : w'.phase.scenario = some (stage, handle) := by
    obtain h | ⟨h, -⟩ := hphase' <;> rw [h] <;> rfl
  refine {
    continues := hcontinues
    cancelled := hcancelled
    attends := ⟨?_, fun stage' handle' h => ?_⟩
    halting := fun hset stage' handle' z h hz => ?_
    leaves := fun stage' handle' h => Or.inl ⟨hscenario.trans (hphase.symm.trans h), by rw [hrun]⟩
    entered := fun _ => ?_
    active := fun _ _ => ⟨hactive, by rw [hrun], by rw [hrun]⟩ }
  · rw [hcurrent]
    obtain h | ⟨h, -⟩ := hphase' <;> rw [h] <;> rfl
  · obtain ⟨rfl, rfl⟩ := Prod.mk.inj (Option.some.inj (hscenario.symm.trans h))
    exact ⟨y, hy, hid, fun _ => hentered⟩
  · obtain hcancelling | ⟨hawaiting, hhalting⟩ := hphase'
    · cases hcancelling.symm.trans h
    · obtain ⟨rfl, rfl⟩ := CampaignPhase.awaiting.inj (hawaiting.symm.trans h)
      obtain rfl := Option.some.inj (hy.symm.trans hz)
      exact hhalting hset
  · obtain h | ⟨h, -⟩ := hphase' <;> rw [h] <;> rfl

end

namespace CampaignState

/-- Every step of a worker is one such turn. -/
theorem Works.turns {s next : CampaignState} {label : CampaignLabel} (hworks : s.Works env index w label next)
    (hw : s.workers[index]? = some w)
    (hconsistent : Consistent s.campaign_runs.value s.workers s.controls s.issued) (hmapped : s.exec.Mapped)
    (hattends : w.Attends s.exec) :
    ∃ w', next.workers = s.workers.set index w' ∧ w.Turns w' s.exec next.exec := by
  cases hworks with
  | turn_away hphase hheld => exact ⟨_, rfl, .onward hattends hphase rfl rfl (Or.inr rfl) rfl⟩
  | register hphase hfree =>
    refine ⟨_, rfl, .of_none hattends rfl (by rw [hphase]; rfl) rfl (fun h => ?_) fun _ h => by cases h⟩
    rw [hphase] at h
    cases h
  | admitted now disk run next hphase hadmission hdisk =>
    refine ⟨_, rfl, .of_none hattends rfl (by rw [hphase]; rfl) rfl (fun _ => rfl) fun h => ?_⟩
    rw [hphase] at h
    cases h
  | reject now disk e next hphase hadmission hdisk => exact ⟨_, rfl, .onward hattends hphase rfl rfl (Or.inr rfl) rfl⟩
  | unadmitted now disk hphase hdisk => exact ⟨_, rfl, .onward hattends hphase rfl rfl (Or.inr rfl) rfl⟩
  | complete n hphase hdone => exact ⟨_, rfl, .onward hattends hphase rfl rfl (Or.inl rfl) rfl⟩
  | stop n hphase hcancelled => exact ⟨_, rfl, .onward hattends hphase rfl rfl (Or.inl rfl) rfl⟩
  | intend n step hphase hstep hgoing hfresh => exact ⟨_, rfl, .onward hattends hphase rfl rfl (Or.inl rfl) rfl⟩
  | save now disk change phase run next hsaves hupdate =>
    obtain ⟨hisactive, hkeeps⟩ := hsaves.facts
    obtain ⟨hget, -⟩ := hconsistent.active index w hw hisactive
    obtain ⟨rfl, -, hid⟩ := hconsistent.update (hkeeps w.run).1 hget hupdate
    have hnone := hsaves.no_scenario { change w.run with updated_utc := now }
    exact ⟨_, rfl, .of_none hattends rfl hnone.1 hnone.2 (fun _ => (hkeeps _).2)
      fun _ _ => ⟨hisactive, hid, Saves.steps hsaves w.run⟩⟩
  | unsaved now disk change phase hsaves =>
    exact ⟨_, rfl, .onward hattends rfl (hsaves.no_scenario w.run).1 rfl (Or.inr rfl) rfl⟩
  | withdraw stage hphase hcancelled => exact ⟨_, rfl, .onward hattends hphase rfl rfl (Or.inl rfl) rfl⟩
  | recheck stage hphase hgoing => exact ⟨_, rfl, .onward hattends hphase rfl rfl (Or.inl rfl) rfl⟩
  | start stage entry selected now exec hphase hentry hexec =>
    obtain ⟨-, hstarted⟩ := ExecutionState.step_start hexec
    have hcontinues := (ExecutionState.step_moves hexec).continues hstarted.live
    exact ⟨_, rfl, .start hattends hphase hcontinues hstarted.worker⟩
  | refuse stage hphase => exact ⟨_, rfl, .onward hattends hphase rfl rfl (Or.inl rfl) rfl⟩
  | refused stage handle x hphase hx hrefused =>
    have hcurrent : w.control.current = none := by rw [hattends.current, hphase]; rfl
    exact ⟨_, rfl, .depart (by rw [hphase]; rfl) (by rw [hphase]; rfl) hx (by rw [hrefused]; rfl) rfl hcurrent rfl rfl⟩
  | enter stage handle x hphase hx hentered =>
    obtain ⟨y, hy, hid, -⟩ := hattends.scenario stage handle (by rw [hphase]; rfl)
    obtain rfl := Option.some.inj (hx.symm.trans hy)
    refine ⟨_, rfl, .stay (by rw [hphase]; rfl) (by rw [hphase]; rfl) (.refl s.exec) hx hid
      (Phase.runs_of_entered hentered)
      rfl rfl ?_ rfl⟩
    cases hcancelled : w.control.cancelled with
    | true => exact Or.inl rfl
    | false => exact Or.inr ⟨rfl, fun h => by cases h⟩
  | cancel_stage stage handle exec hphase hexec =>
    obtain rfl := ExecutionState.step_cancel_scenario hexec
    have hcontinues := s.exec.cancel_scenario_continues stage.run_id
    obtain ⟨x, hx, hid, hentered⟩ := hattends.scenario stage handle (by rw [hphase]; rfl)
    have hruns := hentered (by rw [hphase]; simp)
    obtain ⟨y, hy, hfollows, hkept⟩ := hcontinues handle x hx
    have hhalting : y.Halting := hmapped.cancel_scenario hx hruns (by rw [hid]; exact hy)
    have hcurrent : w.control.current = some stage.run_id := by rw [hattends.current, hphase]; rfl
    exact ⟨_, rfl, .stay (by rw [hphase]; rfl) (by rw [hphase]; rfl) hcontinues hy (hfollows.record ▸ hid) (hkept hruns)
      rfl hcurrent (Or.inr ⟨rfl, fun _ => hhalting⟩) rfl⟩
  | finish stage handle x hphase hx hended =>
    exact ⟨_, rfl, .depart (by rw [hphase]; rfl) (by rw [hphase]; rfl) hx hended rfl rfl rfl rfl⟩
  | read stage outcome hphase => exact ⟨_, rfl, .onward hattends hphase rfl rfl (Or.inl rfl) rfl⟩
  | judge result outcome hphase => exact ⟨_, rfl, .onward hattends hphase rfl rfl (Or.inl rfl) rfl⟩
  | close hphase => exact ⟨_, rfl, .onward hattends hphase rfl rfl (Or.inr rfl) rfl⟩

/-- What every step of the campaigns keeps of the cancellations under way. -/
structure Watched (s : CampaignState) : Prop where
  attends : ∀ (i : Nat) (w : CampaignWorker), s.workers[i]? = some w → w.Attends s.exec
  reached : ∀ r ∈ s.requests, ∀ i ∈ r.found, ∃ w : CampaignWorker, s.workers[i]? = some w ∧ w.Reached s.exec r i
  swept : ∀ r ∈ s.requests, ∀ i ∈ r.active, ∃ w : CampaignWorker, s.workers[i]? = some w ∧ w.Swept s.catalog r i

section

variable {s next : CampaignState} {label : CampaignLabel}

theorem set_cases {workers : List CampaignWorker} {i : Nat} {u : CampaignWorker} (v : CampaignWorker)
    (hw : workers[index]? = some w) (hu : workers[i]? = some u) :
    (i = index ∧ u = w ∧ (workers.set index v)[i]? = some v) ∨ (workers.set index v)[i]? = some u := by
  by_cases hi : i = index
  · subst hi
    obtain ⟨hlt, -⟩ := List.getElem?_eq_some_iff.mp hw
    exact Or.inl ⟨rfl, Option.some.inj (hu.symm.trans hw), List.getElem?_set_self hlt⟩
  · exact Or.inr ((List.getElem?_set_ne (Ne.symm hi)).trans hu)

theorem authorized_of_steps {catalog : Catalog} {run saved : CampaignRun} (role : Role)
    (hsteps : saved.steps = run.steps) :
    authorized catalog saved role = authorized catalog run role := by
  unfold authorized authorize
  rw [hsteps]

/-- One worker goes on, and what it shares with the cancellations stays. -/
theorem Watched.turn (h : s.Watched) (hw : s.workers[index]? = some w) (hturns : w.Turns w' s.exec next.exec)
    (hworkers : next.workers = s.workers.set index w') (hrequests : next.requests = s.requests)
    (hcatalog : next.catalog = s.catalog) : next.Watched where
  attends i u hu := by
    rw [hworkers] at hu
    obtain ⟨-, rfl⟩ | ⟨-, hu⟩ := get_set_cases hu
    · exact hturns.attends
    · exact (h.attends i u hu).follows hturns.continues
  reached r hr i hi := by
    rw [hrequests] at hr
    obtain ⟨u, hu, hreached⟩ := h.reached r hr i hi
    rw [hworkers]
    obtain ⟨rfl, rfl, hu'⟩ | hu' := set_cases w' hw hu
    · exact ⟨w', hu', hturns.cancelled.trans hreached.cancelled,
        fun stage handle x hphase hx => Or.inl (hturns.halting hreached.cancelled stage handle x hphase hx)⟩
    · exact ⟨u, hu', hreached.follows (h.attends i u hu) hturns.continues⟩
  swept r hr i hi := by
    rw [hrequests] at hr
    obtain ⟨u, hu, hswept⟩ := h.swept r hr i hi
    rw [hworkers, hcatalog]
    obtain ⟨rfl, rfl, hu'⟩ | hu' := set_cases w' hw hu
    · refine ⟨w', hu', hturns.entered hswept.entered, fun hactive hauthorized => ?_⟩
      obtain ⟨hbefore, hid, hsteps⟩ := hturns.active hswept.entered hactive
      rw [hid]
      exact hswept.heads hbefore (authorized_of_steps r.role hsteps ▸ hauthorized)
    · exact ⟨u, hu', hswept⟩

/-- One request goes on, and the workers stay where they are. -/
theorem Watched.request (h : s.Watched) (hr : s.requests[index]? = some r) (hcontinues : s.exec.Continues exec)
    {queue : List String} {phase : CancelPhase}
    (hreached : ∀ (i : Nat) (w : CampaignWorker), s.workers[i]? = some w → w.Reached s.exec r i →
      w.Reached exec { r with queue := queue, phase := phase } i)
    (hheads : ∀ (i : Nat) (w : CampaignWorker), s.workers[i]? = some w → w.phase.is_active = true →
      authorized s.catalog w.run r.role = true → r.Heads w.run.id i →
        CancelRequest.Heads { r with queue := queue, phase := phase } w.run.id i) :
    Watched { s.set_request index { r with queue := queue, phase := phase } with exec := exec } where
  attends i w hw := (h.attends i w hw).follows hcontinues
  reached r' hr' i hi := by
    obtain hr' | rfl := List.mem_or_eq_of_mem_set hr'
    · obtain ⟨w, hw, hkept⟩ := h.reached r' hr' i hi
      exact ⟨w, hw, hkept.follows (h.attends i w hw) hcontinues⟩
    · obtain ⟨w, hw, hbefore⟩ := h.reached r (List.mem_of_getElem? hr) i hi
      exact ⟨w, hw, hreached i w hw hbefore⟩
  swept r' hr' i hi := by
    obtain hr' | rfl := List.mem_or_eq_of_mem_set hr'
    · exact h.swept r' hr' i hi
    · obtain ⟨w, hw, hbefore⟩ := h.swept r (List.mem_of_getElem? hr) i hi
      exact ⟨w, hw, hbefore.entered, fun hactive hauthorized =>
        (hbefore.heads hactive hauthorized).imp_right (hheads i w hw hactive hauthorized)⟩

/-- A request that holds no scenario run to cancel goes on. -/
theorem Watched.advance (h : s.Watched) (hr : s.requests[index]? = some r) (hcontinues : s.exec.Continues exec)
    (hidle : ∀ worker run_id, r.phase ≠ .stopping worker run_id) {queue : List String} {phase : CancelPhase}
    (hheads : ∀ (i : Nat) (w : CampaignWorker), s.workers[i]? = some w → w.phase.is_active = true →
      authorized s.catalog w.run r.role = true → r.Heads w.run.id i →
        CancelRequest.Heads { r with queue := queue, phase := phase } w.run.id i) :
    Watched { s.set_request index { r with queue := queue, phase := phase } with exec := exec } := by
  refine h.request hr hcontinues (fun i w hw hreached => ?_) hheads
  have hkept := hreached.follows (h.attends i w hw) hcontinues
  refine ⟨hkept.cancelled, fun stage handle x hphase hx => ?_⟩
  obtain hhalting | hstopping := hkept.halting stage handle x hphase hx
  · exact Or.inl hhalting
  · exact absurd hstopping (hidle i stage.run_id)

/-- A worker that a request looks for is in the map of controls. -/
theorem Orderly.control (h : s.Orderly) {i : Nat} (hw : s.workers[i]? = some w) (hactive : w.phase.is_active = true) :
    KeyedList.find Prod.fst w.run.id s.controls = some (w.run.id, i) :=
  h.consistent.unique.find_of_mem (h.consistent.held i w hw (CampaignPhase.holds_of_active hactive))

/-- The flag of a worker is set under its lock, and what its control holds is cancelled next. -/
theorem Watched.flag (h : s.Watched) (hr : s.requests[index]? = some r) {worker : Nat}
    (hphase : r.phase = .flagging worker)
    (hw : s.workers[worker]? = some w) :
    Watched ((s.set_worker worker { w with control := { w.control with cancelled := true } }).set_request index
      { r with phase := .after worker w.control.current, found := worker :: r.found }) where
  attends i u hu := by
    obtain ⟨rfl, rfl⟩ | ⟨-, hu⟩ := get_set_cases hu
    · exact ⟨(h.attends i w hw).current, (h.attends i w hw).scenario⟩
    · exact h.attends i u hu
  reached r' hr' i hi := by
    have hkept {r' : CancelRequest} {u : CampaignWorker} (hu : s.workers[i]? = some u)
        (hreached : u.Reached s.exec r' i) :
        ∃ u' : CampaignWorker, (s.workers.set worker { w with control := { w.control with cancelled := true } })[i]? =
          some u' ∧ u'.Reached s.exec r' i := by
      obtain ⟨rfl, rfl, hu'⟩ | hu' := set_cases { w with control := { w.control with cancelled := true } } hw hu
      · exact ⟨_, hu', rfl, hreached.halting⟩
      · exact ⟨u, hu', hreached⟩
    obtain hr' | rfl := List.mem_or_eq_of_mem_set hr'
    · obtain ⟨u, hu, hreached⟩ := h.reached r' hr' i hi
      exact hkept hu hreached
    · obtain rfl | hi := List.mem_cons.mp hi
      · obtain ⟨hlt, -⟩ := List.getElem?_eq_some_iff.mp hw
        refine ⟨_, List.getElem?_set_self hlt, rfl, fun stage handle x hawaiting hx => Or.inr ?_⟩
        have hawaiting : w.phase = .awaiting stage handle := hawaiting
        have hcurrent : w.control.current = some stage.run_id :=
          (h.attends i w hw).current.trans (by rw [hawaiting]; rfl)
        dsimp only
        rw [hcurrent]
        rfl
      · obtain ⟨u, hu, hreached⟩ := h.reached r (List.mem_of_getElem? hr) i hi
        refine hkept hu ⟨hreached.cancelled, fun stage handle x hawaiting hx => ?_⟩
        obtain hhalting | hstopping := hreached.halting stage handle x hawaiting hx
        · exact Or.inl hhalting
        · cases hphase.symm.trans hstopping
  swept r' hr' i hi := by
    have hkept {r' : CancelRequest} {u : CampaignWorker} (hu : s.workers[i]? = some u)
        (hswept : u.Swept s.catalog r' i) :
        ∃ u' : CampaignWorker, (s.workers.set worker { w with control := { w.control with cancelled := true } })[i]? =
          some u' ∧ u'.Swept s.catalog r' i := by
      obtain ⟨rfl, rfl, hu'⟩ | hu' := set_cases { w with control := { w.control with cancelled := true } } hw hu
      · exact ⟨_, hu', hswept.entered, hswept.heads⟩
      · exact ⟨u, hu', hswept⟩
    obtain hr' | rfl := List.mem_or_eq_of_mem_set hr'
    · obtain ⟨u, hu, hswept⟩ := h.swept r' hr' i hi
      exact hkept hu hswept
    · obtain ⟨u, hu, hswept⟩ := h.swept r (List.mem_of_getElem? hr) i hi
      refine hkept hu ⟨hswept.entered, fun hactive hauthorized => ?_⟩
      obtain hfound | hheads := hswept.heads hactive hauthorized
      · exact Or.inl (List.mem_cons_of_mem worker hfound)
      · unfold CancelRequest.Heads at hheads
        rw [hphase] at hheads
        obtain rfl | hqueue := hheads
        · exact Or.inl List.mem_cons_self
        · refine Or.inr ?_
          unfold CancelRequest.Heads CancelPhase.after
          cases w.control.current <;> exact hqueue

/-- Every step of a cancellation keeps the watch. -/
theorem Watched.cancels (h : s.Watched) (horderly : s.Orderly) (hmapped : s.exec.Mapped)
    (hr : s.requests[index]? = some r) (hcancels : s.Cancels env index r next) : next.Watched := by
  cases hcancels with
  | abort request exec hphase hexec =>
    exact h.advance hr (ExecutionState.step_stop_pass hexec)
      (fun worker run_id hstopping => by cases hphase.symm.trans hstopping)
      fun i w hw hactive hauthorized hheads => trivial
  | collect hphase =>
    refine h.advance hr (.refl s.exec) (fun worker run_id hstopping => by cases hphase.symm.trans hstopping)
      fun i w hw hactive hauthorized hheads => ?_
    exact List.mem_map.mpr ⟨_, (KeyedList.find_some (horderly.control hw hactive)).1, rfl⟩
  | sweep id queue run hphase hqueue hrun hauthorized =>
    refine h.advance hr (.refl s.exec) (fun worker run_id hstopping => by cases hphase.symm.trans hstopping)
      fun i w hw hactive hauthorized hheads => ?_
    unfold CancelRequest.Heads at hheads
    rw [hphase, hqueue] at hheads
    exact List.mem_cons.mp hheads
  | skip id queue hphase hqueue hskip =>
    refine h.advance hr (.refl s.exec) (fun worker run_id hstopping => by cases hphase.symm.trans hstopping)
      fun i w hw hactive hauthorized hheads => ?_
    unfold CancelRequest.Heads at hheads
    rw [hphase, hqueue] at hheads
    obtain rfl | hheads := List.mem_cons.mp hheads
    · have hstored := (horderly.consistent.active i w hw hactive).1
      cases hauthorized.symm.trans (hskip w.run hstored)
    · exact hheads
  | miss id hphase hnone =>
    refine h.advance hr (.refl s.exec) (fun worker run_id hstopping => by cases hphase.symm.trans hstopping)
      fun i w hw hactive hauthorized hheads => ?_
    unfold CancelRequest.Heads at hheads
    rw [hphase] at hheads
    obtain rfl | hheads := hheads
    · cases hnone.symm.trans (horderly.control hw hactive)
    · exact hheads
  | find id entry hphase hentry =>
    refine h.advance hr (.refl s.exec) (fun worker run_id hstopping => by cases hphase.symm.trans hstopping)
      fun i w hw hactive hauthorized hheads => ?_
    unfold CancelRequest.Heads at hheads
    rw [hphase] at hheads
    obtain rfl | hheads := hheads
    · obtain rfl := Option.some.inj (hentry.symm.trans (horderly.control hw hactive))
      exact Or.inl rfl
    · exact Or.inr hheads
  | flag worker w hphase hw => exact h.flag hr hphase hw
  | cancel_scenario worker run_id exec hphase hexec =>
    obtain rfl := ExecutionState.step_cancel_scenario hexec
    have hcontinues := s.exec.cancel_scenario_continues run_id
    refine h.request hr hcontinues (fun i w hw hreached => ⟨hreached.cancelled, fun stage handle y hawaiting hy => ?_⟩)
      fun i w hw hactive hauthorized hheads => ?_
    · obtain ⟨x, hx, hid, hentered⟩ := (h.attends i w hw).scenario stage handle (by rw [hawaiting]; rfl)
      refine Or.inl ?_
      obtain hhalting | hstopping := hreached.halting stage handle x hawaiting hx
      · obtain ⟨z, hz, hfollows, -⟩ := hcontinues handle x hx
        obtain rfl := Option.some.inj (hy.symm.trans hz)
        exact hfollows.halting hhalting
      · obtain ⟨-, rfl⟩ := CancelPhase.stopping.inj (hphase.symm.trans hstopping)
        rw [← hid] at hy
        exact hmapped.cancel_scenario hx (hentered (by rw [hawaiting]; simp)) hy
    · unfold CancelRequest.Heads at hheads
      rw [hphase] at hheads
      exact hheads

theorem Watched.idle (hworkers : next.workers = []) (hrequests : next.requests = []) : next.Watched where
  attends i w hw := by
    rw [hworkers] at hw
    cases hw
  reached r hr := by
    rw [hrequests] at hr
    cases hr
  swept r hr := by
    rw [hrequests] at hr
    cases hr

/-- The executions go on by themselves. -/
theorem Watched.follows (h : s.Watched) (hcontinues : s.exec.Continues next.exec) (hworkers : next.workers = s.workers)
    (hrequests : next.requests = s.requests) (hcatalog : next.catalog = s.catalog) : next.Watched where
  attends i w hw := by
    rw [hworkers] at hw
    exact (h.attends i w hw).follows hcontinues
  reached r hr i hi := by
    rw [hrequests] at hr
    obtain ⟨w, hw, hreached⟩ := h.reached r hr i hi
    exact ⟨w, hworkers ▸ hw, hreached.follows (h.attends i w hw) hcontinues⟩
  swept r hr i hi := by
    rw [hrequests] at hr
    rw [hworkers, hcatalog]
    exact h.swept r hr i hi

/-- A request starts a worker. -/
theorem Watched.spawn (h : s.Watched) (hphase : w.phase = .launched) (hcontrol : w.control = .default)
    (hexec : next.exec = s.exec) (hworkers : next.workers = s.workers ++ [w]) (hrequests : next.requests = s.requests)
    (hcatalog : next.catalog = s.catalog) : next.Watched where
  attends i u hu := by
    rw [hworkers] at hu
    rw [hexec]
    obtain hu | ⟨-, rfl⟩ := launched_cases hu
    · exact h.attends i u hu
    · exact .of_none (by rw [hcontrol]; rfl) (by rw [hphase]; rfl)
  reached r hr i hi := by
    rw [hrequests] at hr
    obtain ⟨u, hu, hreached⟩ := h.reached r hr i hi
    obtain ⟨hlt, -⟩ := List.getElem?_eq_some_iff.mp hu
    rw [hworkers, hexec]
    exact ⟨u, (List.getElem?_append_left hlt).trans hu, hreached⟩
  swept r hr i hi := by
    rw [hrequests] at hr
    obtain ⟨u, hu, hswept⟩ := h.swept r hr i hi
    obtain ⟨hlt, -⟩ := List.getElem?_eq_some_iff.mp hu
    rw [hworkers, hcatalog]
    exact ⟨u, (List.getElem?_append_left hlt).trans hu, hswept⟩

theorem mem_active {i : Nat} (h : i ∈ s.active) : ∃ w : CampaignWorker, s.workers[i]? = some w ∧
    w.phase.is_active = true := by
  obtain ⟨-, hany⟩ := List.mem_filter.mp h
  exact (Option.any_eq_true _ _).mp hany

/-- A cancellation begins. -/
theorem Watched.begin (h : s.Watched) (hcontinues : s.exec.Continues exec) (hnone : r.found = [])
    (hactive : ∀ i ∈ r.active, ∃ w : CampaignWorker, s.workers[i]? = some w ∧ w.phase.is_active = true)
    (hheads : ∀ i ∈ r.active, ∀ id, r.Heads id i) :
    Watched { s with exec := exec, requests := s.requests ++ [r] } where
  attends i w hw := (h.attends i w hw).follows hcontinues
  reached r' hr' i hi := by
    obtain hr' | hr' := List.mem_append.mp hr'
    · obtain ⟨w, hw, hreached⟩ := h.reached r' hr' i hi
      exact ⟨w, hw, hreached.follows (h.attends i w hw) hcontinues⟩
    · obtain rfl := List.mem_singleton.mp hr'
      rw [hnone] at hi
      cases hi
  swept r' hr' i hi := by
    obtain hr' | hr' := List.mem_append.mp hr'
    · exact h.swept r' hr' i hi
    · obtain rfl := List.mem_singleton.mp hr'
      obtain ⟨w, hw, hwactive⟩ := hactive i hi
      exact ⟨w, hw, CampaignPhase.not_pending_of_active hwactive, fun _ _ => Or.inr (hheads i hi w.run.id)⟩

/-- Every step keeps the watch. -/
theorem Watched.moves (h : s.Watched) (horderly : s.Orderly) (hmapped : s.exec.Mapped)
    (hmoves : s.Moves env label next) : next.Watched := by
  cases hmoves with
  | start id entry role selected now exec hready hfresh hexec =>
    obtain ⟨-, hstarted⟩ := ExecutionState.step_start hexec
    exact h.follows ((ExecutionState.step_moves hexec).continues hstarted.live) rfl rfl rfl
  | exec label exec hother hexec hlive =>
    exact h.follows ((ExecutionState.step_moves hexec).continues fun hcrash =>
      hlive (congrArg ExecutionState.process hcrash)) rfl rfl rfl
  | crash | abandon => exact .idle rfl rfl
  | startup catalog run_namespace now disk hserving hready hvalid =>
    obtain ⟨hworkers, -⟩ := horderly.idle hready
    refine ⟨h.attends, h.reached, fun r hr i hi => ?_⟩
    obtain ⟨w, hw, -⟩ := h.swept r hr i hi
    rw [hworkers] at hw
    cases hw
  | register_campaign | delete_campaign | unregistered | undeleted => exact ⟨h.attends, h.reached, h.swept⟩
  | launch role id campaign target_override timeout_sec n now run hready hcampaign hrun hfresh hauthorized =>
    exact h.spawn rfl rfl rfl rfl rfl rfl
  | resume role id run hready hrun hauthorized => exact h.spawn rfl rfl rfl rfl rfl rfl
  | cancel_campaign_run role id hready =>
    exact h.begin (.refl s.exec) rfl (fun i hi => by cases hi) fun i hi => by cases hi
  | abort_all role exec hready hexec =>
    exact h.begin (ExecutionState.step_begin_abort hexec) rfl (fun i hi => mem_active hi) fun _ _ _ => trivial
  | cancel request r next hready hrequest hcancels => exact h.cancels horderly hmapped hrequest hcancels
  | work index w label next hready hw hworks =>
    obtain ⟨w', hworkers, hturns⟩ := hworks.turns hw horderly.consistent hmapped (h.attends index w hw)
    obtain ⟨-, -, -, hcatalog, -, hrequests⟩ := hworks.frame
    exact h.turn hw hturns hworkers hrequests hcatalog

end

end CampaignState

end

end asmodeus.control_plane
