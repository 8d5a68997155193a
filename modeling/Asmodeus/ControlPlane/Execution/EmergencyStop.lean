import Asmodeus.ControlPlane.Execution.Facts
import Asmodeus.ControlPlane.Execution.RunMap
import Asmodeus.ControlPlane.Execution.Workers

open asmodeus.common asmodeus.telemetry

namespace asmodeus.control_plane

/-- The request is about the run of the worker, in a category its caller may
launch. -/
def StopRequest.Covers (stop : StopRequest) (w : Worker) : Prop :=
  stop.role.can w.category.required_capability = true ∧
    ∀ run_id, stop.target = some run_id → w.record.run_id = run_id

/-- Every run that was admitted before a stop request started, that the request
covers and that has not finished, carries the cancel flag once the request has
returned. -/
def ExecutionState.NoneMissed (s : ExecutionState) : Prop :=
  ∀ stop ∈ s.stops, stop.returned = true → ∀ handle ∈ stop.admitted, ∀ w : Worker,
    s.workers[handle]? = some w → w.phase.unfinished = true → stop.Covers w → w.cancel = true

/-- The worker of every run a stop request has to reach is still there. -/
def ExecutionState.StopsKnown (s : ExecutionState) : Prop :=
  ∀ stop ∈ s.stops, ∀ handle ∈ stop.admitted,
    ∃ w : Worker, s.workers[handle]? = some w ∧ w.phase.admitted = true

/-- No run the request has to reach is between its audit append and its entry
into the map of runs when the request looks there. -/
def ExecutionState.StopCondition (s : ExecutionState) (label : ExecutionLabel) (_ : ExecutionState) : Prop :=
  match label with
  | .stop_pass request => ∀ stop, s.stops[request]? = some stop → ∀ handle ∈ stop.admitted, ∀ w : Worker,
      s.workers[handle]? = some w → stop.Covers w → w.phase ≠ .appended
  | _ => True

section

variable {env : Env} {s next : ExecutionState} {label : ExecutionLabel}

theorem Phase.mapped_of_unfinished {phase : Phase} (h : phase.unfinished = true) (hne : phase ≠ .appended) :
    phase.mapped = true := by
  cases phase with
  | appended => exact absurd rfl hne
  | running | settled | unsaved => rfl
  | admitting | refused | committed | finished => cases h

theorem StopRequest.Covers.of_follows {stop : StopRequest} {w w' : Worker} (hcovers : stop.Covers w')
    (hfollows : w.Follows w') : stop.Covers w := by
  obtain ⟨hrole, htarget⟩ := hcovers
  rw [hfollows.category] at hrole
  rw [hfollows.record] at htarget
  exact ⟨hrole, htarget⟩

/-- What holds of the stop requests in every run that meets the condition. -/
structure ExecutionState.Stoppable (s : ExecutionState) : Prop where
  sound : s.Sound
  mapped : s.Mapped
  known : s.StopsKnown
  none_missed : s.NoneMissed

/-- The requests of a step were there before it, or one starts with it and finds
all the runs it has to reach unfinished. -/
structure ExecutionState.StopsFrom (s next : ExecutionState) : Prop where
  known : ∀ stop ∈ next.stops, ∀ handle ∈ stop.admitted, (∃ old ∈ s.stops, handle ∈ old.admitted) ∨
    handle ∈ s.unfinished
  returned : ∀ stop ∈ next.stops, stop.returned = true → stop ∈ s.stops ∨
    ∀ handle ∈ stop.admitted, ∀ w : Worker, s.workers[handle]? = some w → w.phase.unfinished = true →
      stop.Covers w → ∀ w' : Worker, next.workers[handle]? = some w' → w'.cancel = true

theorem ExecutionState.mem_unfinished {handle : Nat} (h : handle ∈ s.unfinished) :
    ∃ w : Worker, s.workers[handle]? = some w ∧ w.phase.unfinished = true := by
  obtain ⟨-, hany⟩ := List.mem_filter.mp h
  exact (Option.any_eq_true _ _).mp hany

theorem ExecutionState.StopsFrom.of_same (hstops : next.stops = s.stops) : s.StopsFrom next where
  known := fun stop hstop _ hhandle => Or.inl ⟨stop, hstops ▸ hstop, hhandle⟩
  returned := fun _ hstop _ => Or.inl (hstops ▸ hstop)

/-- A request that starts misses nothing: either it has not returned, or the run
it asks about has a terminal record. -/
theorem ExecutionState.StopsFrom.begin (hsound : s.Sound) {role : Role} {target : Option String} {returned : Bool}
    (hterminal : returned = true → ∃ run_id record, target = some run_id ∧
      s.audit.get run_id = some record ∧ record.is_terminal = true) :
    s.StopsFrom { s with stops := s.stops ++ [⟨role, target, s.unfinished, returned⟩] } := by
  constructor
  · intro stop hstop handle hhandle
    rcases List.mem_append.mp hstop with hstop | hstop
    · exact Or.inl ⟨stop, hstop, hhandle⟩
    · rw [List.mem_singleton] at hstop
      subst hstop
      exact Or.inr hhandle
  · intro stop hstop hreturned
    rcases List.mem_append.mp hstop with hstop | hstop
    · exact Or.inl hstop
    · rw [List.mem_singleton] at hstop
      subst hstop
      refine Or.inr fun handle _ w hw hunfinished hcovers => ?_
      -- the latest revision of an unfinished run is its queued record
      obtain ⟨run_id, record, htarget, hrecord, hend⟩ := hterminal hreturned
      have hdurable := hsound.durable handle w hw hunfinished
      rw [hcovers.2 run_id htarget, hrecord, Option.some.injEq] at hdurable
      rw [hdurable, (hsound.fresh handle w hw).open_record] at hend
      cases hend

/-- The look into the map finds every covered run that has entered it. -/
theorem ExecutionState.Mapped.flags (hmapped : s.Mapped) {stop : StopRequest} {handle : Nat} {w : Worker}
    (hw : s.workers[handle]? = some w) (hphase : w.phase.mapped = true) (hcovers : stop.Covers w) :
    s.flags stop handle w = true := by
  have hfind := hmapped.find hw hphase
  unfold ExecutionState.flags
  split
  · rename_i run_id htarget
    rw [← hcovers.2 run_id htarget, hfind, Option.any_some, beq_self_eq_true]
  · rw [Bool.and_eq_true, List.any_eq_true]
    exact ⟨⟨_, (KeyedList.find_some hfind).1, beq_self_eq_true handle⟩, hcovers.1⟩

theorem ExecutionState.StopsFrom.stop_pass (hmapped : s.Mapped) {request : Nat} {stop : StopRequest}
    (hstop : s.stops[request]? = some stop)
    (hcondition : ∀ handle ∈ stop.admitted, ∀ w : Worker, s.workers[handle]? = some w → stop.Covers w →
      w.phase ≠ .appended) :
    s.StopsFrom { s.stopped stop with stops := s.stops.set request { stop with returned := true } } := by
  have hmem : stop ∈ s.stops := List.mem_of_getElem? hstop
  constructor
  · intro x hx handle hhandle
    rcases List.mem_or_eq_of_mem_set hx with hx | rfl
    · exact Or.inl ⟨x, hx, hhandle⟩
    · exact Or.inl ⟨stop, hmem, hhandle⟩
  · intro x hx hreturned
    rcases List.mem_or_eq_of_mem_set hx with hx | rfl
    · exact Or.inl hx
    · refine Or.inr fun handle hhandle w hw hunfinished hcovers w' hw' => ?_
      have hphase := Phase.mapped_of_unfinished hunfinished (hcondition handle hhandle w hw hcovers)
      have hflags : s.flags stop handle w = true := hmapped.flags hw hphase hcovers
      change (s.stopped stop).workers[handle]? = some w' at hw'
      rw [stopped_worker, hw, Option.map_some, if_pos hflags, Option.some.injEq] at hw'
      exact hw' ▸ rfl

/-- Every step that meets the condition comes with requests it does not let
miss a run. -/
theorem ExecutionState.Moves.stops_from (hmoves : s.Moves env label next) (hsound : s.Sound) (hmapped : s.Mapped)
    (hcondition : s.StopCondition label next) : s.StopsFrom next := by
  cases hmoves with
  | crash => exact ⟨fun _ h => (by cases h), fun _ h => (by cases h)⟩
  | begin_cancel role run_id record category hserving hrecord hcategory hrole =>
    exact .begin hsound fun hterminal => ⟨run_id, record, rfl, hrecord, hterminal⟩
  | begin_abort role hserving => exact .begin hsound fun h => by cases h
  | stop_pass request stop hserving hstop hpending => exact .stop_pass hmapped hstop (hcondition stop hstop)
  | cancel_scenario run_id hserving => exact .of_same (by rw [cancel_scenario_frame])
  | restart | serve | recover | start | refuse | append | insert | settle | unsave | vanish | commit | remove
    | check_feedback | drop_feedback | commit_feedback => exact .of_same rfl

/-- The step lemma of the stop requests. -/
theorem ExecutionState.Stoppable.moves (hstoppable : s.Stoppable) (hcondition : s.StopCondition label next)
    (hmoves : s.Moves env label next) : next.Stoppable := by
  obtain ⟨hsound, hmapped, hknown, hnone⟩ := hstoppable
  have hfrom := hmoves.stops_from hsound hmapped hcondition
  by_cases hlive : next = s.crash
  · refine ⟨hsound.moves hmoves, hmapped.moves hsound hmoves, ?_, ?_⟩
    · rw [hlive]
      exact fun _ h => by cases h
    · rw [hlive]
      exact fun _ h => by cases h
  have hfollows := hmoves.follows hlive
  have hadmitted : ∀ stop ∈ next.stops, ∀ handle ∈ stop.admitted,
      ∃ w : Worker, s.workers[handle]? = some w ∧ w.phase.admitted = true := by
    intro stop hstop handle hhandle
    rcases hfrom.known stop hstop handle hhandle with ⟨old, hold, hmem⟩ | hunfinished
    · exact hknown old hold handle hmem
    · obtain ⟨w, hw, hphase⟩ := mem_unfinished hunfinished
      exact ⟨w, hw, Phase.admitted_of_unfinished hphase⟩
  refine ⟨hsound.moves hmoves, hmapped.moves hsound hmoves, ?_, ?_⟩
  · intro stop hstop handle hhandle
    obtain ⟨w, hw, hphase⟩ := hadmitted stop hstop handle hhandle
    obtain ⟨w', hw', hfollow⟩ := hfollows handle w hw
    exact ⟨w', hw', hfollow.admitted hphase⟩
  · intro stop hstop hreturned handle hhandle w' hw' hunfinished hcovers
    obtain ⟨w, hw, hphase⟩ := hadmitted stop hstop handle hhandle
    obtain ⟨y, hy, hfollow⟩ := hfollows handle w hw
    obtain rfl : y = w' := Option.some.inj (hy.symm.trans hw')
    have hbefore : w.phase.unfinished = true := by
      rcases hfollow.unfinished hunfinished with h | h
      · exact h
      · rw [h] at hphase
        cases hphase
    rcases hfrom.returned stop hstop hreturned with hold | hreached
    · exact hfollow.cancel (hnone stop hold hreturned handle hhandle w hw hbefore (hcovers.of_follows hfollow))
    · exact hreached handle hhandle w hw hbefore (hcovers.of_follows hfollow) y hw'

/-- Before the first worker and the first request there is nothing to stop. -/
theorem ExecutionState.Stoppable.of_unstarted (hsound : s.Sound) (hworkers : s.workers = []) (hruns : s.runs = [])
    (hstops : s.stops = []) : s.Stoppable where
  sound := hsound
  mapped := ⟨by simp [hruns], by simp [hworkers]⟩
  known := by
    intro stop hstop
    rw [hstops] at hstop
    cases hstop
  none_missed := by
    intro stop hstop
    rw [hstops] at hstop
    cases hstop

theorem ExecutionState.initial_stoppable (persistent : Bool) : (initial persistent).Stoppable :=
  .of_unstarted (initial_sound persistent) rfl rfl rfl

theorem ExecutionState.Initial.stoppable (hinitial : Initial s) : s.Stoppable := by
  obtain ⟨persistent, rfl⟩ | ⟨revisions, rfl⟩ := hinitial
  · exact initial_stoppable persistent
  · exact .of_unstarted (inherited_sound revisions) rfl rfl rfl

/-- As long as no request looks into the map of runs while a run it has to reach
is on its way there, an emergency stop misses no durably admitted run. -/
theorem ExecutionState.stop_misses_none (env : Env) {start s : ExecutionState} {labels : List ExecutionLabel}
    (hstart : Initial start) (halways : Transition.Always (ExecutionState.step env) StopCondition start labels)
    (hrun : Transition.run (ExecutionState.step env) start labels = some s) : s.NoneMissed := by
  refine (halways.preserves ?_ hstart.stoppable hrun).none_missed
  intro s label next hstoppable hcondition hstep
  exact hstoppable.moves hcondition (step_moves hstep)

end

/-- A simulated run up to its execution. -/
def executing_run : List ExecutionLabel :=
  [.restart, .recover "2026-09-22T00:00:00Z" (.ok ()),
    .start "run-1" canary_entry .RedTeam none "2026-09-22T00:00:01Z", .append 0 (.ok ()), .insert 0,
    .begin_abort .RedTeam]

theorem aborted_run_flagged : ∃ s,
    Transition.run (ExecutionState.step blank_env) (.initial true) (executing_run ++ [.stop_pass 0]) = some s ∧
      s.NoneMissed ∧ s.workers.map Worker.cancel = [true] := by
  have hexecuting : Transition.run (ExecutionState.step blank_env) (.initial true) executing_run = some _ := rfl
  have hrun : Transition.run (ExecutionState.step blank_env) (.initial true) (executing_run ++ [.stop_pass 0]) =
    some _ := rfl
  refine ⟨_, hrun, ExecutionState.stop_misses_none blank_env (.inl ⟨true, rfl⟩) ?_ hrun, rfl⟩
  refine .extend hexecuting (Transition.always_of_forall ?_ _) fun next _ => ⟨?_, trivial⟩
  · simp [executing_run, ExecutionState.StopCondition]
  · intro stop hstop handle hhandle w hw _ hphase
    obtain rfl := Option.some.inj hstop
    obtain rfl : handle = 0 := List.mem_singleton.mp hhandle
    obtain rfl := Option.some.inj hw
    cases hphase

/-- A run that is aborted between its append and its entry into the map. -/
def missed_run : List ExecutionLabel :=
  [.restart, .recover "2026-09-22T00:00:00Z" (.ok ()),
    .start "run-1" canary_entry .RedTeam none "2026-09-22T00:00:01Z", .append 0 (.ok ()),
    .begin_abort .RedTeam, .stop_pass 0]

/-- The request returns and the flag of the run it was about is not set. -/
theorem missed_run_unflagged : ∃ s,
    Transition.run (ExecutionState.step blank_env) (.initial true) missed_run = some s ∧ ¬ s.NoneMissed := by
  have hrun : Transition.run (ExecutionState.step blank_env) (.initial true) missed_run = some _ := rfl
  refine ⟨_, hrun, fun hnone => ?_⟩
  have hcancel := hnone _ (List.mem_singleton.mpr rfl) rfl 0 (by decide) _ rfl rfl ⟨rfl, fun _ h => by cases h⟩
  cases hcancel

end asmodeus.control_plane
