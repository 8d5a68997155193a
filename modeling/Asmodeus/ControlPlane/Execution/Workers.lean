import Asmodeus.ControlPlane.Execution.Sound

open asmodeus.common asmodeus.telemetry

namespace asmodeus.control_plane

/-- What one step of an execution can do to a worker. -/
structure Worker.Follows (w w' : Worker) : Prop where
  record : w'.record = w.record
  category : w'.category = w.category
  cancel : w.cancel = true → w'.cancel = true
  admitted : w.phase.admitted = true → w'.phase.admitted = true
  unfinished : w'.phase.unfinished = true → w.phase.unfinished = true ∨ w.phase = .admitting
  ended : w.phase.ended = true → w'.phase = w.phase

/-- A started run is admitted by a new worker, and nothing else happens. -/
def ExecutionState.Started (s : ExecutionState) (id : String) (next : ExecutionState) : Prop :=
  ∃ w : Worker, next = { s with workers := s.workers ++ [w] } ∧ w.record.run_id = id

section

variable {env : Env} {s next : ExecutionState} {label : ExecutionLabel}

theorem Worker.Follows.refl (w : Worker) : w.Follows w := ⟨rfl, rfl, id, id, Or.inl, fun _ => rfl⟩

theorem Worker.follows_cancelled (w : Worker) : w.Follows w.cancelled :=
  ⟨rfl, rfl, fun _ => rfl, id, Or.inl, fun _ => rfl⟩

theorem ExecutionState.set_worker_follows {handle : Nat} {w w' : Worker} (hw : s.workers[handle]? = some w)
    (hfollows : w.Follows w') (j : Nat) (x : Worker) (hx : s.workers[j]? = some x) :
    ∃ y : Worker, (s.set_worker handle w').workers[j]? = some y ∧ x.Follows y := by
  obtain ⟨hlt, -⟩ := List.getElem?_eq_some_iff.mp hw
  by_cases hj : j = handle
  · subst hj
    rw [hw, Option.some.injEq] at hx
    exact ⟨w', by simp [ExecutionState.set_worker, hlt], hx ▸ hfollows⟩
  · refine ⟨x, ?_, .refl x⟩
    change (s.workers.set handle w')[j]? = some x
    rw [List.getElem?_set_ne (Ne.symm hj), hx]

theorem ExecutionState.stopped_follows (s : ExecutionState) (stop : StopRequest) (j : Nat) (x : Worker)
    (hx : s.workers[j]? = some x) :
    ∃ y : Worker, (s.stopped stop).workers[j]? = some y ∧ x.Follows y := by
  rw [stopped_worker, hx]
  refine ⟨_, rfl, ?_⟩
  beta_reduce
  split
  · exact x.follows_cancelled
  · exact .refl x

theorem Worker.follows_phase {w : Worker} {phase phase' : Phase} (settlement : Option Settlement)
    (recorded : Bool) (hphase : w.phase = phase) (hadmitted : phase.admitted = true → phase'.admitted = true)
    (hunfinished : phase'.unfinished = true → phase.unfinished = true ∨ phase = .admitting)
    (hended : phase.ended = false) :
    w.Follows { w with phase := phase', settlement := settlement, recorded := recorded } := by
  subst hphase
  refine ⟨rfl, rfl, id, hadmitted, hunfinished, fun h => ?_⟩
  rw [hended] at h
  cases h

/-- A step of a process that goes on leads every worker along its life. -/
theorem ExecutionState.Moves.follows (hmoves : s.Moves env label next) (hlive : next ≠ s.crash) (j : Nat) (x : Worker)
    (hx : s.workers[j]? = some x) : ∃ y : Worker, next.workers[j]? = some y ∧ x.Follows y := by
  cases hmoves with
  | crash => exact absurd rfl hlive
  | restart audit hdown hload => exact ⟨x, hx, .refl x⟩
  | serve hrecovered => exact ⟨x, hx, .refl x⟩
  | recover old record pending now hrecovering hsign => exact ⟨x, hx, .refl x⟩
  | start id entry role selected now record hserving hrole hsign =>
    obtain ⟨hlt, -⟩ := List.getElem?_eq_some_iff.mp hx
    exact ⟨x, (List.getElem?_append_left hlt).trans hx, .refl x⟩
  | refuse handle w hserving hw hphase =>
    exact set_worker_follows hw (Worker.follows_phase _ _ hphase (fun h => by cases h) (fun h => by cases h) rfl) j x hx
  | append handle w hserving hw hphase hnew =>
    exact set_worker_follows hw (Worker.follows_phase _ _ hphase (fun h => by cases h) (fun _ => Or.inr rfl) rfl) j x hx
  | insert handle w hserving hw hphase =>
    exact set_worker_follows hw (Worker.follows_phase _ _ hphase (fun _ => rfl) (fun _ => Or.inl rfl) rfl) j x hx
  | settle handle w settlement hserving hw hphase =>
    exact set_worker_follows hw (Worker.follows_phase _ _ hphase (fun _ => rfl) (fun _ => Or.inl rfl) rfl) j x hx
  | unsave handle w hserving hw hphase =>
    exact set_worker_follows hw (Worker.follows_phase _ _ hphase (fun _ => rfl) (fun _ => Or.inl rfl) rfl) j x hx
  | vanish handle w hserving hw hphase hgone =>
    exact set_worker_follows hw (Worker.follows_phase _ _ hphase (fun _ => rfl) (fun h => by cases h) rfl) j x hx
  | commit handle w settlement now old record hserving hw hphase hold hrevise hid hsettlement =>
    exact set_worker_follows hw (Worker.follows_phase _ _ hphase (fun _ => rfl) (fun h => by cases h) rfl) j x hx
  | remove handle w hserving hw hphase =>
    exact set_worker_follows hw (Worker.follows_phase _ _ hphase (fun _ => rfl) (fun h => by cases h) rfl) j x hx
  | check_feedback feedback old hserving hold hterminal => exact ⟨x, hx, .refl x⟩
  | drop_feedback request hserving => exact ⟨x, hx, .refl x⟩
  | commit_feedback request feedback now old record hserving hfeedback hold hrevise hid => exact ⟨x, hx, .refl x⟩
  | begin_cancel role run_id record category hserving hrecord hcategory hrole => exact ⟨x, hx, .refl x⟩
  | begin_abort role hserving => exact ⟨x, hx, .refl x⟩
  | stop_pass request stop hserving hstop hpending => exact stopped_follows s stop j x hx
  | cancel_scenario run_id hserving => exact stopped_follows s ⟨.Admin, some run_id, [], false⟩ j x hx

theorem ExecutionState.stopped_length (s : ExecutionState) (stop : StopRequest) :
    (s.stopped stop).workers.length = s.workers.length := by
  unfold ExecutionState.stopped
  split
  · unfold ExecutionState.cancel_scenario
    split
    · exact List.length_modify ..
    · rfl
  · exact List.length_mapIdx

/-- Only the start of a run adds a worker. -/
theorem ExecutionState.Moves.length (hmoves : s.Moves env label next) (hlive : next ≠ s.crash) :
    next.workers.length = s.workers.length ∨
      ∃ id entry role selected now record, label = .start id entry role selected now ∧
        (admission_record id entry role selected now).sign env.crypto env.key = .ok record ∧
        next.workers = s.workers ++
          [⟨record, entry.category, selected_mode selected, false, none, false, .admitting⟩] := by
  cases hmoves with
  | crash => exact absurd rfl hlive
  | start id entry role selected now record hserving hrole hsign =>
    exact Or.inr ⟨id, entry, role, selected, now, record, rfl, hsign, rfl⟩
  | refuse | append | insert | settle | unsave | vanish | commit | remove => exact Or.inl (List.length_set ..)
  | stop_pass request stop hserving hstop hpending => exact Or.inl (stopped_length s stop)
  | cancel_scenario run_id hserving => exact Or.inl (stopped_length s ⟨.Admin, some run_id, [], false⟩)
  | _ => exact Or.inl rfl

theorem ExecutionState.step_start {id : String} {entry : ScenarioEntry} {role : Role} {selected : Option String}
    {now : String} (h : s.step env (.start id entry role selected now) = some next) :
    s.is_serving = true ∧ s.Started id next := by
  unfold ExecutionState.step at h
  dsimp only at h
  split at h
  · rename_i hserving
    unfold ExecutionState.start at h
    split at h
    · split at h
      · cases h
      · rename_i record hsign
        exact ⟨hserving, _, (Option.some.inj h).symm, (admission_record_spec hsign).1⟩
    · cases h
  · cases h

theorem ExecutionState.Started.worker {id : String} (hstarted : s.Started id next) :
    ∃ w : Worker, next.workers[s.workers.length]? = some w ∧ w.record.run_id = id := by
  obtain ⟨w, rfl, hid⟩ := hstarted
  exact ⟨w, List.getElem?_concat_length .., hid⟩

theorem ExecutionState.Started.live {id : String} (hstarted : s.Started id next) : next ≠ s.crash := by
  obtain ⟨w, rfl, -⟩ := hstarted
  intro hcrash
  have hworkers := congrArg (fun t => t.workers.length) hcrash
  rw [ExecutionState.crash, List.length_append] at hworkers
  cases hworkers

/-- The workers of a step are those before it, further along, or the one it
starts. -/
theorem ExecutionState.Moves.workers_from (hmoves : s.Moves env label next) {j : Nat} {y : Worker}
    (hy : next.workers[j]? = some y) :
    (∃ x : Worker, s.workers[j]? = some x ∧ x.Follows y) ∨
      ∃ id entry role selected now, label = .start id entry role selected now ∧ j = s.workers.length ∧
        (admission_record id entry role selected now).sign env.crypto env.key = .ok y.record ∧
        y.phase = .admitting := by
  by_cases hlive : next = s.crash
  · rw [hlive, ExecutionState.crash, List.getElem?_nil] at hy
    cases hy
  cases hx : s.workers[j]? with
  | some x =>
    obtain ⟨y', hy', hfollows⟩ := hmoves.follows hlive j x hx
    rw [hy, Option.some.injEq] at hy'
    exact Or.inl ⟨x, rfl, hy' ▸ hfollows⟩
  | none =>
    obtain hlength | ⟨id, entry, role, selected, now, record, rfl, hsign, hworkers⟩ := hmoves.length hlive
    · rw [List.getElem?_eq_none_iff, ← hlength, ← List.getElem?_eq_none_iff, hy] at hx
      cases hx
    · rw [hworkers, List.getElem?_append_right (List.getElem?_eq_none_iff.mp hx), List.getElem?_singleton] at hy
      split at hy
      · rename_i hj
        have hge := List.getElem?_eq_none_iff.mp hx
        obtain rfl := Option.some.inj hy
        exact Or.inr ⟨id, entry, role, selected, now, rfl, by omega, hsign, rfl⟩
      · cases hy

end

end asmodeus.control_plane
