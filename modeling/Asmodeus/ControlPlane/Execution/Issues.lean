import Asmodeus.ControlPlane.Execution.Workers

open asmodeus.common asmodeus.telemetry

namespace asmodeus.control_plane

/-- Every worker runs under an id of its own that was given out. -/
structure ExecutionState.Issues (exec : ExecutionState) (issued : List String) : Prop where
  known : ∀ (handle : Nat) (w : Worker), exec.workers[handle]? = some w → w.record.run_id ∈ issued
  distinct : ∀ (i j : Nat) (w w' : Worker), exec.workers[i]? = some w → exec.workers[j]? = some w' →
    w.record.run_id = w'.record.run_id → i = j

/-- Nobody executes the run any more or ever will. -/
structure ExecutionState.Concluded (exec : ExecutionState) (issued : List String) (run_id : String) : Prop where
  issued : run_id ∈ issued
  ended : ∀ (handle : Nat) (w : Worker), exec.workers[handle]? = some w → w.record.run_id = run_id →
    w.phase.ended = true

/-- The handle of a run is that of its worker. -/
structure ExecutionState.Runs (exec : ExecutionState) (issued : List String) (run_id : String) (handle : Nat) :
    Prop where
  issued : run_id ∈ issued
  worker : ∃ w : Worker, exec.workers[handle]? = some w ∧ w.record.run_id = run_id

/-- A step gives out no id for a second time. -/
structure FreshIds (label : ExecutionLabel) (issued issued' : List String) : Prop where
  fresh : ∀ id entry role selected now, label = .start id entry role selected now → id ∉ issued ∧ id ∈ issued'
  kept : ∀ id ∈ issued, id ∈ issued'

section

variable {env : Env} {s next : ExecutionState} {label : ExecutionLabel} {issued issued' : List String}

theorem ExecutionState.Issues.moves (hissues : s.Issues issued) (hmoves : s.Moves env label next)
    (hids : FreshIds label issued issued') : next.Issues issued' := by
  constructor
  · intro handle y hy
    obtain ⟨x, hx, hfollows⟩ | ⟨id, entry, role, selected, now, hlabel, -, hsign, -⟩ := hmoves.workers_from hy
    · rw [hfollows.record]
      exact hids.kept _ (hissues.known handle x hx)
    · rw [(admission_record_spec hsign).1]
      exact (hids.fresh id entry role selected now hlabel).2
  · intro i j y y' hy hy' hid
    obtain ⟨x, hx, hfollows⟩ | ⟨id, entry, role, selected, now, hlabel, hi, hsign, -⟩ := hmoves.workers_from hy
    · obtain ⟨x', hx', hfollows'⟩ | ⟨id, entry, role, selected, now, hlabel, -, hsign, -⟩ := hmoves.workers_from hy'
      · rw [hfollows.record, hfollows'.record] at hid
        exact hissues.distinct i j x x' hx hx' hid
      · rw [(admission_record_spec hsign).1, hfollows.record] at hid
        exact absurd (hid ▸ hissues.known i x hx) (hids.fresh id entry role selected now hlabel).1
    · obtain ⟨x', hx', hfollows'⟩ | ⟨id', entry', role', selected', now', -, hj, -, -⟩ := hmoves.workers_from hy'
      · rw [(admission_record_spec hsign).1, hfollows'.record] at hid
        exact absurd (hid ▸ hissues.known j x' hx') (hids.fresh id entry role selected now hlabel).1
      · exact hi.trans hj.symm

theorem ExecutionState.Concluded.moves {run_id : String} (hconcluded : s.Concluded issued run_id)
    (hmoves : s.Moves env label next) (hids : FreshIds label issued issued') : next.Concluded issued' run_id where
  issued := hids.kept _ hconcluded.issued
  ended := by
    intro handle y hy hid
    obtain ⟨x, hx, hfollows⟩ | ⟨id, entry, role, selected, now, hlabel, -, hsign, -⟩ := hmoves.workers_from hy
    · have hended := hconcluded.ended handle x hx (hfollows.record ▸ hid)
      rw [hfollows.ended hended, hended]
    · rw [(admission_record_spec hsign).1] at hid
      exact absurd (hid ▸ hconcluded.issued) (hids.fresh id entry role selected now hlabel).1

theorem ExecutionState.Runs.moves {run_id : String} {handle : Nat} (hruns : s.Runs issued run_id handle)
    (hmoves : s.Moves env label next) (hlive : next ≠ s.crash) (hids : FreshIds label issued issued') :
    next.Runs issued' run_id handle where
  issued := hids.kept _ hruns.issued
  worker := by
    obtain ⟨w, hw, hid⟩ := hruns.worker
    obtain ⟨w', hw', hfollows⟩ := hmoves.follows hlive handle w hw
    exact ⟨w', hw', hfollows.record ▸ hid⟩

/-- A run whose own worker has returned is concluded. -/
theorem ExecutionState.Runs.conclude {run_id : String} {handle : Nat} {w : Worker} (hruns : s.Runs issued run_id handle)
    (hissues : s.Issues issued) (hw : s.workers[handle]? = some w) (hended : w.phase.ended = true) :
    s.Concluded issued run_id where
  issued := hruns.issued
  ended := by
    intro j y hy hid
    obtain ⟨x, hx, hxid⟩ := hruns.worker
    rw [hw, Option.some.injEq] at hx
    obtain rfl := hissues.distinct j handle y w hy hw (by rw [hid, hx, hxid])
    rw [hy, Option.some.injEq] at hw
    rw [hw, hended]

/-- Only a crash ends the service. -/
theorem ExecutionState.Moves.stays_serving (hmoves : s.Moves env label next) (hserving : s.is_serving = true)
    (hlive : next ≠ s.crash) : next.is_serving ≠ false := by
  intro hidle
  have hkept : ∀ {t : ExecutionState}, t.process = s.process → t.is_serving = false → False := by
    intro t hprocess hidle
    rw [ExecutionState.is_serving_eq hprocess, hserving] at hidle
    cases hidle
  cases hmoves with
  | crash => exact hlive rfl
  | restart audit hdown hload =>
    rw [ExecutionState.is_serving, hdown] at hserving
    cases hserving
  | serve hrecovered => cases hidle
  | recover old record pending now hrecovering hsign =>
    rw [ExecutionState.is_serving, hrecovering] at hserving
    cases hserving
  | stop_pass request stop h hstop hpending => exact hkept (by rw [stopped_frame s stop]) hidle
  | cancel_scenario run_id h => exact hkept (by rw [cancel_scenario_frame s run_id]) hidle
  | _ => exact hkept rfl hidle

/-- Only a crash brings the process down. -/
theorem ExecutionState.Moves.of_down (hmoves : s.Moves env label next) (hdown : next.process = .down) :
    next = s.crash := by
  by_contra hlive
  cases hserving : s.is_serving with
  | true => exact hmoves.stays_serving hserving hlive (by rw [ExecutionState.is_serving, hdown])
  | false => cases hmoves with
    | crash => exact hlive rfl
    | restart | serve | recover => cases hdown
    | _ => cases hserving.symm.trans ‹_›

theorem FreshIds.of_start {id : String} {entry : ScenarioEntry} {role : Role} {selected : Option String} {now : String}
    {issued : List String} (hfresh : id ∉ issued) :
    FreshIds (.start id entry role selected now) issued (id :: issued) where
  fresh := by
    intro id' entry' role' selected' now' hlabel
    injection hlabel with hid
    exact ⟨hid ▸ hfresh, hid ▸ List.mem_cons_self⟩
  kept := fun _ => List.mem_cons_of_mem id

theorem FreshIds.of_other {label : ExecutionLabel} {issued : List String}
    (hother : ∀ id entry role selected now, label ≠ .start id entry role selected now) :
    FreshIds label issued issued where
  fresh := fun id entry role selected now hlabel => absurd hlabel (hother id entry role selected now)
  kept := fun _ hid => hid

end

end asmodeus.control_plane
