import Asmodeus.ControlPlane.Execution.Sound

open asmodeus.common asmodeus.telemetry

namespace asmodeus.control_plane

/-- The run of a worker, and whether the worker is in the map of runs. -/
def Worker.listing (w : Worker) : String × Bool := (w.record.run_id, w.phase.mapped)

/-- The map of runs holds exactly the workers between their insertion and their
removal, each under its own run. -/
structure ExecutionState.Mapped (s : ExecutionState) : Prop where
  entries : ∀ (run_id : String) (handle : Nat), (run_id, handle) ∈ s.runs →
    s.workers[handle]?.map Worker.listing = some (run_id, true)
  mapped : ∀ (run_id : String) (handle : Nat), s.workers[handle]?.map Worker.listing = some (run_id, true) →
    KeyedList.find Prod.fst run_id s.runs = some (run_id, handle)

section

variable {env : Env} {s next : ExecutionState} {label : ExecutionLabel}

theorem ExecutionState.Mapped.of_same (hmapped : s.Mapped) (hruns : next.runs = s.runs)
    (hworkers : ∀ (run_id : String) (handle : Nat),
      next.workers[handle]?.map Worker.listing = some (run_id, true) ↔
        s.workers[handle]?.map Worker.listing = some (run_id, true)) : next.Mapped where
  entries := by
    intro run_id handle hmem
    rw [hruns] at hmem
    exact (hworkers run_id handle).mpr (hmapped.entries run_id handle hmem)
  mapped := by
    intro run_id handle hlisting
    rw [hruns]
    exact hmapped.mapped run_id handle ((hworkers run_id handle).mp hlisting)

/-- The flag of a cancelled run does not show in the map. -/
theorem ExecutionState.stopped_listing (s : ExecutionState) (stop : StopRequest) (handle : Nat) :
    (s.stopped stop).workers[handle]?.map Worker.listing = s.workers[handle]?.map Worker.listing := by
  rw [stopped_worker]
  cases s.workers[handle]? with
  | none => rfl
  | some w =>
    simp only [Option.map_some, Option.some.injEq]
    split <;> rfl

/-- A phase change of one worker shows in the map only if it enters or leaves
it. -/
theorem ExecutionState.set_worker_listing {handle : Nat} {w : Worker} (phase : Phase)
    (settlement : Option Settlement) (recorded : Bool) (hw : s.workers[handle]? = some w)
    (hphase : phase.mapped = w.phase.mapped) (j : Nat) :
    (s.set_worker handle
      { w with phase := phase, settlement := settlement, recorded := recorded }).workers[j]?.map Worker.listing =
        s.workers[j]?.map Worker.listing := by
  change (s.workers.set handle _)[j]?.map Worker.listing = _
  rw [List.getElem?_set]
  split
  · rename_i heq
    subst heq
    obtain ⟨hlt, -⟩ := List.getElem?_eq_some_iff.mp hw
    rw [if_pos hlt, hw, Option.map_some, Option.map_some, Worker.listing, Worker.listing, hphase]
  · rfl

/-- A worker enters the map: its run is not in it yet. -/
theorem ExecutionState.Mapped.insert (hmapped : s.Mapped) (hsound : s.Sound) {handle : Nat} {w : Worker}
    (hw : s.workers[handle]? = some w) (hphase : w.phase = .appended) :
    ExecutionState.Mapped { s.set_worker handle { w with phase := .running } with
      runs := KeyedList.upsert Prod.fst s.runs (w.record.run_id, handle) } := by
  have hadmitted : w.phase.admitted = true := by rw [hphase]; rfl
  have hother : ∀ (j : Nat) (run_id : String), s.workers[j]?.map Worker.listing = some (run_id, true) →
      run_id ≠ w.record.run_id := by
    intro j run_id hlisting hid
    obtain ⟨x, hx, hxlisting⟩ := Option.map_eq_some_iff.mp hlisting
    obtain ⟨hxid, hxmapped⟩ := Prod.mk.inj hxlisting
    have hxadmitted : x.phase.admitted = true := by
      revert hxmapped
      cases x.phase <;> first | exact fun _ => rfl | (intro h; cases h)
    have heq := hsound.distinct j handle x w hx hw hxadmitted hadmitted (hxid.trans hid)
    rw [heq, hw, Option.some.injEq] at hx
    rw [← hx, hphase] at hxmapped
    cases hxmapped
  have hnone : KeyedList.find Prod.fst w.record.run_id s.runs = none := by
    rw [KeyedList.find_eq_none]
    intro entry hentry hid
    exact hother entry.2 entry.1 (hmapped.entries entry.1 entry.2 hentry) hid
  have hruns : KeyedList.upsert Prod.fst s.runs (w.record.run_id, handle) = s.runs ++ [(w.record.run_id, handle)] :=
    KeyedList.upsert_of_find_none hnone
  have hset : ∀ j : Nat, (s.set_worker handle { w with phase := .running }).workers[j]?.map Worker.listing =
      if j = handle then some (w.record.run_id, true) else s.workers[j]?.map Worker.listing := by
    intro j
    change (s.workers.set handle _)[j]?.map Worker.listing = _
    rw [List.getElem?_set]
    split
    · rename_i heq
      subst heq
      obtain ⟨hlt, -⟩ := List.getElem?_eq_some_iff.mp hw
      rw [if_pos hlt, if_pos rfl]
      rfl
    · rename_i hne
      rw [if_neg (Ne.symm hne)]
  constructor
  · intro run_id j hmem
    change (run_id, j) ∈ KeyedList.upsert Prod.fst s.runs (w.record.run_id, handle) at hmem
    rw [hruns] at hmem
    refine (hset j).trans ?_
    rcases List.mem_append.mp hmem with hmem | hmem
    · have hlisting := hmapped.entries run_id j hmem
      rw [if_neg]
      · exact hlisting
      · rintro rfl
        rw [hw, Option.map_some, Option.some.injEq, Worker.listing, hphase] at hlisting
        cases (Prod.mk.inj hlisting).2
    · rw [List.mem_singleton] at hmem
      obtain ⟨rfl, rfl⟩ := Prod.mk.inj hmem
      rw [if_pos rfl]
  · intro run_id j hlisting
    replace hlisting := (hset j).symm.trans hlisting
    change KeyedList.find Prod.fst run_id (KeyedList.upsert Prod.fst s.runs (w.record.run_id, handle)) = _
    rw [hruns]
    split at hlisting
    · rename_i heq
      obtain ⟨rfl, -⟩ := Prod.mk.inj (Option.some.inj hlisting)
      rw [heq]
      exact KeyedList.find_append_self hnone rfl
    · refine (KeyedList.find_append_of_ne ?_).trans (hmapped.mapped run_id j hlisting)
      exact Ne.symm (hother j run_id hlisting)

/-- A worker leaves the map and takes no other run with it. -/
theorem ExecutionState.Mapped.remove (hmapped : s.Mapped) {handle : Nat} {w : Worker}
    (hw : s.workers[handle]? = some w) (hphase : w.phase = .committed) :
    ExecutionState.Mapped { s.set_worker handle { w with phase := .finished } with
      runs := s.runs.filter fun entry => decide (entry.1 ≠ w.record.run_id) } := by
  have hlisted : s.workers[handle]?.map Worker.listing = some (w.record.run_id, true) := by
    rw [hw, Option.map_some, Worker.listing, hphase]
    rfl
  have hown := hmapped.mapped w.record.run_id handle hlisted
  have hother : ∀ (j : Nat) (run_id : String), j ≠ handle →
      s.workers[j]?.map Worker.listing = some (run_id, true) → run_id ≠ w.record.run_id := by
    intro j run_id hj hlisting hid
    have hfind := hmapped.mapped run_id j hlisting
    rw [hid, hown, Option.some.injEq] at hfind
    exact hj (Prod.mk.inj hfind).2.symm
  have hset : ∀ j : Nat, j ≠ handle →
      (s.set_worker handle { w with phase := .finished }).workers[j]? = s.workers[j]? := by
    intro j hj
    change (s.workers.set handle _)[j]? = _
    rw [List.getElem?_set_ne (Ne.symm hj)]
  constructor
  · intro run_id j hmem
    obtain ⟨hmem, hid⟩ := List.mem_filter.mp hmem
    have hlisting := hmapped.entries run_id j hmem
    have hj : j ≠ handle := by
      rintro rfl
      rw [hlisted, Option.some.injEq] at hlisting
      exact of_decide_eq_true hid (Prod.mk.inj hlisting).1.symm
    change ((s.set_worker handle _).workers[j]?).map Worker.listing = _
    rw [hset j hj]
    exact hlisting
  · intro run_id j hlisting
    change ((s.set_worker handle { w with phase := .finished }).workers[j]?).map Worker.listing = _ at hlisting
    have hj : j ≠ handle := by
      rintro rfl
      obtain ⟨x, hx, hxlisting⟩ := Option.map_eq_some_iff.mp hlisting
      rcases get_set_worker hx with ⟨-, rfl⟩ | ⟨hne, -⟩
      · cases (Prod.mk.inj hxlisting).2
      · exact hne rfl
    rw [hset j hj] at hlisting
    change KeyedList.find Prod.fst run_id (s.runs.filter _) = _
    rw [KeyedList.find_filter_ne (hother j run_id hj hlisting)]
    exact hmapped.mapped run_id j hlisting

/-- Every move keeps the map of runs in step with the workers. -/
theorem ExecutionState.Mapped.moves (hmapped : s.Mapped) (hsound : s.Sound) (hmoves : s.Moves env label next) :
    next.Mapped := by
  cases hmoves with
  | crash => exact ⟨by simp [ExecutionState.crash], by simp [ExecutionState.crash]⟩
  | restart audit hdown hload => exact hmapped.of_same rfl fun _ _ => Iff.rfl
  | serve hrecovered => exact hmapped.of_same rfl fun _ _ => Iff.rfl
  | recover old record pending now hrecovering hsign => exact hmapped.of_same rfl fun _ _ => Iff.rfl
  | start id entry role selected now record hserving hrole hsign =>
    refine hmapped.of_same rfl fun run_id j => ?_
    change (s.workers ++ [_])[j]?.map Worker.listing = _ ↔ _
    rw [List.getElem?_append]
    split
    · exact Iff.rfl
    · rename_i hge
      rw [List.getElem?_eq_none (by omega : s.workers.length ≤ j)]
      constructor
      · intro h
        obtain ⟨x, hx, hxlisting⟩ := Option.map_eq_some_iff.mp h
        obtain rfl := List.mem_singleton.mp (List.mem_of_getElem? hx)
        cases (Prod.mk.inj hxlisting).2
      · intro h
        cases h
  | refuse handle w hserving hw hphase =>
    refine hmapped.of_same rfl fun run_id j => ?_
    rw [set_worker_listing .refused w.settlement w.recorded hw (by rw [hphase]; rfl)]
  | append handle w hserving hw hphase hnew =>
    refine hmapped.of_same rfl fun run_id j => ?_
    change (s.set_worker handle _).workers[j]?.map Worker.listing = _ ↔ _
    rw [set_worker_listing .appended w.settlement w.recorded hw (by rw [hphase]; rfl)]
  | insert handle w hserving hw hphase => exact hmapped.insert hsound hw hphase
  | settle handle w settlement hserving hw hphase =>
    refine hmapped.of_same rfl fun run_id j => ?_
    rw [set_worker_listing .settled (some settlement) w.recorded hw (by rw [hphase]; rfl)]
  | unsave handle w hserving hw hphase =>
    refine hmapped.of_same rfl fun run_id j => ?_
    rw [set_worker_listing .unsaved w.settlement w.recorded hw (by rw [hphase]; rfl)]
  | vanish handle w hserving hw hphase hgone =>
    refine hmapped.of_same rfl fun run_id j => ?_
    rw [set_worker_listing .committed w.settlement w.recorded hw (by rw [hphase]; rfl)]
  | commit handle w settlement now old record hserving hw hphase hold hrevise hid hsettlement =>
    refine hmapped.of_same rfl fun run_id j => ?_
    change (s.set_worker handle _).workers[j]?.map Worker.listing = _ ↔ _
    rw [set_worker_listing .committed w.settlement true hw (by rw [hphase]; rfl)]
  | remove handle w hserving hw hphase => exact hmapped.remove hw hphase
  | check_feedback feedback old hserving hold hterminal => exact hmapped.of_same rfl fun _ _ => Iff.rfl
  | drop_feedback request hserving => exact hmapped.of_same rfl fun _ _ => Iff.rfl
  | commit_feedback request feedback now old record hserving hfeedback hold hrevise hid =>
    exact hmapped.of_same rfl fun _ _ => Iff.rfl
  | begin_cancel role run_id record category hserving hrecord hcategory hrole =>
    exact hmapped.of_same rfl fun _ _ => Iff.rfl
  | begin_abort role hserving => exact hmapped.of_same rfl fun _ _ => Iff.rfl
  | stop_pass request stop hserving hstop hpending =>
    refine hmapped.of_same (by rw [stopped_frame s stop]) fun run_id j => ?_
    change (s.stopped stop).workers[j]?.map Worker.listing = _ ↔ _
    rw [stopped_listing]
  | cancel_scenario run_id hserving =>
    refine hmapped.of_same (by rw [cancel_scenario_frame s run_id]) fun id j => ?_
    rw [cancel_scenario_eq_stopped, stopped_listing]

/-- A worker in the map is reached by its run. -/
theorem ExecutionState.Mapped.find (hmapped : s.Mapped) {handle : Nat} {w : Worker}
    (hw : s.workers[handle]? = some w) (hphase : w.phase.mapped = true) :
    KeyedList.find Prod.fst w.record.run_id s.runs = some (w.record.run_id, handle) :=
  hmapped.mapped _ _ (by rw [hw, Option.map_some, Worker.listing, hphase])

end

end asmodeus.control_plane
