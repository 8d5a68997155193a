import Asmodeus.Runner.Exclusion

open asmodeus.dsl

namespace asmodeus.runner

namespace RunnerService

/-- The run accepted last. -/
def latest (self : RunnerService) : Option Active := self.runs[self.runs.length - 1]?

/-- Every accepted run is over, up to its task. -/
def AllFinished (self : RunnerService) : Prop := ∀ run ∈ self.runs, Active.task run = .finished

/-- The health flag is the cleanup result of the run accepted last. -/
def ReflectsLatest (self : RunnerService) : Prop :=
  match self.latest with
  | none => self.healthy = true
  | some run => run.worker.pc = .returned self.healthy

/-- A task does not store its result over another one of the run accepted last. -/
def StoresInOrder (self : RunnerService) (act : Act) (_ : RunnerService) : Prop :=
  ∀ h run last, act = .store h → self.runs[h]? = some run → self.latest = some last →
    last.task = .awaiting ∨ last.worker.pc = run.worker.pc

end RunnerService

/-- Once the task of the latest run has stored its result, the flag shows it. -/
structure Reflecting (s : RunnerService) : Prop where
  exclusive : Exclusive s
  latest : ∀ last, s.latest = some last → last.task ≠ .awaiting → last.worker.pc = .returned s.healthy
  fresh : s.runs = [] → s.healthy = true

section

variable {s s' : RunnerService} {validate : ExecuteRequest → Except Status ExecutionPlan} {backend : String}

theorem latest_update (s : RunnerService) (h : Nat) (f : Active → Active) :
    (s.update h f).latest = if h = s.runs.length - 1 then s.latest.map f else s.latest := by
  rw [RunnerService.latest, RunnerService.update_length, RunnerService.update_get]
  rfl

theorem update_fresh {h : Nat} {f : Active → Active} (hs : Reflecting s) :
    (s.update h f).runs = [] → s.healthy = true := by
  intro hnil
  have hlength := s.update_length h f
  rw [hnil] at hlength
  exact hs.fresh (List.length_eq_zero_iff.mp hlength.symm)

/-- An update that keeps what the flag is about. -/
theorem Reflecting.update (hs : Reflecting s) {h : Nat} {f : Active → Active}
    (htask : ∀ run, s.runs[h]? = some run → (f run).task ≠ .awaiting → run.task ≠ .awaiting)
    (hpc : ∀ run, s.runs[h]? = some run → run.task ≠ .awaiting → (f run).worker.pc = run.worker.pc) :
    ∀ last, (s.update h f).latest = some last → last.task ≠ .awaiting → last.worker.pc = .returned s.healthy := by
  intro last hlast hstored
  rw [latest_update] at hlast
  split at hlast
  · rename_i heq
    obtain ⟨before, hbefore, rfl⟩ := Option.map_eq_some_iff.mp hlast
    have hrun : s.runs[h]? = some before := heq ▸ hbefore
    have hstored' := htask before hrun hstored
    rw [hpc before hrun hstored']
    exact hs.latest before hbefore hstored'
  · exact hs.latest last hlast hstored

theorem Reflecting.step (hs : Reflecting s) {act : RunnerService.Act} (horder : s.StoresInOrder act s')
    (hstep : s.step validate backend act = some s') : Reflecting s' := by
  have hexclusive := Exclusive.step validate backend s act s' hs.exclusive hstep
  cases act with
  | execute req now =>
    unfold RunnerService.step at hstep
    dsimp only at hstep
    split at hstep
    · rename_i next hnext
      obtain rfl := Option.some.inj hstep
      unfold RunnerService.execute at hnext
      split at hnext
      · cases hnext
      · split at hnext
        · cases hnext
        · obtain rfl := Except.ok.inj hnext
          refine ⟨hexclusive, fun last hlast hstored => ?_, fun hnil => ?_⟩
          · rw [RunnerService.latest] at hlast
            dsimp only at hlast
            rw [List.length_append, List.length_singleton, Nat.add_sub_cancel, List.getElem?_concat_length] at hlast
            obtain rfl := Option.some.inj hlast
            exact absurd rfl hstored
          · exact absurd hnil (by simp)
    · obtain rfl := Option.some.inj hstep
      exact hs
  | heartbeat exercise_id now =>
    obtain rfl := Option.some.inj hstep
    unfold RunnerService.heartbeat
    split
    · split
      · exact ⟨hs.exclusive.flags (fun _ => rfl) fun _ => rfl, hs.update (fun _ _ => id) fun _ _ _ => rfl,
          update_fresh hs⟩
      · exact hs
    · exact hs
  | cancel run_id =>
    obtain rfl | ⟨h, run, -, -, -, rfl⟩ := cancel_effect hstep
    · exact hs
    · exact ⟨hexclusive, hs.update (fun _ _ => id) fun _ _ _ => rfl, update_fresh hs⟩
  | work h r o =>
    obtain rfl := Option.some.inj hstep
    refine ⟨hexclusive, hs.update (fun _ _ => id) fun run hrun hstored => ?_, update_fresh hs⟩
    obtain ⟨cleaned, hpc⟩ := hs.exclusive.returned h run hrun hstored
    dsimp only
    rw [Worker.step, hpc]
    exact hpc
  | store h =>
    unfold RunnerService.step at hstep
    dsimp only at hstep
    split at hstep
    · cases hstep
    · rename_i run hrun
      split at hstep
      · rename_i cleaned htask hpc
        obtain rfl := Option.some.inj hstep
        refine ⟨hexclusive, fun last hlast hstored => ?_, fun hnil => ?_⟩
        · have hlatest := latest_update s h fun active => { active with task := .stored }
          change (s.update h _).latest = some last at hlast
          rw [hlatest] at hlast
          split at hlast
          · rename_i heq
            obtain ⟨before, hbefore, rfl⟩ := Option.map_eq_some_iff.mp hlast
            rw [RunnerService.latest, ← heq] at hbefore
            obtain rfl := Option.some.inj (hrun.symm.trans hbefore)
            exact hpc
          · rcases horder h run last rfl hrun hlast with hawaiting | hsame
            · exact absurd hawaiting hstored
            · exact hsame.trans hpc
        · have hlength := s.update_length h fun active => { active with task := .stored }
          change (s.update h _).runs = [] at hnil
          rw [hnil] at hlength
          rw [List.length_eq_zero_iff.mp hlength.symm] at hrun
          cases hrun
      · cases hstep
  | clear h =>
    unfold RunnerService.step at hstep
    dsimp only at hstep
    split at hstep
    · cases hstep
    · rename_i run hrun
      split at hstep
      · rename_i htask
        obtain rfl := Option.some.inj hstep
        refine ⟨hexclusive, hs.update (fun run' hrun' _ => ?_) fun _ _ _ => rfl, update_fresh hs⟩
        obtain rfl := Option.some.inj (hrun.symm.trans hrun')
        rw [htask]
        exact Task.noConfusion
      · cases hstep

theorem Reflecting.initial : Reflecting .with_trusted_key where
  exclusive := .initial
  latest last hlast := by cases hlast
  fresh _ := rfl

/-- In a run whose tasks store in order, the health flag is the cleanup result of the
run accepted last whenever all accepted runs are over. -/
theorem health_reflects_latest (validate : ExecuteRequest → Except Status ExecutionPlan) (backend : String)
    {labels : List RunnerService.Act} {s : RunnerService}
    (hrun : Transition.run (RunnerService.step validate backend) .with_trusted_key labels = some s)
    (horder : Transition.Always (RunnerService.step validate backend) RunnerService.StoresInOrder .with_trusted_key
      labels)
    (hfinished : s.AllFinished) : s.ReflectsLatest := by
  have hs : Reflecting s := horder.preserves (fun _ _ _ hs horder hstep => hs.step horder hstep) .initial hrun
  unfold RunnerService.ReflectsLatest
  cases hlatest : s.latest with
  | none =>
    refine hs.fresh (List.length_eq_zero_iff.mp ?_)
    have hnone := List.getElem?_eq_none_iff.mp hlatest
    omega
  | some run =>
    refine hs.latest run hlatest ?_
    rw [hfinished run (List.mem_of_getElem? hlatest)]
    exact Task.noConfusion

end

/-- The second task comes first, and the first one stores its result over it. -/
def late_store : List RunnerService.Act :=
  [.store 1, .clear 1] ++ statements 0 2 (.ok ()) ++ [.store 0, .clear 0]

/-- A runner that has left a sandbox behind reports itself healthy. -/
theorem late_store_masks_failure : ∃ labels s,
    Transition.run (RunnerService.step default_validate "sim") .with_trusted_key labels = some s ∧
      s.AllFinished ∧ ¬ s.ReflectsLatest := by
  have htail : ∃ s, Transition.run (RunnerService.step default_validate "sim") second_returned late_store = some s ∧
      s.runs.map Active.task = [.finished, .finished] ∧ s.healthy = true ∧
      s.latest.map (fun run => run.worker.pc) = some (.returned false) := ⟨_, rfl, rfl, rfl, rfl⟩
  obtain ⟨s, hrun, htasks, hhealthy, hlatest⟩ := htail
  refine ⟨overlapping ++ late_store, s, ?_, fun run hmem => ?_, fun hreflects => ?_⟩
  · rw [Transition.run_append, run_overlapping]
    exact hrun
  · have hmem' := List.mem_map_of_mem (f := Active.task) hmem
    rw [htasks] at hmem'
    simpa using hmem'
  · obtain ⟨run, hrun', hpc⟩ := Option.map_eq_some_iff.mp hlatest
    rw [RunnerService.ReflectsLatest, hrun', hhealthy] at hreflects
    exact Bool.noConfusion (Pc.returned.inj (hpc.symm.trans hreflects))

/-- The tasks store their results in the order in which their runs were accepted. -/
def stores_in_turn : List RunnerService.Act := [.store 0, .clear 0, .store 1, .clear 1]

theorem overlapping_reflected : ∃ s, Transition.run (RunnerService.step default_validate "sim") .with_trusted_key
    (overlapping ++ statements 0 2 (.ok ()) ++ stores_in_turn) = some s ∧ s.ReflectsLatest ∧ s.healthy = false := by
  have hfirst : Transition.run (RunnerService.step default_validate "sim") .with_trusted_key
      (overlapping ++ statements 0 2 (.ok ())) = some both_returned := by
    rw [Transition.run_append, run_overlapping, Option.bind_some, run_statements, ← both_returned]
  obtain ⟨stored, hstored⟩ : ∃ s, both_returned.step default_validate "sim" (.store 0) = some s := ⟨_, rfl⟩
  obtain ⟨cleared, hcleared, hlength, s, hrun, htasks, hhealthy⟩ : ∃ cleared,
      stored.step default_validate "sim" (.clear 0) = some cleared ∧ cleared.runs.length = 2 ∧
        ∃ s, Transition.run (RunnerService.step default_validate "sim") cleared [.store 1, .clear 1] = some s ∧
          s.runs.map Active.task = [.finished, .finished] ∧ s.healthy = false := by
    obtain rfl := Option.some.inj hstored
    exact ⟨_, rfl, rfl, _, rfl, rfl, rfl⟩
  have hall : Transition.run (RunnerService.step default_validate "sim") .with_trusted_key
      (overlapping ++ statements 0 2 (.ok ()) ++ stores_in_turn) = some s := by
    refine Transition.run_append_eq_some.mpr ⟨both_returned, hfirst, ?_⟩
    rw [stores_in_turn, Transition.run_cons, hstored, Option.bind_some, Transition.run_cons, hcleared,
      Option.bind_some, hrun]
  refine ⟨s, hall, health_reflects_latest default_validate "sim" hall (.extend hfirst ?_ ?_) fun run hmem =>
    ?_, hhealthy⟩
  · refine Transition.always_of_forall (fun label hlabel state next h run last hstore => ?_) _
    subst hstore
    rw [overlapping] at hlabel
    simp [statements] at hlabel
  · -- When the first result is stored the second task has yet to store its own.
    have hawaiting : both_returned.latest.map Active.task = some .awaiting := rfl
    refine fun next hnext => ⟨fun h run last _ _ hlast => .inl ?_, ?_⟩
    · rw [hlast] at hawaiting
      exact Option.some.inj hawaiting
    obtain rfl := Option.some.inj (hstored.symm.trans hnext)
    refine fun next hnext => ⟨fun h run last hstore => ?_, ?_⟩
    · cases hstore
    obtain rfl := Option.some.inj (hcleared.symm.trans hnext)
    refine fun next _ => ⟨fun h run last hstore hrun hlast => .inr ?_, fun next _ =>
      ⟨fun h run last hstore => ?_, trivial⟩⟩
    · obtain rfl : 1 = h := RunnerService.Act.store.inj hstore
      rw [RunnerService.latest, hlength] at hlast
      rw [Option.some.inj (hlast.symm.trans hrun)]
    · cases hstore
  · have hmem' := List.mem_map_of_mem (f := Active.task) hmem
    rw [htasks] at hmem'
    simpa using hmem'

end asmodeus.runner
