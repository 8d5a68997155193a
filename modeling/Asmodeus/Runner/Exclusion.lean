import Asmodeus.Runner.Service

open asmodeus.dsl

namespace asmodeus.runner

/-- The terminal state has not been set. -/
def Pc.live : Pc → Bool
  | .reporting _ | .dropping _ | .returned _ => false
  | _ => true

variable {w : Worker} {r : Reading} {o : Outcome}

/-- A live worker shows a state that keeps the slot. -/
def Unfinished (w : Worker) : Prop := w.pc.live = true → finished_state w.state = false

theorem live_step (h : (w.step r o).pc.live = true) : w.pc.live = true := by
  cases hpc : w.pc with
  | reporting | dropping | returned =>
    unfold Worker.step at h
    rw [hpc] at h
    first
    | cases h
    | (rw [hpc] at h; cases h)
  | _ => rfl

theorem announced_unfinished : ∀ state ∈ ["Validated", "Armed", "Injecting", "Cleanup"],
    finished_state state = false := by
  decide

theorem unfinished_step (h : Unfinished w) : Unfinished (w.step r o) := by
  intro hlive
  cases hsilent : w.pc.announces with
  | false =>
    rw [(local_step hsilent).state]
    exact h (live_step hlive)
  | true =>
    cases hpc : w.pc with
    | starting =>
      unfold Worker.step
      rw [hpc]
      exact announced_unfinished "Validated" (by simp)
    | arming =>
      unfold Worker.step
      rw [hpc]
      exact announced_unfinished "Armed" (by simp)
    | injecting =>
      unfold Worker.step
      rw [hpc]
      exact announced_unfinished "Injecting" (by simp)
    | leaving =>
      unfold Worker.step
      rw [hpc]
      exact announced_unfinished "Cleanup" (by simp)
    | settling =>
      unfold Worker.step at hlive
      rw [hpc] at hlive
      cases hlive
    | _ =>
      rw [hpc] at hsilent
      cases hsilent

/-- A live worker holds the slot, and a task goes on only after its worker. -/
structure Exclusive (s : RunnerService) : Prop where
  slot : ∀ h, s.slot = some h → h < s.runs.length
  unfinished : ∀ (h : Nat) (run : Active), s.runs[h]? = some run → Unfinished run.worker
  returned : ∀ (h : Nat) (run : Active), s.runs[h]? = some run → run.task ≠ .awaiting →
    ∃ cleaned, run.worker.pc = .returned cleaned
  holder : ∀ (h : Nat) (run : Active), s.runs[h]? = some run → run.worker.pc.live = true → s.slot = some h

theorem Exclusive.initial : Exclusive .with_trusted_key where
  slot h hslot := by cases hslot
  unfinished h run hrun := by cases hrun
  returned h run hrun := by cases hrun
  holder h run hrun := by cases hrun

variable {s s' : RunnerService}

/-- A change of flags or of the task keeps it. -/
theorem Exclusive.update (hs : Exclusive s) {h : Nat} {f : Active → Active}
    (hworker : ∀ run, s.runs[h]? = some run → Unfinished (f run).worker)
    (htask : ∀ run, s.runs[h]? = some run → (f run).task ≠ .awaiting → ∃ cleaned, (f run).worker.pc = .returned cleaned)
    (hlive : ∀ run, s.runs[h]? = some run → (f run).worker.pc.live = true → run.worker.pc.live = true) :
    Exclusive (s.update h f) := by
  have hget {k : Nat} {run : Active} (hrun : (s.update h f).runs[k]? = some run) :
      (h = k ∧ ∃ before, s.runs[h]? = some before ∧ run = f before) ∨ (h ≠ k ∧ s.runs[k]? = some run) := by
    rw [RunnerService.update_get] at hrun
    split at hrun
    · rename_i heq
      subst heq
      obtain ⟨before, hbefore, rfl⟩ := Option.map_eq_some_iff.mp hrun
      exact Or.inl ⟨rfl, before, hbefore, rfl⟩
    · rename_i hne
      exact Or.inr ⟨hne, hrun⟩
  refine ⟨fun k hslot => ?_, fun k run hrun => ?_, fun k run hrun => ?_, fun k run hrun hpc => ?_⟩
  · rw [RunnerService.update_length]
    exact hs.slot k hslot
  · obtain ⟨rfl, before, hbefore, rfl⟩ | ⟨-, hrun⟩ := hget hrun
    · exact hworker before hbefore
    · exact hs.unfinished k run hrun
  · obtain ⟨rfl, before, hbefore, rfl⟩ | ⟨-, hrun⟩ := hget hrun
    · exact htask before hbefore
    · exact hs.returned k run hrun
  · obtain ⟨rfl, before, hbefore, rfl⟩ | ⟨-, hrun⟩ := hget hrun
    · exact hs.holder h before hbefore (hlive before hbefore hpc)
    · exact hs.holder k run hrun hpc

theorem Exclusive.flags (hs : Exclusive s) {h : Nat} {f : Active → Active}
    (hworker : ∀ run, (f run).worker = run.worker) (htask : ∀ run, (f run).task = run.task) :
    Exclusive (s.update h f) :=
  hs.update (fun run hrun => hworker run ▸ hs.unfinished h run hrun)
    (fun run hrun => by rw [hworker, htask]; exact hs.returned h run hrun)
    fun run _ => by rw [hworker]; exact id

/-- A new run is accepted only when no worker is live. -/
theorem Exclusive.execute {validate : ExecuteRequest → Except Status ExecutionPlan} {backend : String}
    {req : ExecuteRequest} {now : Nat} (hs : Exclusive s) (h : s.execute validate backend req now = .ok s') :
    Exclusive s' := by
  unfold RunnerService.execute at h
  split at h
  · cases h
  · split at h
    · cases h
    · rename_i plan _ hidle
      have hquiet : ∀ (k : Nat) (run : Active), s.runs[k]? = some run → run.worker.pc.live = false := by
        intro k run hrun
        by_contra hlive
        have hlive := Bool.not_eq_false _ ▸ hlive
        have hslot := hs.holder k run hrun hlive
        refine hidle ?_
        rw [RunnerService.active, hslot]
        change (s.runs[k]?).any _ = true
        rw [hrun]
        change (!finished_state run.worker.state) = true
        rw [hs.unfinished k run hrun hlive]
        rfl
      obtain rfl := Except.ok.inj h
      have hget {k : Nat} {run : Active}
          (hrun : (s.runs ++ [⟨.spawn backend req plan, false, now, .awaiting⟩])[k]? = some run) :
          s.runs[k]? = some run ∨
            (k = s.runs.length ∧ run = ⟨.spawn backend req plan, false, now, .awaiting⟩) := by
        rw [List.getElem?_append] at hrun
        split at hrun
        · exact Or.inl hrun
        · rename_i hk
          obtain ⟨hlt, heq⟩ := List.getElem?_eq_some_iff.mp hrun
          rw [List.length_singleton] at hlt
          refine Or.inr ⟨by omega, ?_⟩
          rw [← heq]
          simp
      refine ⟨fun k hslot => ?_, fun k run hrun => ?_, fun k run hrun => ?_, fun k run hrun hpc => ?_⟩
      · obtain rfl := Option.some.inj hslot
        rw [List.length_append, List.length_singleton]
        omega
      · obtain hrun | ⟨-, rfl⟩ := hget hrun
        · exact hs.unfinished k run hrun
        · intro _
          change finished_state "Queued" = false
          decide
      · obtain hrun | ⟨-, rfl⟩ := hget hrun
        · exact hs.returned k run hrun
        · exact fun htask => absurd rfl htask
      · obtain hrun | ⟨rfl, -⟩ := hget hrun
        · rw [hquiet k run hrun] at hpc
          cases hpc
        · rfl

theorem Exclusive.step (validate : ExecuteRequest → Except Status ExecutionPlan) (backend : String) :
    Transition.Preserved (RunnerService.step validate backend) Exclusive := by
  intro s act s' hs hstep
  cases act with
  | execute req now =>
    unfold RunnerService.step at hstep
    dsimp only at hstep
    split at hstep
    · rename_i next hnext
      obtain rfl := Option.some.inj hstep
      exact hs.execute hnext
    · obtain rfl := Option.some.inj hstep
      exact hs
  | heartbeat exercise_id now =>
    obtain rfl := Option.some.inj hstep
    unfold RunnerService.heartbeat
    split
    · split
      · exact hs.flags (fun _ => rfl) fun _ => rfl
      · exact hs
    · exact hs
  | cancel run_id =>
    unfold RunnerService.step RunnerService.cancel at hstep
    dsimp only at hstep
    split at hstep
    · rename_i next reply hnext
      obtain rfl := Option.some.inj hstep
      split at hnext
      · split at hnext
        · obtain ⟨rfl, -⟩ := Prod.mk.inj (Except.ok.inj hnext)
          exact hs.flags (fun _ => rfl) fun _ => rfl
        · cases hnext
      · cases hnext
    · obtain rfl := Option.some.inj hstep
      exact hs
  | work h r o =>
    obtain rfl := Option.some.inj hstep
    refine hs.update (fun run hrun => unfinished_step (hs.unfinished h run hrun)) (fun run hrun htask => ?_)
      fun run _ hlive => live_step hlive
    obtain ⟨cleaned, hpc⟩ := hs.returned h run hrun htask
    refine ⟨cleaned, ?_⟩
    dsimp only
    rw [Worker.step, hpc]
    exact hpc
  | store h =>
    unfold RunnerService.step at hstep
    dsimp only at hstep
    split at hstep
    · cases hstep
    · rename_i run hrun
      split at hstep
      · rename_i cleaned htask hpc
        obtain rfl := Option.some.inj hstep
        have hupdated : Exclusive (s.update h fun active => { active with task := .stored }) :=
          hs.update (fun run hrun => hs.unfinished h run hrun)
            (fun run' hrun' _ => ⟨cleaned, by
              obtain rfl := Option.some.inj (hrun.symm.trans hrun')
              exact hpc⟩)
            fun run _ => id
        exact ⟨hupdated.slot, hupdated.unfinished, hupdated.returned, hupdated.holder⟩
      · cases hstep
  | clear h =>
    unfold RunnerService.step at hstep
    dsimp only at hstep
    split at hstep
    · cases hstep
    · rename_i run hrun
      split at hstep
      · rename_i htask
        obtain rfl := Option.some.inj hstep
        have hreturned := hs.returned h run hrun (by rw [htask]; exact Task.noConfusion)
        obtain ⟨cleaned, hpc⟩ := hreturned
        have hupdated : Exclusive (s.update h fun active => { active with task := .finished }) :=
          hs.update (fun run hrun => hs.unfinished h run hrun)
            (fun run' hrun' _ => ⟨cleaned, by
              obtain rfl := Option.some.inj (hrun.symm.trans hrun')
              exact hpc⟩)
            fun run _ => id
        refine ⟨fun k hslot => hupdated.slot k ?_, hupdated.unfinished, hupdated.returned, fun k run' hrun' hlive => ?_⟩
        · dsimp only at hslot
          split at hslot
          · cases hslot
          · exact hslot
        · have hslot : s.slot = some k := hupdated.holder k run' hrun' hlive
          have hne : h ≠ k := by
            rintro rfl
            rw [RunnerService.update_get, if_pos rfl, hrun] at hrun'
            obtain rfl := Option.some.inj hrun'
            dsimp only at hlive
            rw [hpc] at hlive
            cases hlive
          dsimp only
          rw [if_neg (by rw [hslot]; exact fun heq => hne (Option.some.inj heq).symm), hslot]
      · cases hstep

/-- What a step may do to the flags of a run. -/
def FlagStep (s : RunnerService) (act : RunnerService.Act) (h : Nat) (run run' : Active) : Prop :=
  (run'.cancelled = run.cancelled ∨ (act = .cancel run.id ∧ s.slot = some h)) ∧
    (run'.heartbeat = run.heartbeat ∨ ∃ now, act = .heartbeat run.id now ∧ s.slot = some h)

variable {h : Nat} {run run' : Active} {act : RunnerService.Act}

theorem FlagStep.same (hcancelled : run'.cancelled = run.cancelled) (hheartbeat : run'.heartbeat = run.heartbeat) :
    FlagStep s act h run run' := ⟨Or.inl hcancelled, Or.inl hheartbeat⟩

theorem FlagStep.unchanged (hrun : s.runs[h]? = some run) (hrun' : s.runs[h]? = some run') :
    FlagStep s act h run run' := by
  obtain rfl := Option.some.inj (hrun.symm.trans hrun')
  exact .same rfl rfl

/-- Another update than of the flags. -/
theorem FlagStep.updated {k : Nat} {f : Active → Active} (hrun : s.runs[h]? = some run)
    (hrun' : (s.update k f).runs[h]? = some run') (hcancelled : ∀ run, (f run).cancelled = run.cancelled)
    (hheartbeat : ∀ run, (f run).heartbeat = run.heartbeat) : FlagStep s act h run run' := by
  rw [RunnerService.update_get, hrun] at hrun'
  split at hrun'
  · obtain rfl := Option.some.inj hrun'
    exact .same (hcancelled run) (hheartbeat run)
  · obtain rfl := Option.some.inj hrun'
    exact .same rfl rfl

theorem active_eq_some {active : Active} (hslot : s.slot = some h) (hactive : s.active = some active) :
    s.runs[h]? = some active := by
  rw [RunnerService.active, hslot] at hactive
  exact hactive

/-- A cancellation sets one flag and nothing else. -/
theorem cancel_effect {validate : ExecuteRequest → Except Status ExecutionPlan} {backend run_id : String}
    (hstep : s.step validate backend (.cancel run_id) = some s') :
    s' = s ∨ ∃ h run, s.slot = some h ∧ s.runs[h]? = some run ∧ run.id = run_id ∧
      s' = s.update h fun active => { active with cancelled := true } := by
  unfold RunnerService.step RunnerService.cancel at hstep
  dsimp only at hstep
  split at hstep
  · rename_i next reply hnext
    obtain rfl := Option.some.inj hstep
    split at hnext
    · rename_i k active hslot hactive
      split at hnext
      · rename_i hid
        obtain ⟨rfl, -⟩ := Prod.mk.inj (Except.ok.inj hnext)
        exact Or.inr ⟨k, active, hslot, active_eq_some hslot hactive, hid, rfl⟩
      · cases hnext
    · cases hnext
  · exact Or.inl (Option.some.inj hstep).symm

end asmodeus.runner
