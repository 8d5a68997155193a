import Asmodeus.ControlPlane.Execution.Feedback
import Asmodeus.ControlPlane.Execution.Issues
import Asmodeus.ControlPlane.Scheduler.Samples
import Asmodeus.ControlPlane.Scheduler.Steps

open asmodeus.common asmodeus.telemetry

namespace asmodeus.control_plane

variable {F : Type}

/-- The runs of samples and of outcomes still to be recorded. -/
def SchedulerState.concluded (s : SchedulerState F) : List (Option String) :=
  s.schedules.value.shown.map Prod.fst ++ s.pending.map PendingOutcome.run_id

def SchedulerState.awaiting (s : SchedulerState F) : List (Option String) :=
  s.current.toList.map fun run => some run.run_id

/-- At most one sample, outcome or awaited run is about each run id, and what is
recorded or about to be is concluded. -/
structure SchedulerState.Accounted (s : SchedulerState F) : Prop where
  sound : s.exec.Sound
  issues : s.exec.Issues s.issued
  idle : s.exec.is_serving = false → s.current = none ∧ s.pending = [] ∧ s.flush = .off ∧ s.handlers = []
  once : ∀ run_id, (s.concluded ++ s.awaiting).count (some run_id) ≤ 1
  concluded : ∀ run_id, some run_id ∈ s.concluded → s.exec.Concluded s.issued run_id
  awaited : ∀ run, s.current = some run → s.exec.Runs s.issued run.run_id run.handle

section

variable {env : SchedulerEnv F} {s next : SchedulerState F}

/-- A step that leaves the executions alone keeps the accounts, if it moves
entries between the samples, the outcomes and the awaited run. -/
theorem SchedulerState.Accounted.of_entries (haccounted : s.Accounted) (hserving : s.exec.is_serving = true)
    (hexec : next.exec = s.exec) (hissued : next.issued = s.issued)
    (hcount : ∀ run_id, (next.concluded ++ next.awaiting).count (some run_id) ≤
      (s.concluded ++ s.awaiting).count (some run_id))
    (hconcluded : ∀ run_id, some run_id ∈ next.concluded → some run_id ∈ s.concluded ∨ s.exec.Concluded s.issued run_id)
    (hcurrent : ∀ run, next.current = some run → s.current = some run) : next.Accounted where
  sound := hexec ▸ haccounted.sound
  issues := by rw [hexec, hissued]; exact haccounted.issues
  idle := by
    intro hidle
    rw [hexec, hserving] at hidle
    cases hidle
  once := fun run_id => (hcount run_id).trans (haccounted.once run_id)
  concluded := by
    intro run_id hmem
    rw [hexec, hissued]
    exact (hconcluded run_id hmem).elim (haccounted.concluded run_id) id
  awaited := by
    intro run hrun
    rw [hexec, hissued]
    exact haccounted.awaited run (hcurrent run hrun)

/-- A change of the samples alone. -/
theorem SchedulerState.Accounted.of_samples (haccounted : s.Accounted) (hserving : s.exec.is_serving = true)
    (hexec : next.exec = s.exec) (hissued : next.issued = s.issued) (hpending : next.pending = s.pending)
    (hcurrent : next.current = s.current)
    (hsamples : (next.schedules.value.shown.map Prod.fst).Sublist (s.schedules.value.shown.map Prod.fst)) :
    next.Accounted := by
  have hsub : next.concluded.Sublist s.concluded := by
    rw [SchedulerState.concluded, SchedulerState.concluded, hpending]
    exact hsamples.append_right _
  refine haccounted.of_entries hserving hexec hissued (fun run_id => ?_) (fun run_id hmem => ?_)
    (fun run hrun => hcurrent ▸ hrun)
  · rw [SchedulerState.awaiting, SchedulerState.awaiting, hcurrent]
    exact (hsub.append_right _).count_le _
  · exact Or.inl (hsub.subset hmem)

/-- The executions move and the schedule stands still. -/
theorem SchedulerState.Accounted.of_moves (haccounted : s.Accounted) {label : ExecutionLabel} {exec : ExecutionState}
    {issued : List String} (hmoves : s.exec.Moves env.exec label exec) (hlive : exec ≠ s.exec.crash)
    (hids : FreshIds label s.issued issued) (hexec : next.exec = exec) (hissued : next.issued = issued)
    (hschedules : next.schedules = s.schedules) (hpending : next.pending = s.pending)
    (hcurrent : next.current = s.current) (hflush : next.flush = s.flush)
    (hhandlers : exec.is_serving = false → s.handlers = [] → next.handlers = []) : next.Accounted := by
  have hsame : next.concluded = s.concluded := by
    rw [SchedulerState.concluded, SchedulerState.concluded, hschedules, hpending]
  subst hexec hissued
  refine ⟨haccounted.sound.moves hmoves, haccounted.issues.moves hmoves hids, fun hidle => ?_, fun run_id => ?_,
    fun run_id hmem => ?_, fun run hrun => ?_⟩
  · have hbefore : s.exec.is_serving = false := by
      by_contra hserving
      exact hmoves.stays_serving (Bool.not_eq_false _ ▸ hserving) hlive hidle
    obtain ⟨hc, hp, hf, hh⟩ := haccounted.idle hbefore
    exact ⟨hcurrent.trans hc, hpending.trans hp, hflush.trans hf, hhandlers hidle hh⟩
  · rw [SchedulerState.awaiting, hsame, hcurrent]
    exact haccounted.once run_id
  · exact (haccounted.concluded run_id (hsame ▸ hmem)).moves hmoves hids
  · exact (haccounted.awaited run (hcurrent ▸ hrun)).moves hmoves hlive hids

/-- The process is gone: no worker is left to conclude. -/
theorem SchedulerState.Accounted.crash (haccounted : s.Accounted) {exec : ExecutionState} (hsound : exec.Sound)
    (hworkers : exec.workers = []) : (s.crashed exec).Accounted := by
  have hsamples : ∀ entry, entry ∈ (s.schedules.reload .seeded).value.shown → entry ∈ s.schedules.value.shown := by
    intro entry hentry
    unfold Persistent.reload at hentry
    split at hentry
    · exact hentry
    · cases hentry
  have hcount : ∀ run_id, ((s.crashed exec).concluded ++ (s.crashed exec).awaiting).count (some run_id) ≤
      s.concluded.count (some run_id) := by
    intro run_id
    unfold SchedulerState.concluded SchedulerState.awaiting SchedulerState.crashed Persistent.reload
    split
    · simp [List.count_append]
    · simp [ScheduleCatalog.seeded, ScheduleCatalog.shown, ScheduledJob.shown, ScheduledJob.create]
  have hnone : ∀ (handle : Nat) (w : Worker), exec.workers[handle]? ≠ some w := by
    intro handle w hw
    rw [hworkers] at hw
    cases hw
  refine ⟨hsound, ⟨fun handle w hw => absurd hw (hnone handle w), fun i j w w' hw => absurd hw (hnone i w)⟩,
    fun _ => ⟨rfl, rfl, rfl, rfl⟩, fun run_id => ?_, fun run_id hmem => ?_, fun run hrun => by cases hrun⟩
  · have hbefore := haccounted.once run_id
    rw [List.count_append] at hbefore
    exact (hcount run_id).trans (by omega)
  · refine ⟨(haccounted.concluded run_id ?_).issued, fun handle w hw => absurd hw (hnone handle w)⟩
    rw [SchedulerState.concluded, SchedulerState.crashed, List.map_nil, List.append_nil, List.mem_map] at hmem
    obtain ⟨entry, hentry, hid⟩ := hmem
    exact List.mem_append_left _ (List.mem_map.mpr ⟨entry, hsamples entry hentry, hid⟩)

/-- A step of the executions commits at most one feedback, and only in service. -/
theorem ExecutionState.Moves.feedback_since {env : Env} {exec exec' : ExecutionState} {label : ExecutionLabel}
    (hmoves : exec.Moves env label exec') :
    exec.feedback_since exec' = [] ∨ ∃ record, exec'.history = exec.history ++ [(.feedback, record)] ∧
      exec.feedback_since exec' = [record] ∧ exec.is_serving = true := by
  unfold ExecutionState.feedback_since
  obtain hsame | ⟨hlost, -⟩ | ⟨⟨author, record⟩, hcommit, hauthored⟩ := hmoves.commits
  · rw [hsame, List.drop_length]
    exact Or.inl rfl
  · rw [hlost, List.drop_nil]
    exact Or.inl rfl
  · rw [hcommit, List.drop_left]
    cases author with
    | legacy => exact absurd hauthored id
    | feedback => exact Or.inr ⟨record, rfl, rfl, hauthored⟩
    | admission | worker | recovery => exact Or.inl rfl

theorem flush_transaction_ids (haccounted : s.Accounted) {outcome : PendingOutcome} {pending : List PendingOutcome}
    (hpending : s.pending = outcome :: pending) (run_id : String) :
    ((outcome.apply s.schedules.value).shown.map Prod.fst).count (some run_id) +
        (pending.map PendingOutcome.run_id).count (some run_id) ≤ s.concluded.count (some run_id) ∧
      s.concluded.count (some run_id) ≤ 1 := by
  have honce := haccounted.once run_id
  rw [List.count_append] at honce
  obtain ⟨kept, hperm, hsub⟩ := apply_shown outcome s.schedules.value
  have hcount := (hsub.map Prod.fst).count_le (some run_id)
  rw [(hperm.map Prod.fst).count_eq, List.map_append, List.count_append] at hcount
  refine ⟨?_, by omega⟩
  rw [SchedulerState.concluded, hpending, List.count_append, List.map_cons, List.count_cons]
  rw [List.map_singleton, List.count_singleton] at hcount
  dsimp only at hcount
  omega

/-- The transaction of an outcome keeps the runs of the samples it leaves. -/
theorem flush_transaction_map (haccounted : s.Accounted) {outcome : PendingOutcome} {pending : List PendingOutcome}
    (hpending : s.pending = outcome :: pending) (drift : DriftArithmetic F) (feedback : Option AuditRecord) :
    (flush_transaction drift outcome feedback s.schedules.value).shown.map Prod.fst =
      (outcome.apply s.schedules.value).shown.map Prod.fst := by
  unfold flush_transaction
  split
  · rename_i record
    have hids := flush_transaction_ids haccounted hpending record.run_id
    rw [record_feedback_shown (by omega)]
    split
    · rw [map_show_feedback]
    · rfl
  · rfl

theorem SchedulerState.Accounted.moves {label : SchedulerLabel} (haccounted : s.Accounted)
    (hmoves : s.Moves env label next) :
    next.Accounted := by
  cases hmoves with
  | crash exec hexec hdown =>
    have hcrash := hexec.of_down hdown
    exact haccounted.crash (haccounted.sound.moves hexec) (hcrash ▸ rfl)
  | exec_start exec hexec hserving hstarted hfresh =>
    exact haccounted.of_moves hexec hstarted.live (.of_start hfresh) rfl rfl rfl rfl rfl rfl fun _ h => h
  | @exec label exec hexec hup hother =>
    refine haccounted.of_moves hexec ?_ (.of_other hother) rfl rfl rfl rfl rfl rfl fun hidle hnone => ?_
    · rintro rfl
      exact hup rfl
    · change s.handlers ++ s.exec.feedback_since exec = []
      rw [hnone, List.nil_append]
      obtain hsince | ⟨record, -, -, hserving⟩ := hexec.feedback_since
      · exact hsince
      · refine absurd hidle (hexec.stays_serving hserving ?_)
        rintro rfl
        exact hup rfl
  | unsaved => exact haccounted
  | edit edit hserving =>
    exact haccounted.of_samples hserving rfl rfl rfl rfl ((edit_shown edit s.schedules.value).map Prod.fst)
  | claim now now_utc hserving hdue hcurrent =>
    refine haccounted.of_samples hserving rfl rfl rfl rfl ?_
    change ((s.schedules.value.claim_due now now_utc).2.shown.map Prod.fst).Sublist _
    exact claim_due_shown s.schedules.value now now_utc ▸ .refl _
  | skip now job due hserving hdue hcurrent hflush =>
    refine haccounted.of_entries hserving rfl rfl (fun run_id => ?_) (fun run_id hmem => ?_)
      (fun run hrun => by cases hrun)
    · simp [SchedulerState.concluded, SchedulerState.awaiting, SchedulerState.push, hcurrent, List.count_append]
    · left
      simpa [SchedulerState.concluded, SchedulerState.push] using hmem
  | start id entry selected now job due exec hserving hexec hstarted hfresh hdue hcurrent hflush hstill hentry =>
    have hlive := hstarted.live
    have hids : FreshIds (.start id entry job.role selected now) s.issued (id :: s.issued) := .of_start hfresh
    have hissued : ({ s with exec := exec, issued := id :: s.issued } : SchedulerState F).Accounted :=
      haccounted.of_moves hexec hlive hids rfl rfl rfl rfl rfl rfl fun _ h => h
    have hunknown : s.concluded.count (some id) = 0 :=
      List.count_eq_zero.mpr fun hmem => hfresh (haccounted.concluded id hmem).issued
    refine ⟨hissued.sound, hissued.issues, fun hidle => absurd hidle (hexec.stays_serving hserving hlive),
      fun run_id => ?_, hissued.concluded, fun run hrun => ?_⟩
    · change (s.concluded ++ [some id]).count (some run_id) ≤ 1
      have hbefore := haccounted.once run_id
      rw [List.count_append] at hbefore ⊢
      by_cases hid : run_id = id
      · subst hid
        rw [hunknown, List.count_singleton_self]
      · rw [List.count_singleton, if_neg (by simpa using Ne.symm hid)]
        omega
    · obtain rfl := Option.some.inj hrun
      exact ⟨List.mem_cons_self, hstarted.worker⟩
  | finish now run w hserving hcurrent hw hended =>
    have hconcluded := (haccounted.awaited run hcurrent).conclude haccounted.issues hw hended
    have hid : (s.exec.conclusion w run.run_id).1 = none ∨ (s.exec.conclusion w run.run_id).1 = some run.run_id := by
      unfold ExecutionState.conclusion
      split
      · exact Or.inl rfl
      · exact Or.inr rfl
    refine haccounted.of_entries hserving rfl rfl (fun run_id => ?_) (fun run_id hmem => ?_)
      (fun run hrun => by cases hrun)
    · simp only [SchedulerState.concluded, SchedulerState.awaiting, SchedulerState.push, hcurrent, List.map_append,
        List.map_cons, List.map_nil, Option.toList_none, Option.toList_some, List.count_append, List.count_nil]
      rcases hid with hid | hid <;> rw [hid]
      · simp
      · simp only [Nat.add_zero, Nat.add_assoc, le_refl]
    · simp only [SchedulerState.concluded, SchedulerState.push, List.map_append, List.mem_append, List.map_cons,
        List.map_nil, List.mem_singleton] at hmem ⊢
      rcases hid with hid | hid <;> rw [hid] at hmem <;> grind
  | retry hserving => exact haccounted.of_samples hserving rfl rfl rfl rfl (.refl _)
  | flush_read outcome pending hserving hpending => exact haccounted.of_samples hserving rfl rfl rfl rfl (.refl _)
  | flush_fail hserving => exact haccounted.of_samples hserving rfl rfl rfl rfl (.refl _)
  | flush_commit outcome pending feedback hserving hpending hflush hdisk =>
    refine haccounted.of_entries hserving rfl rfl (fun run_id => ?_) (fun run_id hmem => ?_) (fun run hrun => hrun)
    · have hids := (flush_transaction_ids haccounted hpending run_id).1
      change ((flush_transaction env.drift outcome feedback s.schedules.value).shown.map Prod.fst ++
        pending.map PendingOutcome.run_id ++ s.awaiting).count (some run_id) ≤ _
      rw [flush_transaction_map haccounted hpending, List.count_append, List.count_append, List.count_append]
      omega
    · left
      have hids := (flush_transaction_ids haccounted hpending run_id).1
      change some run_id ∈ (flush_transaction env.drift outcome feedback s.schedules.value).shown.map Prod.fst ++
        pending.map PendingOutcome.run_id at hmem
      rw [flush_transaction_map haccounted hpending, ← List.count_pos_iff, List.count_append] at hmem
      rw [← List.count_pos_iff]
      omega
  | feedback_fail handler record hserving hhandler => exact haccounted.of_samples hserving rfl rfl rfl rfl (.refl _)
  | apply_feedback handler record hserving hhandler hdisk =>
    refine haccounted.of_samples hserving rfl rfl rfl rfl ?_
    have honce := haccounted.once record.run_id
    rw [List.count_append, SchedulerState.concluded, List.count_append] at honce
    change ((s.schedules.value.record_feedback env.drift record).shown.map Prod.fst).Sublist _
    rw [record_feedback_shown (by omega)]
    split
    · rw [map_show_feedback]
    · exact .refl _

end

end asmodeus.control_plane
