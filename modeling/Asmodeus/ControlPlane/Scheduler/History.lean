import Asmodeus.ControlPlane.Scheduler.Agreement

open asmodeus.common asmodeus.telemetry

namespace asmodeus.control_plane

variable {F : Type}

/-- The sample shows the feedback of the record. Only a run that a runner
executed shows any: feedback on a simulation is never confirmed. -/
structure ScheduledRunSample.Agrees (sample : ScheduledRunSample F) (record : AuditRecord) : Prop where
  runner : (execution_facts record).execution_mode = some "runner" →
    sample.feedback_received = has_feedback record ∧
      sample.detected = (if has_feedback record then some record.measurements.blue_team_detected else none) ∧
      sample.mttd_ms = record.measurements.mttd_ms
  simulated : (execution_facts record).execution_mode ≠ some "runner" →
    sample.feedback_received = false ∧ sample.detected = none ∧ sample.mttd_ms = 0

/-- Every request about the run has finished, and none has failed. -/
structure SchedulerState.Finished (s : SchedulerState F) (run_id : String) : Prop where
  recorded : ∀ outcome ∈ s.pending, outcome.run_id ≠ some run_id
  applied : ∀ record ∈ s.handlers, record.run_id ≠ run_id
  succeeded : run_id ∉ s.failed

/-- The sample of every finished run shows the feedback of its latest revision. -/
def SchedulerState.HistoryAgrees (s : SchedulerState F) : Prop :=
  ∀ job ∈ s.schedules.value.jobs, ∀ sample ∈ job.run_history, ∀ run_id, sample.run_id = some run_id →
    s.Finished run_id → ∀ last, s.exec.audit.get run_id = some last → sample.Agrees last

/-- What is shown of a confirmed record is what it measures. -/
theorem ScheduledRunSample.Agrees.of_shown {sample : ScheduledRunSample F} {record : AuditRecord}
    (hmeasured : Measured record) (hshown : sample.shown.2 = confirmed_feedback record) : sample.Agrees record := by
  have hmode := has_confirmed_feedback_eq record
  have hpending : confirmed_feedback record = .pending → sample.feedback_received = false ∧
      sample.detected = none ∧ sample.mttd_ms = 0 := by
    intro h
    rw [h] at hshown
    injection hshown with hreceived hdetected hmttd
    exact ⟨hreceived, hdetected, hmttd⟩
  constructor
  · intro hrunner
    rw [hrunner, beq_self_eq_true, Bool.true_and] at hmode
    cases hfeedback : has_feedback record with
    | false =>
      obtain ⟨hreceived, hdetected, hmttd⟩ := hpending (confirmed_feedback_of_not (hmode.trans hfeedback))
      refine ⟨hreceived, hdetected, ?_⟩
      have hmissed : record.measurements.blue_team_detected = false := by
        by_contra hdetected
        rw [hmeasured.detected (Bool.not_eq_false _ ▸ hdetected)] at hfeedback
        cases hfeedback
      rw [hmttd, hmeasured.mttd hmissed]
    | true =>
      rw [confirmed_feedback, if_pos (hmode.trans hfeedback)] at hshown
      injection hshown with hreceived hdetected hmttd
      refine ⟨hreceived, hdetected, hmttd.trans ?_⟩
      split
      · rfl
      · rename_i hmissed
        exact (hmeasured.mttd (Bool.not_eq_true _ ▸ hmissed)).symm
  · intro hsimulated
    refine hpending (confirmed_feedback_of_not ?_)
    rw [hmode, beq_eq_false_iff_ne.mpr hsimulated, Bool.false_and]

theorem seeded_shown : (ScheduleCatalog.seeded : ScheduleCatalog F).shown = [] := rfl

theorem SchedulerState.initial_accounted (audit_path schedules_path : Bool) :
    (SchedulerState.initial audit_path schedules_path : SchedulerState F).Accounted := by
  have hconcluded : (SchedulerState.initial audit_path schedules_path : SchedulerState F).concluded = [] := by
    rw [SchedulerState.concluded, SchedulerState.initial, seeded_shown]
    rfl
  refine ⟨ExecutionState.initial_sound audit_path, ⟨fun handle w hw => ?_, fun i j w w' hw => ?_⟩,
    fun _ => ⟨rfl, rfl, rfl, rfl⟩, fun run_id => ?_, fun run_id hmem => ?_, fun run hrun => ?_⟩
  · cases hw
  · cases hw
  · rw [hconcluded]
    exact Nat.zero_le 1
  · rw [hconcluded] at hmem
    cases hmem
  · cases hrun

theorem SchedulerState.initial_agreeing (audit_path schedules_path : Bool) :
    (SchedulerState.initial audit_path schedules_path : SchedulerState F).Agreeing := by
  have hshown : (SchedulerState.initial audit_path schedules_path : SchedulerState F).schedules.value.shown = [] := by
    rw [SchedulerState.initial, seeded_shown]
  refine ⟨⟨fun entry hentry => ?_, fun entry hentry => ?_, fun handle w hw => ?_⟩, fun record hrecord => ?_,
    fun record h => ?_, fun run_id shown hmem => ?_, fun run_id shown hmem => ?_⟩
  · cases hentry
  · cases hentry
  · cases hw
  · cases hrecord
  · cases h
  · rw [hshown] at hmem
    cases hmem
  · rw [hshown] at hmem
    cases hmem

/-- In every run whose schedule transactions are made in order, over any failed
writes, retries, crashes and restarts, the schedule agrees with the audit. -/
theorem SchedulerState.history_agrees (env : SchedulerEnv F) {audit_path schedules_path : Bool}
    {labels : List SchedulerLabel} {s : SchedulerState F}
    (horder : Transition.Always (SchedulerState.step env) SchedulerState.InOrder
      (.initial audit_path schedules_path) labels)
    (hrun : Transition.run (SchedulerState.step env) (.initial audit_path schedules_path) labels = some s) :
    s.HistoryAgrees := by
  have hpreserved : ∀ (state : SchedulerState F) (label : SchedulerLabel) (next : SchedulerState F),
      state.Accounted ∧ state.Agreeing → state.InOrder label next → state.step env label = some next →
        next.Accounted ∧ next.Agreeing := by
    rintro state label next ⟨haccounted, hagreeing⟩ hcondition hstep
    exact ⟨haccounted.moves (step_moves hstep), hagreeing.moves haccounted hcondition (step_moves hstep)⟩
  obtain ⟨haccounted, hagreeing⟩ := horder.preserves hpreserved
    ⟨initial_accounted audit_path schedules_path, initial_agreeing audit_path schedules_path⟩ hrun
  intro job hjob sample hsample run_id hid hfinished last hlast
  have hmem : (some run_id, sample.shown.2) ∈ s.schedules.value.shown := by
    refine List.mem_flatMap.mpr ⟨job, hjob, List.mem_map.mpr ⟨sample, hsample, ?_⟩⟩
    rw [← hid]
    rfl
  have hlatest := (haccounted.sound.get_eq_latest run_id).symm.trans hlast
  obtain ⟨author, hcommitted⟩ := mem_of_latest hlatest
  refine .of_shown (hagreeing.measured.history _ hcommitted) ?_
  refine (hagreeing.agrees run_id _ hmem hfinished.succeeded last hlatest).resolve_right fun hhandler => ?_
  exact hfinished.applied last hhandler (latest_split hlatest).1

noncomputable def blank_scheduler_env : SchedulerEnv Nat := ⟨blank_env, whole_drift⟩

def ransomware_entry : ScenarioEntry :=
  ⟨"RANSOMWARE_CANARY_SPIKE", "Ransomware Canary Spike", .RedTeam, some ("T1486", "Impact"), "critical"⟩

def detected_feedback : RunFeedbackPayload := ⟨true, some 120, none, false, none, none⟩

/-- An outcome that is recorded with the latest revision of its run is in order. -/
theorem SchedulerState.in_order_flush {s next : SchedulerState F} {disk : Disk}
    (hread : s.flush = .writing ((s.pending.head?.bind PendingOutcome.run_id).bind s.exec.audit.get)) :
    s.InOrder (.flush_commit disk) next := by
  intro _ outcome pending feedback hpending hflush _ run_id hid last hlast
  rw [hpending, List.head?_cons, Option.bind_some, hid, Option.bind_some, hlast, hflush] at hread
  injection hread with hfeedback
  exact Or.inl (hfeedback ▸ rfl)

/-- A request that applies the latest revision of its run is in order. -/
theorem SchedulerState.in_order_apply {s next : SchedulerState F} {handler : Nat} {disk : Disk}
    (hlatest : (s.handlers[handler]?.map AuditRecord.run_id).bind s.exec.audit.get = s.handlers[handler]?) :
    s.InOrder (.apply_feedback handler disk) next := by
  intro _ record hrecord _ last hlast
  rw [hrecord, Option.map_some, Option.bind_some, hlast, Option.some.injEq] at hlatest
  exact Or.inl (hlatest ▸ rfl)

/-- A scheduled run on a runner until the scheduler has read the audit for its
outcome. -/
def scheduled_run : List SchedulerLabel :=
  [.exec .restart, .exec (.recover "2026-09-22T00:00:00Z" (.ok ())),
    .edit (.toggle "SCHED-BASE-RANSOMWARE" true) (.ok ()), .claim 1000 "2026-09-22T00:00:01Z" (.ok ()),
    .start "run-1" ransomware_entry (some "runner-default") "2026-09-22T00:00:01Z", .exec (.append 0 (.ok ())),
    .exec (.insert 0),
    .exec (.dispatch 0 (.ok ()) [.message (.ok (some ⟨2, "COMPLETED", 4, 4096, 12, "", "run-1", true, false⟩))]),
    .exec (.commit 0 "2026-09-22T00:00:03Z" (.ok ())), .exec (.remove 0), .finish "2026-09-22T00:00:03Z", .flush_read]

/-- A Blue Team request up to its audit commit. -/
def feedback_request : List SchedulerLabel :=
  [.exec (.check_feedback .SecOps "run-1" detected_feedback),
    .exec (.commit_feedback 0 "2026-09-22T00:00:04Z" (.ok ()))]

/-- The request commits after the outcome of its run is in the schedule. -/
theorem late_feedback_agrees : ∃ s : SchedulerState Nat,
    Transition.run (SchedulerState.step blank_scheduler_env) (.initial true true)
      (scheduled_run ++ .flush_commit (.ok ()) :: feedback_request ++ [.apply_feedback 0 (.ok ())]) = some s ∧
      (s.schedules.value.shown.map fun entry => entry.2.detected) = [some true] ∧ s.HistoryAgrees := by
  have hread : Transition.run (SchedulerState.step blank_scheduler_env) (.initial true true) scheduled_run =
    some _ := rfl
  have hrequest : Transition.run (SchedulerState.step blank_scheduler_env) (.initial true true)
    (scheduled_run ++ .flush_commit (.ok ()) :: feedback_request) = some _ := rfl
  have hrun : Transition.run (SchedulerState.step blank_scheduler_env) (.initial true true)
    (scheduled_run ++ .flush_commit (.ok ()) :: feedback_request ++ [.apply_feedback 0 (.ok ())]) = some _ := rfl
  refine ⟨_, hrun, rfl, SchedulerState.history_agrees blank_scheduler_env ?_ hrun⟩
  refine .extend hrequest (.extend hread (Transition.always_of_forall ?_ _) fun next _ => ⟨?_, ?_⟩)
    fun next _ => ⟨?_, trivial⟩
  · simp [scheduled_run, SchedulerState.InOrder]
  · exact SchedulerState.in_order_flush rfl
  · exact Transition.always_of_forall (by simp [feedback_request, SchedulerState.InOrder]) _
  · exact SchedulerState.in_order_apply rfl

/-- The request commits and makes its schedule transaction between the read of
the audit for the outcome and the transaction of the outcome. It is answered,
and the schedule never shows its feedback. -/
theorem overtaken_feedback_lost : ∃ s : SchedulerState Nat,
    Transition.run (SchedulerState.step blank_scheduler_env) (.initial true true)
      (scheduled_run ++ feedback_request ++ [.apply_feedback 0 (.ok ()), .flush_commit (.ok ())]) = some s ∧
      ¬ s.HistoryAgrees := by
  have hrun : Transition.run (SchedulerState.step blank_scheduler_env) (.initial true true)
    (scheduled_run ++ feedback_request ++ [.apply_feedback 0 (.ok ()), .flush_commit (.ok ())]) = some _ := rfl
  refine ⟨_, hrun, fun hagrees => ?_⟩
  have hsample := (hagrees _ List.mem_cons_self _ List.mem_cons_self "run-1" rfl ⟨nofun, nofun, nofun⟩ _ rfl).runner rfl
  cases hsample.1

end asmodeus.control_plane
