import Asmodeus.ControlPlane.Execution.Workers
import Asmodeus.ControlPlane.Scheduler.System

open asmodeus.common asmodeus.telemetry

namespace asmodeus.control_plane

variable {F : Type}

/-- The catalog with another value in it. -/
def SchedulerState.published (s : SchedulerState F) (catalog : ScheduleCatalog F) : SchedulerState F :=
  { s with schedules := { s.schedules with value := catalog } }

/-- The transaction of an outcome and the record read for it. -/
def flush_transaction (drift : DriftArithmetic F) (outcome : PendingOutcome) (feedback : Option AuditRecord)
    (catalog : ScheduleCatalog F) : ScheduleCatalog F :=
  match feedback with
  | some record => (outcome.apply catalog).record_feedback drift record
  | none => outcome.apply catalog

/-- What one step of the scheduler and its surroundings can do, with everything
its guards established. -/
inductive SchedulerState.Moves (env : SchedulerEnv F) (s : SchedulerState F) :
    SchedulerLabel → SchedulerState F → Prop
  | crash {label : ExecutionLabel} (exec : ExecutionState) (hmoves : s.exec.Moves env.exec label exec)
      (hdown : exec.process = .down) : Moves env s (.exec label) (s.crashed exec)
  | exec_start {id : String} {entry : ScenarioEntry} {role : Role} {selected : Option String} {now : String}
      (exec : ExecutionState) (hmoves : s.exec.Moves env.exec (.start id entry role selected now) exec)
      (hserving : s.exec.is_serving = true) (hstarted : s.exec.Started id exec) (hfresh : id ∉ s.issued) :
      Moves env s (.exec (.start id entry role selected now)) { s with exec := exec, issued := id :: s.issued }
  | exec {label : ExecutionLabel} (exec : ExecutionState) (hmoves : s.exec.Moves env.exec label exec)
      (hup : exec.process ≠ .down)
      (hother : ∀ id entry role selected now, label ≠ .start id entry role selected now) :
      Moves env s (.exec label) { s with exec := exec, handlers := s.handlers ++ s.exec.feedback_since exec }
  | unsaved {label : SchedulerLabel} : Moves env s label s
  | edit {disk : Disk} (edit : CatalogEdit) (hserving : s.exec.is_serving = true) :
      Moves env s (.edit edit disk) (s.published (edit.apply s.schedules.value))
  | claim {disk : Disk} (now : UInt64) (now_utc : String) (hserving : s.exec.is_serving = true)
      (hdue : s.due = []) (hcurrent : s.current = none) :
      Moves env s (.claim now now_utc disk)
        { s.published (s.schedules.value.claim_due now now_utc).2 with
          due := (s.schedules.value.claim_due now now_utc).1 }
  | skip (now : String) (job : ScheduledJob F) (due : List (ScheduledJob F)) (hserving : s.exec.is_serving = true)
      (hdue : s.due = job :: due) (hcurrent : s.current = none) (hflush : s.flush = .off) :
      Moves env s (.skip now)
        { s.push job none (if s.still_due job then "FAILED" else "SKIPPED") now with due := due }
  | start (id : String) (entry : ScenarioEntry) (selected : Option String) (now : String) (job : ScheduledJob F)
      (due : List (ScheduledJob F)) (exec : ExecutionState) (hserving : s.exec.is_serving = true)
      (hmoves : s.exec.Moves env.exec (.start id entry job.role selected now) exec) (hstarted : s.exec.Started id exec)
      (hfresh : id ∉ s.issued) (hdue : s.due = job :: due) (hcurrent : s.current = none) (hflush : s.flush = .off)
      (hstill : s.still_due job = true) (hentry : entry.id = job.scenario_id) :
      Moves env s (.start id entry selected now) { s with
        exec := exec
        due := due
        current := some ⟨job, id, s.exec.workers.length⟩
        issued := id :: s.issued }
  | finish (now : String) (run : ScheduledRun F) (w : Worker) (hserving : s.exec.is_serving = true)
      (hcurrent : s.current = some run) (hw : s.exec.workers[run.handle]? = some w) (hended : w.phase.ended = true) :
      Moves env s (.finish now)
        (s.push run.job (s.exec.conclusion w run.run_id).1 (s.exec.conclusion w run.run_id).2 now)
  | retry (hserving : s.exec.is_serving = true) : Moves env s .retry { s with flush := .reading }
  | flush_read (outcome : PendingOutcome) (pending : List PendingOutcome) (hserving : s.exec.is_serving = true)
      (hpending : s.pending = outcome :: pending) :
      Moves env s .flush_read { s with flush := .writing (outcome.run_id.bind s.exec.audit.get) }
  | flush_fail {disk : Disk} (hserving : s.exec.is_serving = true) :
      Moves env s (.flush_commit disk) { s with flush := .off }
  | flush_commit {disk : Disk} (outcome : PendingOutcome) (pending : List PendingOutcome)
      (feedback : Option AuditRecord) (hserving : s.exec.is_serving = true) (hpending : s.pending = outcome :: pending)
      (hflush : s.flush = .writing feedback) (hdisk : s.schedules.path = true → disk = .ok ()) :
      Moves env s (.flush_commit disk)
        { s.published (flush_transaction env.drift outcome feedback s.schedules.value) with
          pending := pending
          flush := if pending.isEmpty then .off else .reading }
  | feedback_fail {disk : Disk} (handler : Nat) (record : AuditRecord) (hserving : s.exec.is_serving = true)
      (hhandler : s.handlers[handler]? = some record) :
      Moves env s (.apply_feedback handler disk) { s with
        handlers := s.handlers.eraseIdx handler
        failed := record.run_id :: s.failed }
  | apply_feedback {disk : Disk} (handler : Nat) (record : AuditRecord) (hserving : s.exec.is_serving = true)
      (hhandler : s.handlers[handler]? = some record) (hdisk : s.schedules.path = true → disk = .ok ()) :
      Moves env s (.apply_feedback handler disk)
        { s.published (s.schedules.value.record_feedback env.drift record) with
          handlers := s.handlers.eraseIdx handler }

section

variable {env : SchedulerEnv F} {s next : SchedulerState F}

theorem SchedulerState.execute_moves {label : ExecutionLabel} (h : s.execute env label = some next) :
    s.Moves env (.exec label) next := by
  unfold SchedulerState.execute at h
  split at h
  · split at h
    · cases h
    · rename_i hfresh
      obtain ⟨exec, hexec, rfl⟩ := Option.map_eq_some_iff.mp h
      obtain ⟨hserving, hstarted⟩ := ExecutionState.step_start hexec
      exact .exec_start exec (ExecutionState.step_moves hexec) hserving hstarted hfresh
  · rename_i hother
    obtain ⟨exec, hexec, hnext⟩ := Option.map_eq_some_iff.mp h
    have hmoves := ExecutionState.step_moves hexec
    split at hnext
    · rename_i hdown
      exact hnext ▸ .crash exec hmoves hdown
    · rename_i hup
      exact hnext ▸ .exec exec hmoves hup hother

theorem SchedulerState.edit_moves {edit : CatalogEdit} {disk : Disk} (hserving : s.exec.is_serving = true) :
    s.Moves env (.edit edit disk) (s.edit edit disk) := by
  unfold SchedulerState.edit
  cases hupdate : s.schedules.update disk fun catalog => .ok ((), edit.apply catalog) with
  | mk result schedules =>
    obtain ⟨e, rfl, rfl⟩ | ⟨rfl, rfl, -⟩ := Persistent.update_ok_cases hupdate
    · exact .unsaved
    · exact .edit edit hserving

/-- A claim finds nothing left to do, and fails without a trace or commits. -/
theorem SchedulerState.claim_cases {now : UInt64} {now_utc : String} {disk : Disk}
    (h : s.claim now now_utc disk = some next) :
    s.due = [] ∧ s.current = none ∧ s.pending = [] ∧ s.flush = .off ∧
      ((∃ e, s.schedules.update disk (fun catalog => .ok (catalog.claim_due now now_utc)) = (.error e, s.schedules) ∧
          next = s) ∨
        ((s.schedules.update disk fun catalog => .ok (catalog.claim_due now now_utc)).1 =
            .ok (s.schedules.value.claim_due now now_utc).1 ∧
          next = { s.published (s.schedules.value.claim_due now now_utc).2 with
            due := (s.schedules.value.claim_due now now_utc).1 })) := by
  unfold SchedulerState.claim at h
  split at h
  · rename_i hdue hcurrent hpending hflush
    refine ⟨hdue, hcurrent, hpending, hflush, ?_⟩
    cases hupdate : s.schedules.update disk fun catalog => .ok (catalog.claim_due now now_utc) with
    | mk result schedules =>
      rw [hupdate] at h
      obtain ⟨e, rfl, rfl⟩ | ⟨rfl, rfl, -⟩ := Persistent.update_ok_cases hupdate
      · exact Or.inl ⟨e, rfl, (Option.some.inj h).symm⟩
      · exact Or.inr ⟨rfl, (Option.some.inj h).symm⟩
  · cases h

theorem SchedulerState.claim_moves {now : UInt64} {now_utc : String} {disk : Disk}
    (hserving : s.exec.is_serving = true) (h : s.claim now now_utc disk = some next) :
    s.Moves env (.claim now now_utc disk) next := by
  obtain ⟨hdue, hcurrent, -, -, ⟨e, -, rfl⟩ | ⟨-, rfl⟩⟩ := claim_cases h
  · exact .unsaved
  · exact .claim now now_utc hserving hdue hcurrent

theorem SchedulerState.skip_cases {now : String} (h : s.skip now = some next) :
    ∃ job due, s.due = job :: due ∧ s.current = none ∧ s.flush = .off ∧
      next = { s.push job none (if s.still_due job then "FAILED" else "SKIPPED") now with due := due } := by
  unfold SchedulerState.skip at h
  split at h
  · rename_i job due hdue hcurrent hflush
    exact ⟨job, due, hdue, hcurrent, hflush, (Option.some.inj h).symm⟩
  · cases h

theorem SchedulerState.skip_moves {now : String} (hserving : s.exec.is_serving = true)
    (h : s.skip now = some next) : s.Moves env (.skip now) next := by
  obtain ⟨job, due, hdue, hcurrent, hflush, rfl⟩ := skip_cases h
  exact .skip now job due hserving hdue hcurrent hflush

theorem SchedulerState.start_cases {id : String} {entry : ScenarioEntry} {selected : Option String} {now : String}
    (h : s.start env id entry selected now = some next) :
    ∃ job due exec, s.due = job :: due ∧ s.current = none ∧ s.flush = .off ∧ s.still_due job = true ∧
      entry.id = job.scenario_id ∧ id ∉ s.issued ∧ s.exec.step env.exec (.start id entry job.role selected now) =
        some exec ∧
      next = { s with
        exec := exec
        due := due
        current := some ⟨job, id, s.exec.workers.length⟩
        issued := id :: s.issued } := by
  unfold SchedulerState.start at h
  split at h
  · rename_i job due hdue hcurrent hflush
    split at h
    · rename_i hguard
      obtain ⟨hstill, hentry, hfresh⟩ := hguard
      obtain ⟨exec, hexec, rfl⟩ := Option.map_eq_some_iff.mp h
      exact ⟨job, due, exec, hdue, hcurrent, hflush, hstill, hentry, hfresh, hexec, rfl⟩
    · cases h
  · cases h

theorem SchedulerState.start_moves {id : String} {entry : ScenarioEntry} {selected : Option String} {now : String}
    (hserving : s.exec.is_serving = true) (h : s.start env id entry selected now = some next) :
    s.Moves env (.start id entry selected now) next := by
  obtain ⟨job, due, exec, hdue, hcurrent, hflush, hstill, hentry, hfresh, hexec, rfl⟩ := start_cases h
  exact .start id entry selected now job due exec hserving (ExecutionState.step_moves hexec)
    (ExecutionState.step_start hexec).2 hfresh hdue hcurrent hflush hstill hentry

theorem SchedulerState.finish_cases {now : String} (h : s.finish now = some next) :
    ∃ run w, s.current = some run ∧ s.exec.workers[run.handle]? = some w ∧ w.phase.ended = true ∧
      next = s.push run.job (s.exec.conclusion w run.run_id).1 (s.exec.conclusion w run.run_id).2 now := by
  unfold SchedulerState.finish at h
  split at h
  · rename_i run hcurrent
    split at h
    · rename_i w hw
      split at h
      · rename_i hended
        exact ⟨run, w, hcurrent, hw, hended, (Option.some.inj h).symm⟩
      · cases h
    · cases h
  · cases h

theorem SchedulerState.finish_moves {now : String} (hserving : s.exec.is_serving = true)
    (h : s.finish now = some next) : s.Moves env (.finish now) next := by
  obtain ⟨run, w, hcurrent, hw, hended, rfl⟩ := finish_cases h
  exact .finish now run w hserving hcurrent hw hended

theorem SchedulerState.retry_moves (hserving : s.exec.is_serving = true) (h : s.retry = some next) :
    s.Moves env .retry next := by
  unfold SchedulerState.retry at h
  split at h
  · exact Option.some.inj h ▸ .retry hserving
  · cases h

theorem SchedulerState.flush_read_moves (hserving : s.exec.is_serving = true) (h : s.flush_read = some next) :
    s.Moves env .flush_read next := by
  unfold SchedulerState.flush_read at h
  split at h
  · rename_i outcome pending hpending hflush
    exact Option.some.inj h ▸ .flush_read outcome pending hserving hpending
  · cases h

theorem SchedulerState.flush_commit_moves {disk : Disk} (hserving : s.exec.is_serving = true)
    (h : s.flush_commit env disk = some next) : s.Moves env (.flush_commit disk) next := by
  unfold SchedulerState.flush_commit at h
  split at h
  · rename_i outcome pending feedback hpending hflush
    dsimp only at h
    generalize hupdate : s.schedules.update disk _ = update at h
    cases update with
    | mk result schedules =>
      obtain ⟨e, rfl, rfl⟩ | ⟨rfl, rfl, hdisk⟩ := Persistent.update_ok_cases hupdate
      · exact Option.some.inj h ▸ .flush_fail hserving
      · exact Option.some.inj h ▸ .flush_commit outcome pending feedback hserving hpending hflush hdisk
  · cases h

theorem SchedulerState.apply_feedback_moves {handler : Nat} {disk : Disk} (hserving : s.exec.is_serving = true)
    (h : s.apply_feedback env handler disk = some next) : s.Moves env (.apply_feedback handler disk) next := by
  unfold SchedulerState.apply_feedback at h
  split at h
  · rename_i record hhandler
    cases hupdate : s.schedules.update disk fun catalog => .ok ((), catalog.record_feedback env.drift record) with
    | mk result schedules =>
      rw [hupdate] at h
      obtain ⟨e, rfl, rfl⟩ | ⟨rfl, rfl, hdisk⟩ := Persistent.update_ok_cases hupdate
      · exact Option.some.inj h ▸ .feedback_fail handler record hserving hhandler
      · exact Option.some.inj h ▸ .apply_feedback handler record hserving hhandler hdisk
  · cases h

/-- Every step is one of the moves. -/
theorem SchedulerState.step_moves {label : SchedulerLabel} (h : s.step env label = some next) :
    s.Moves env label next := by
  unfold SchedulerState.step at h
  split at h
  · exact execute_moves h
  · split at h
    · rename_i hserving
      split at h
      · exact Option.some.inj h ▸ edit_moves hserving
      · exact claim_moves hserving h
      · exact skip_moves hserving h
      · exact start_moves hserving h
      · exact finish_moves hserving h
      · exact retry_moves hserving h
      · exact flush_read_moves hserving h
      · exact flush_commit_moves hserving h
      · exact apply_feedback_moves hserving h
      · cases h
    · cases h

end

end asmodeus.control_plane
