import Asmodeus.ControlPlane.Execution.System
import Asmodeus.ControlPlane.Persistent
import Asmodeus.ControlPlane.Scheduler

open asmodeus.common asmodeus.telemetry

namespace asmodeus.control_plane

variable {F : Type}

structure SchedulerEnv (F : Type) where
  exec : Env
  drift : DriftArithmetic F

/-- Where `flush_outcomes` stands: not running, about to read the audit for the
front outcome, or about to commit that outcome with the record it has read. -/
inductive Flush
  | off
  | reading
  | writing (feedback : Option AuditRecord)

/-- A scheduled run whose completion the scheduler awaits. -/
structure ScheduledRun (F : Type) where
  job : ScheduledJob F
  run_id : String
  handle : Nat

/-- The scheduler and the feedback handlers over the executions they share.
`handlers` are the feedback requests between their audit commit and their
schedule transaction, by the record they committed; `failed` are the runs a
feedback request failed for, and `issued` the run ids given out. -/
structure SchedulerState (F : Type) where
  exec : ExecutionState
  schedules : Persistent (ScheduleCatalog F)
  due : List (ScheduledJob F)
  current : Option (ScheduledRun F)
  pending : List PendingOutcome
  flush : Flush
  handlers : List AuditRecord
  failed : List String
  issued : List String

/-- A process that was never started. -/
def SchedulerState.initial (audit_path schedules_path : Bool) : SchedulerState F where
  exec := .initial audit_path
  schedules := ⟨.seeded, schedules_path⟩
  due := []
  current := none
  pending := []
  flush := .off
  handlers := []
  failed := []
  issued := []

/-- The edits of the schedule catalog by its own handlers and at startup. -/
inductive CatalogEdit
  | create (generation id name scenario_id : String) (interval_sec : UInt64) (role : Role)
      (target_override : Option String) (baseline_mttd_ms : Option UInt64) (enabled : Bool) (created_at_utc : String)
  | delete (id : String)
  | toggle (id : String) (enabled : Bool)
  | recover_interrupted

def CatalogEdit.apply (self : CatalogEdit) (catalog : ScheduleCatalog F) : ScheduleCatalog F :=
  match self with
  | .create generation id name scenario_id interval_sec role target_override baseline_mttd_ms enabled created_at_utc =>
    if (catalog.get id).isSome then catalog
    else catalog.register (.create generation id name scenario_id interval_sec role target_override baseline_mttd_ms
      enabled created_at_utc)
  | .delete id => catalog.deregister id
  | .toggle id enabled => catalog.set_enabled id enabled
  | .recover_interrupted => catalog.recover_interrupted

/-- The feedback revisions a step of the executions has committed. -/
def ExecutionState.feedback_since (self next : ExecutionState) : List AuditRecord :=
  (next.history.drop self.history.length).filterMap fun entry =>
    if entry.1 = .feedback then some entry.2 else none

/-- The process is gone, and with it everything in its memory. -/
def SchedulerState.crashed (self : SchedulerState F) (exec : ExecutionState) : SchedulerState F where
  exec := exec
  schedules := self.schedules.reload .seeded
  due := []
  current := none
  pending := []
  flush := .off
  handlers := []
  failed := self.handlers.map AuditRecord.run_id ++ self.failed
  issued := self.issued

/-- A step of the executions. Run ids are never given out twice. A feedback
request goes on to the schedule with the record it committed. -/
def SchedulerState.execute (env : SchedulerEnv F) (self : SchedulerState F) (label : ExecutionLabel) :
    Option (SchedulerState F) :=
  match label with
  | .start id entry role selected now =>
    if id ∈ self.issued then none
    else (self.exec.step env.exec (.start id entry role selected now)).map fun exec =>
      { self with exec := exec, issued := id :: self.issued }
  | label => (self.exec.step env.exec label).map fun exec =>
    match exec.process with
    | .down => self.crashed exec
    | _ => { self with exec := exec, handlers := self.handlers ++ self.exec.feedback_since exec }

def SchedulerState.edit (self : SchedulerState F) (edit : CatalogEdit) (disk : Disk) : SchedulerState F :=
  let (_, schedules) := self.schedules.update disk fun catalog => .ok ((), edit.apply catalog)
  { self with schedules := schedules }

/-- The scheduler claims the due jobs, once nothing is left from the last round. -/
def SchedulerState.claim (self : SchedulerState F) (now : UInt64) (now_utc : String) (disk : Disk) :
    Option (SchedulerState F) :=
  match self.due, self.current, self.pending, self.flush with
  | [], none, [], .off =>
    match self.schedules.update disk fun catalog => .ok (catalog.claim_due now now_utc) with
    | (.error _, schedules) => some { self with schedules := schedules }
    | (.ok due, schedules) => some { self with schedules := schedules, due := due }
  | _, _, _, _ => none

/-- The scheduler queues an outcome and flushes. -/
def SchedulerState.push (self : SchedulerState F) (job : ScheduledJob F) (run_id : Option String)
    (status now : String) :
    SchedulerState F :=
  { self with
    current := none
    pending := self.pending ++ [⟨job.id, job.generation, run_id, status, now⟩]
    flush := .reading }

/-- The job is still what was claimed. -/
def SchedulerState.still_due (self : SchedulerState F) (job : ScheduledJob F) : Bool :=
  (self.schedules.value.get job.id).any fun current =>
    current.enabled && decide (current.generation = job.generation)

/-- The next due job is skipped, or its run could not be started. -/
def SchedulerState.skip (self : SchedulerState F) (now : String) : Option (SchedulerState F) :=
  match self.due, self.current, self.flush with
  | job :: due, none, .off =>
    some { self.push job none (if self.still_due job then "FAILED" else "SKIPPED") now with due := due }
  | _, _, _ => none

/-- The next due job is started. -/
def SchedulerState.start (env : SchedulerEnv F) (self : SchedulerState F) (id : String) (entry : ScenarioEntry)
    (selected : Option String) (now : String) : Option (SchedulerState F) :=
  match self.due, self.current, self.flush with
  | job :: due, none, .off =>
    if self.still_due job = true ∧ entry.id = job.scenario_id ∧ id ∉ self.issued then
      (self.exec.step env.exec (.start id entry job.role selected now)).map fun exec => { self with
        exec := exec
        due := due
        current := some ⟨job, id, self.exec.workers.length⟩
        issued := id :: self.issued }
    else none
  | _, _, _ => none

/-- The status of a run whose worker has returned: its own record if it
succeeded, else whatever terminal record the audit has. -/
def ExecutionState.completed_status (self : ExecutionState) (w : Worker) (run_id : String) : String :=
  let recorded := self.history.find? fun entry => decide (entry.1 = .worker ∧ entry.2.run_id = run_id)
  match recorded with
  | some entry => if w.succeeded then entry.2.status else
    ((self.audit.get run_id).filter fun r => r.is_terminal).elim "FAILED" AuditRecord.status
  | none => ((self.audit.get run_id).filter fun r => r.is_terminal).elim "FAILED" AuditRecord.status

/-- The run id and the status of the outcome: a run that was refused admission
was never started. -/
def ExecutionState.conclusion (self : ExecutionState) (w : Worker) (run_id : String) : Option String × String :=
  if w.phase = .refused then (none, "FAILED") else (some run_id, self.completed_status w run_id)

/-- The awaited run completes. -/
def SchedulerState.finish (self : SchedulerState F) (now : String) : Option (SchedulerState F) :=
  match self.current with
  | some run => match self.exec.workers[run.handle]? with
    | some w =>
      if w.phase.ended then
        let (run_id, status) := self.exec.conclusion w run.run_id
        some (self.push run.job run_id status now)
      else none
    | none => none
  | none => none

/-- The next round retries what the last one could not flush. -/
def SchedulerState.retry (self : SchedulerState F) : Option (SchedulerState F) :=
  match self.due, self.current, self.pending, self.flush with
  | [], none, _ :: _, .off => some { self with flush := .reading }
  | _, _, _, _ => none

/-- The read of the audit for the front outcome. -/
def SchedulerState.flush_read (self : SchedulerState F) : Option (SchedulerState F) :=
  match self.pending, self.flush with
  | outcome :: _, .reading => some { self with flush := .writing (outcome.run_id.bind self.exec.audit.get) }
  | _, _ => none

/-- The schedule transaction of the front outcome. -/
def SchedulerState.flush_commit (env : SchedulerEnv F) (self : SchedulerState F) (disk : Disk) :
    Option (SchedulerState F) :=
  match self.pending, self.flush with
  | outcome :: pending, .writing feedback =>
    let transaction := fun catalog =>
      let catalog := outcome.apply catalog
      match feedback with
      | some record => catalog.record_feedback env.drift record
      | none => catalog
    match self.schedules.update disk fun catalog => .ok ((), transaction catalog) with
    | (.error _, schedules) => some { self with schedules := schedules, flush := .off }
    | (.ok (), schedules) => some { self with
        schedules := schedules
        pending := pending
        flush := if pending.isEmpty then .off else .reading }
  | _, _ => none

/-- The schedule transaction of a feedback request. -/
def SchedulerState.apply_feedback (env : SchedulerEnv F) (self : SchedulerState F) (handler : Nat) (disk : Disk) :
    Option (SchedulerState F) :=
  match self.handlers[handler]? with
  | some record =>
    match self.schedules.update disk fun catalog => .ok ((), catalog.record_feedback env.drift record) with
    | (.error _, schedules) => some { self with
        schedules := schedules
        handlers := self.handlers.eraseIdx handler
        failed := record.run_id :: self.failed }
    | (.ok (), schedules) => some { self with
        schedules := schedules
        handlers := self.handlers.eraseIdx handler }
  | none => none

/-- The atomic steps of the scheduler, of feedback requests and of everybody
else's executions. -/
inductive SchedulerLabel
  | exec (label : ExecutionLabel)
  | edit (edit : CatalogEdit) (disk : Disk)
  | claim (now : UInt64) (now_utc : String) (disk : Disk)
  | skip (now : String)
  | start (id : String) (entry : ScenarioEntry) (selected : Option String) (now : String)
  | finish (now : String)
  | retry
  | flush_read
  | flush_commit (disk : Disk)
  | apply_feedback (handler : Nat) (disk : Disk)

/-- Only the executions move while the process is not serving. -/
def SchedulerState.step (env : SchedulerEnv F) (self : SchedulerState F) (label : SchedulerLabel) :
    Option (SchedulerState F) :=
  match label with
  | .exec label => self.execute env label
  | label =>
    if self.exec.is_serving then
      match label with
      | .edit edit disk => some (self.edit edit disk)
      | .claim now now_utc disk => self.claim now now_utc disk
      | .skip now => self.skip now
      | .start id entry selected now => self.start env id entry selected now
      | .finish now => self.finish now
      | .retry => self.retry
      | .flush_read => self.flush_read
      | .flush_commit disk => self.flush_commit env disk
      | .apply_feedback handler disk => self.apply_feedback env handler disk
      | .exec _ => none
    else none

end asmodeus.control_plane
