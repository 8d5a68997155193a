import Asmodeus.ControlPlane.Execution.Revisions
import Asmodeus.Lib.KeyedList
import Asmodeus.Lib.Transition

open asmodeus.common asmodeus.telemetry

namespace asmodeus.control_plane

/-- What the process is given from outside: the signing primitives and key, the
JSON reader of the log, the check of a loaded record's signature, the case
mapping of text and the text of a gRPC status. -/
structure Env where
  crypto : Crypto
  key : List UInt8
  reader : RecordReader
  verify_with_key : AuditRecord → Bool
  to_uppercase : String → String
  display : Status → String

/-- Where an execution worker stands. It owns admission, execution and the
terminal commit. -/
inductive Phase
  | admitting
  | refused
  | appended
  | running
  | settled
  | committed
  | unsaved
  | finished
  deriving DecidableEq

/-- An execution worker with the record it captured and its `ActiveRun`. -/
structure Worker where
  record : AuditRecord
  category : Category
  mode : Mode
  cancel : Bool
  settlement : Option Settlement
  recorded : Bool
  phase : Phase
  deriving DecidableEq

/-- The queued record is in the audit. -/
def Phase.admitted : Phase → Bool
  | .admitting | .refused => false
  | .appended | .running | .settled | .committed | .unsaved | .finished => true

/-- The queued record is in the audit and no terminal revision is. -/
def Phase.unfinished : Phase → Bool
  | .appended | .running | .settled | .unsaved => true
  | .admitting | .refused | .committed | .finished => false

/-- The run is in the map of runs. -/
def Phase.mapped : Phase → Bool
  | .running | .settled | .committed | .unsaved => true
  | .admitting | .refused | .appended | .finished => false

/-- The worker has returned, and its completion handle resolves. -/
def Phase.ended : Phase → Bool
  | .refused | .unsaved | .finished => true
  | .admitting | .appended | .running | .settled | .committed => false

/-- The completion handle resolves to `Ok`. -/
def Worker.succeeded (w : Worker) : Bool :=
  w.phase == .finished && w.recorded && w.settlement.any fun s => s.error.isNone

/-- A feedback request past its checks, before its audit transaction. -/
structure FeedbackRequest where
  run_id : String
  payload : RunFeedbackPayload

/-- A cancellation of one run, or an abort of all of them when `target` is
absent. `admitted` are the unfinished workers at the start of the request. -/
structure StopRequest where
  role : Role
  target : Option String
  admitted : List Nat
  returned : Bool

/-- The life of the process: stopped, closing the records a restart found
unfinished, or serving. -/
inductive Process
  | down
  | recovering (pending : List AuditRecord)
  | serving

/-- Who committed a revision. Those of `legacy` were in the log before the first
start. -/
inductive Author
  | legacy
  | admission
  | worker
  | feedback
  | recovery
  deriving DecidableEq

/-- The part of the application state that executions share. `runs` maps a run
to its worker; `history` lists every committed revision with its author. -/
structure ExecutionState where
  process : Process
  audit : AuditStore
  history : List (Author × AuditRecord)
  workers : List Worker
  runs : List (String × Nat)
  feedbacks : List FeedbackRequest
  stops : List StopRequest

/-- A process that was never started, on a missing log or without one. -/
def ExecutionState.initial (persistent : Bool) : ExecutionState where
  process := .down
  audit := ⟨.new, .default, if persistent then some none else none⟩
  history := []
  workers := []
  runs := []
  feedbacks := []
  stops := []

/-- A process that was never started, on the log that an earlier version of the
program left. -/
def ExecutionState.inherited (revisions : List AuditRecord) : ExecutionState :=
  { initial true with
    audit := ⟨⟨replay revisions⟩, Aggregate.from_records (replay revisions), some (some (log_bytes revisions))⟩
    history := revisions.map fun record => (.legacy, record) }

def ExecutionState.set_worker (self : ExecutionState) (handle : Nat) (w : Worker) : ExecutionState :=
  { self with workers := self.workers.set handle w }

/-- The process dies: only the log outlives it. -/
def ExecutionState.crash (self : ExecutionState) : ExecutionState :=
  { self with process := .down, workers := [], runs := [], feedbacks := [], stops := [] }

/-- Start the process: load the log, refuse untrusted records. Without a log
nothing of the previous life remains. -/
def ExecutionState.restart (env : Env) (self : ExecutionState) : Option ExecutionState :=
  match self.process with
  | .down => match AuditStore.load env.reader self.audit.log with
    | .error _ => none
    | .ok audit =>
      if audit.trail.records.all env.verify_with_key then
        some { self with
          process := .recovering audit.incomplete
          audit := audit
          history := if self.audit.log.isSome then self.history else [] }
      else none
  | _ => none

/-- One iteration of the startup reconciliation. Its failure ends the process. -/
def ExecutionState.recover (env : Env) (self : ExecutionState) (now : String) (disk : Disk) :
    Option ExecutionState :=
  match self.process with
  | .recovering [] => some { self with process := .serving }
  | .recovering (old :: pending) =>
    match self.audit.recover_record env.crypto env.key now disk old with
    | (.error _, _) => some self.crash
    | (.ok record, audit) => some { self with
        process := .recovering pending
        audit := audit
        history := self.history ++ [(.recovery, record)] }
  | _ => none

/-- `start_scenario_identified` up to the spawn of the worker. -/
def ExecutionState.start (env : Env) (self : ExecutionState) (id : String) (entry : ScenarioEntry)
    (role : Role) (selected : Option String) (now : String) : Option ExecutionState :=
  if role.can entry.category.required_capability then
    match (admission_record id entry role selected now).sign env.crypto env.key with
    | .error _ => none
    | .ok record => some { self with
        workers := self.workers ++ [⟨record, entry.category, selected_mode selected, false, none, false, .admitting⟩] }
  else none

/-- The worker appends its queued record. -/
def ExecutionState.append (self : ExecutionState) (handle : Nat) (disk : Disk) : Option ExecutionState :=
  match self.workers[handle]? with
  | some w =>
    if w.phase = .admitting then
      match self.audit.append disk w.record with
      | (.error _, _) => some (self.set_worker handle { w with phase := .refused })
      | (.ok (), audit) => some { self.set_worker handle { w with phase := .appended } with
          audit := audit
          history := self.history ++ [(.admission, w.record)] }
    else none
  | none => none

/-- The worker enters its `ActiveRun` into the map of runs. -/
def ExecutionState.insert (self : ExecutionState) (handle : Nat) : Option ExecutionState :=
  match self.workers[handle]? with
  | some w =>
    if w.phase = .appended then
      some { self.set_worker handle { w with phase := .running } with
        runs := KeyedList.upsert Prod.fst self.runs (w.record.run_id, handle) }
    else none
  | none => none

/-- The execution of a run returns. -/
def ExecutionState.executed (env : Env) (self : ExecutionState) (handle : Nat)
    (result : Except Status DispatchOutcome) : Option ExecutionState :=
  match self.workers[handle]? with
  | some w =>
    if w.phase = .running then
      some (self.set_worker handle
        { w with phase := .settled, settlement := some (settle env.display w.mode result) })
    else none
  | none => none

/-- The dispatch of a run to its runner returns. -/
def ExecutionState.dispatch (env : Env) (self : ExecutionState) (handle : Nat)
    (opened : Except Status Unit) (rounds : List Round) : Option ExecutionState :=
  match self.workers[handle]? with
  | some w =>
    if w.mode = .runner then
      self.executed env handle (dispatch_controlled env.to_uppercase w.record.run_id opened rounds)
    else none
  | none => none

/-- The in-process simulation of a run ends, as cancelled only when it is. -/
def ExecutionState.simulate (env : Env) (self : ExecutionState) (handle : Nat) (reason : SimulationEnd) :
    Option ExecutionState :=
  match self.workers[handle]? with
  | some w =>
    if w.mode = .simulated ∧ (reason = .cancelled → w.cancel = true) then
      self.executed env handle (.ok (simulation_outcome reason))
    else none
  | none => none

/-- The worker commits its terminal revision on top of the latest one. -/
def ExecutionState.commit (env : Env) (self : ExecutionState) (handle : Nat) (now : String) (disk : Disk) :
    Option ExecutionState :=
  match self.workers[handle]? with
  | some w =>
    match w.phase, w.settlement with
    | .settled, some settlement =>
      match self.audit.update disk w.record.run_id
          (signed_revision env.crypto env.key (terminal_revision w.mode settlement now)) with
      | (.error _, _) => some (self.set_worker handle { w with phase := .unsaved })
      | (.ok none, _) => some (self.set_worker handle { w with phase := .committed })
      | (.ok (some record), audit) =>
        some { self.set_worker handle { w with phase := .committed, recorded := true } with
          audit := audit
          history := self.history ++ [(.worker, record)] }
    | _, _ => none
  | none => none

/-- The worker leaves the map of runs. -/
def ExecutionState.remove (self : ExecutionState) (handle : Nat) : Option ExecutionState :=
  match self.workers[handle]? with
  | some w =>
    if w.phase = .committed then
      some { self.set_worker handle { w with phase := .finished } with
        runs := self.runs.filter fun entry => decide (entry.1 ≠ w.record.run_id) }
    else none
  | none => none

/-- `run_feedback` up to its audit transaction. -/
def ExecutionState.check_feedback (self : ExecutionState) (role : Role) (run_id : String)
    (payload : RunFeedbackPayload) : Option ExecutionState :=
  if role = .Ciso ∨ role = .Auditor then none
  else match self.audit.get run_id with
    | none => none
    | some old =>
      if old.is_terminal then match payload.check with
        | .error _ => none
        | .ok () => some { self with feedbacks := self.feedbacks ++ [⟨run_id, payload⟩] }
      else none

/-- The audit transaction of a checked feedback request. -/
def ExecutionState.commit_feedback (env : Env) (self : ExecutionState) (request : Nat) (now : String)
    (disk : Disk) : Option ExecutionState :=
  match self.feedbacks[request]? with
  | some feedback =>
    let self := { self with feedbacks := self.feedbacks.eraseIdx request }
    match self.audit.update disk feedback.run_id
        (signed_revision env.crypto env.key (feedback_revision feedback.payload now)) with
    | (.error _, _) => some self
    | (.ok none, _) => some self
    | (.ok (some record), audit) => some { self with
        audit := audit
        history := self.history ++ [(.feedback, record)] }
  | none => none

/-- The handles of the workers whose queued record is durable and whose run has
not come to its end. -/
def ExecutionState.unfinished (self : ExecutionState) : List Nat :=
  (List.range self.workers.length).filter fun handle => self.workers[handle]?.any fun w => w.phase.unfinished

/-- `cancel_run` up to its look into the map of runs. A terminal record answers
the request at once. -/
def ExecutionState.begin_cancel (self : ExecutionState) (role : Role) (run_id : String) : Option ExecutionState :=
  match self.audit.get run_id with
  | none => none
  | some record => match Category.from_str record.category with
    | .error _ => none
    | .ok category =>
      if role.can category.required_capability then
        some { self with
          stops := self.stops ++ [⟨role, some run_id, self.unfinished, record.is_terminal⟩] }
      else none

/-- `abort_all` up to its pass over the map of runs. -/
def ExecutionState.begin_abort (self : ExecutionState) (role : Role) : Option ExecutionState :=
  if role.can .RunRedTeam || role.can .InjectChaos then
    some { self with stops := self.stops ++ [⟨role, none, self.unfinished, false⟩] }
  else none

def Worker.cancelled (w : Worker) : Worker := { w with cancel := true }

/-- Set the cancel flag of a run that is in the map. -/
def ExecutionState.cancel_scenario (self : ExecutionState) (run_id : String) : ExecutionState :=
  match KeyedList.find Prod.fst run_id self.runs with
  | some entry => { self with workers := self.workers.modify entry.2 Worker.cancelled }
  | none => self

/-- Set the cancel flag of every run in the map that the role may launch. -/
def ExecutionState.cancel_all (self : ExecutionState) (role : Role) : ExecutionState :=
  { self with
    workers := self.workers.mapIdx fun handle w =>
      if self.runs.any (fun entry => entry.2 == handle) && role.can w.category.required_capability then w.cancelled
      else w }

/-- What a stop request does to the runs in the map. -/
def ExecutionState.stopped (self : ExecutionState) (stop : StopRequest) : ExecutionState :=
  match stop.target with
  | some run_id => self.cancel_scenario run_id
  | none => self.cancel_all stop.role

/-- The look of a stop request into the map of runs, under its lock. -/
def ExecutionState.stop_pass (self : ExecutionState) (request : Nat) : Option ExecutionState :=
  match self.stops[request]? with
  | some stop =>
    if stop.returned then none
    else some { self.stopped stop with stops := self.stops.set request { stop with returned := true } }
  | none => none

/-- The atomic steps of the execution workers, of the requests and of the
process itself. -/
inductive ExecutionLabel
  | crash
  | restart
  | recover (now : String) (disk : Disk)
  | start (id : String) (entry : ScenarioEntry) (role : Role) (selected : Option String) (now : String)
  | append (handle : Nat) (disk : Disk)
  | insert (handle : Nat)
  | dispatch (handle : Nat) (opened : Except Status Unit) (rounds : List Round)
  | simulate (handle : Nat) (reason : SimulationEnd)
  | commit (handle : Nat) (now : String) (disk : Disk)
  | remove (handle : Nat)
  | check_feedback (role : Role) (run_id : String) (payload : RunFeedbackPayload)
  | commit_feedback (request : Nat) (now : String) (disk : Disk)
  | begin_cancel (role : Role) (run_id : String)
  | begin_abort (role : Role)
  | stop_pass (request : Nat)
  | cancel_scenario (run_id : String)

def ExecutionState.is_serving (self : ExecutionState) : Bool :=
  match self.process with
  | .serving => true
  | _ => false

/-- Workers and requests move only while the process is serving. -/
def ExecutionState.step (env : Env) (self : ExecutionState) (label : ExecutionLabel) : Option ExecutionState :=
  match label with
  | .crash => some self.crash
  | .restart => self.restart env
  | .recover now disk => self.recover env now disk
  | label =>
    if self.is_serving then
      match label with
      | .start id entry role selected now => self.start env id entry role selected now
      | .append handle disk => self.append handle disk
      | .insert handle => self.insert handle
      | .dispatch handle opened rounds => self.dispatch env handle opened rounds
      | .simulate handle reason => self.simulate env handle reason
      | .commit handle now disk => self.commit env handle now disk
      | .remove handle => self.remove handle
      | .check_feedback role run_id payload => self.check_feedback role run_id payload
      | .commit_feedback request now disk => self.commit_feedback env request now disk
      | .begin_cancel role run_id => self.begin_cancel role run_id
      | .begin_abort role => self.begin_abort role
      | .stop_pass request => self.stop_pass request
      | .cancel_scenario run_id => some (self.cancel_scenario run_id)
      | _ => none
    else none

end asmodeus.control_plane
