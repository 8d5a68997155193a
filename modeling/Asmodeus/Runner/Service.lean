import Asmodeus.Lib.Transition
import Asmodeus.Runner.Deadline

open asmodeus.dsl

namespace asmodeus.runner

/-- How far the task that awaits a worker has come. -/
inductive Task
  | awaiting
  | stored
  | finished
  deriving DecidableEq

/-- An accepted run: its worker, the flags it shares with requests, and its task. -/
structure Active where
  worker : Worker
  cancelled : Bool
  heartbeat : Nat
  task : Task

def Active.id (self : Active) : String := self.worker.req.run_id

def Active.state (self : Active) : String := self.worker.state

/-- The service. Accepted runs are kept in order of acceptance, and the slot names
one of them. -/
structure RunnerService where
  runs : List Active
  slot : Option Nat
  healthy : Bool

def RunnerService.with_trusted_key : RunnerService := ⟨[], none, true⟩

/-- States that free the slot. -/
def finished_state (state : String) : Bool :=
  ["COMPLETED", "CANCELLED", "TIMED_OUT", "CONTROL_LOST", "FAILED", "CLEANUP_FAILED", "REJECTED"].contains state

structure HeartbeatReply where
  state : String
  healthy : Bool
  active_exercise_id : String
  deriving DecidableEq

structure CancelReply where
  accepted : Bool
  state : String
  deriving DecidableEq

namespace RunnerService

/-- The run in the slot. -/
def active (self : RunnerService) : Option Active := self.slot.bind fun h => self.runs[h]?

/-- Change one accepted run. -/
def update (self : RunnerService) (h : Nat) (f : Active → Active) : RunnerService :=
  { self with runs := self.runs.modify h f }

section

-- The validation of a request, and the name of the backend the build chose.
variable (validate : ExecuteRequest → Except Status ExecutionPlan) (backend : String)

def execute (self : RunnerService) (req : ExecuteRequest) (now : Nat) : Except Status RunnerService :=
  match validate req with
  | .error status => .error status
  | .ok plan =>
    if self.active.any fun current => !finished_state current.state then
      .error (.resource_exhausted "runner is busy")
    else
      .ok { self with
        runs := self.runs ++ [⟨.spawn backend req plan, false, now, .awaiting⟩]
        slot := some self.runs.length }

def heartbeat (self : RunnerService) (exercise_id : String) (now : Nat) : RunnerService × HeartbeatReply :=
  match self.slot, self.active with
  | some h, some active =>
    (if exercise_id = active.id then self.update h fun active => { active with heartbeat := now } else self,
      ⟨active.state, self.healthy, active.id⟩)
  | _, _ => (self, ⟨"Idle", self.healthy, ""⟩)

def cancel (self : RunnerService) (run_id : String) : Except Status (RunnerService × CancelReply) :=
  match self.slot, self.active with
  | some h, some active =>
    if active.id = run_id then
      .ok (self.update h fun active => { active with cancelled := true }, ⟨true, "CANCELLING"⟩)
    else .error (.not_found "active run not found")
  | _, _ => .error (.not_found "active run not found")

/-- One statement of a worker, over the flags of its run. -/
def work (self : RunnerService) (h : Nat) (r : Reading) (o : Outcome) : RunnerService :=
  self.update h fun active =>
    { active with
      worker := active.worker.step { r with cancelled := active.cancelled, heartbeat := active.heartbeat } o }

/-- Requests, workers and tasks take turns. A number names an accepted run. -/
inductive Act
  | execute (req : ExecuteRequest) (now : Nat)
  | heartbeat (exercise_id : String) (now : Nat)
  | cancel (run_id : String)
  | work (h : Nat) (r : Reading) (o : Outcome)
  | store (h : Nat)
  | clear (h : Nat)

def step (self : RunnerService) : Act → Option RunnerService
  | .execute req now => match self.execute validate backend req now with
    | .ok next => some next
    | .error _ => some self
  | .heartbeat exercise_id now => some (self.heartbeat exercise_id now).1
  | .cancel run_id => match self.cancel run_id with
    | .ok (next, _) => some next
    | .error _ => some self
  | .work h r o => some (self.work h r o)
  | .store h => match self.runs[h]? with
    | none => none
    | some run => match run.task, run.worker.pc with
      -- The worker has returned, and its result is the health of the runner.
      | .awaiting, .returned cleaned =>
        some { self.update h fun active => { active with task := .stored } with healthy := cleaned }
      | _, _ => none
  | .clear h => match self.runs[h]? with
    | none => none
    | some run => match run.task with
      | .stored =>
        some { self.update h fun active => { active with task := .finished } with
          slot := if self.slot = some h then none else self.slot }
      | _ => none

theorem step_execute {validate : ExecuteRequest → Except Status ExecutionPlan} {backend : String}
    {self : RunnerService} {req : ExecuteRequest} {plan : ExecutionPlan} {now : Nat} (hplan : validate req = .ok plan)
    (hidle : (self.active.any fun current => !finished_state current.state) = false) :
    self.step validate backend (.execute req now) =
      some { self with
        runs := self.runs ++ [⟨.spawn backend req plan, false, now, .awaiting⟩]
        slot := some self.runs.length } := by
  simp only [step, execute, hplan, hidle, Bool.false_eq_true, if_false]

end

theorem update_get (self : RunnerService) (h k : Nat) (f : Active → Active) :
    (self.update h f).runs[k]? = if h = k then self.runs[k]?.map f else self.runs[k]? := by
  rw [update, List.getElem?_modify]
  split <;> simp

theorem update_length (self : RunnerService) (h : Nat) (f : Active → Active) :
    (self.update h f).runs.length = self.runs.length := by
  rw [update, List.length_modify]

end RunnerService

/-- A run of the default manifest, accepted at time 0. -/
def accepted_run (run_id : String) : Active := ⟨.spawn "sim" (default_request run_id) default_plan, false, 0, .awaiting⟩

def default_validate : ExecuteRequest → Except Status ExecutionPlan :=
  validate default_is_valid default_manifest_serde (some default_key)

/-- The state after a default run is accepted. -/
def accepting (s : RunnerService) (run_id : String) : RunnerService :=
  { s with runs := s.runs ++ [accepted_run run_id], slot := some s.runs.length }

theorem execute_default {s : RunnerService} {run_id : String} (hne : run_id ≠ "") (hsize : run_id.utf8ByteSize ≤ 96)
    (hchars : run_id.toList.all run_id_char = true)
    (hidle : (s.active.any fun current => !finished_state current.state) = false) :
    s.step default_validate "sim" (.execute (default_request run_id) 0) = some (accepting s run_id) :=
  RunnerService.step_execute (default_request_validated hne hsize hchars) hidle

/-- The client has closed the stream. -/
def closed_reading : Reading := ⟨0, false, true, 0, .ok 0⟩

/-- Statements of one worker. -/
def statements (h n : Nat) (removed : Except String Unit) : List RunnerService.Act :=
  List.replicate n (.work h closed_reading (calm_outcome removed))

def worked (s : RunnerService) (h : Nat) (removed : Except String Unit) : Nat → RunnerService
  | 0 => s
  | n + 1 => worked (s.work h closed_reading (calm_outcome removed)) h removed n

theorem run_statements (validate : ExecuteRequest → Except Status ExecutionPlan) (backend : String) (s : RunnerService)
    (h n : Nat) (removed : Except String Unit) :
    Transition.run (RunnerService.step validate backend) s (statements h n removed) =
      some (worked s h removed n) := by
  induction n generalizing s with
  | zero => rfl
  | succ n ih => exact ih (s.work h closed_reading (calm_outcome removed))

/-- One run, closed by its client and cleaned up, up to its terminal state. -/
def first_settled : RunnerService := worked (accepting .with_trusted_key "run_1") 0 (.ok ()) 8

/-- A second one that cannot remove its sandbox. -/
def second_returned : RunnerService := worked (accepting first_settled "run_2") 1 (.error "Permission denied") 10

theorem first_settled_idle : (first_settled.active.any fun current => !finished_state current.state) = false := by
  rfl

/-- The second run is accepted before the task of the first has stored its result. -/
def overlapping : List RunnerService.Act :=
  .execute (default_request "run_1") 0 :: (statements 0 8 (.ok ()) ++
    .execute (default_request "run_2") 0 :: statements 1 10 (.error "Permission denied"))

theorem run_overlapping : Transition.run (RunnerService.step default_validate "sim") .with_trusted_key overlapping =
    some second_returned := by
  rw [overlapping, Transition.run_cons, execute_default (by decide) (by decide) (by decide) rfl, Option.bind_some,
    Transition.run_append, run_statements, Option.bind_some, ← first_settled, Transition.run_cons,
    execute_default (by decide) (by decide) (by decide) first_settled_idle, Option.bind_some, run_statements,
    ← second_returned]

/-- The first one has returned too. -/
def both_returned : RunnerService := worked second_returned 0 (.ok ()) 2

end asmodeus.runner
