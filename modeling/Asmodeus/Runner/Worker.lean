import Asmodeus.ControlPlane.Dispatch
import Asmodeus.Runner.NetChaos
import Asmodeus.Runner.Request

open asmodeus.dsl
open asmodeus.control_plane (EventKind RunnerEvent)

namespace asmodeus.runner

/-- Milliseconds a worker goes on without a heartbeat. -/
def LEASE : Nat := 3000

inductive InjectError
  | OutOfScope (path : String)
  | Io (message : String)
  deriving DecidableEq

def InjectError.display : InjectError → String
  | .OutOfScope p => "path out of canary scope: " ++ p
  | .Io e => "io error: " ++ e

/-- What an injection did. -/
structure Report where
  files_created : Nat
  bytes_written : Nat
  deriving DecidableEq

def report0 : Report := ⟨0, 0⟩

/-- What surrounds a wait of the whole dwell. -/
inductive Dwell
  | latency
  | canary (report : Report)
  | injected (report : Report)
  deriving DecidableEq

/-- The places that call `check`. -/
inductive CheckPoint
  | entry
  | canary_start
  | canary_file (i bytes : Nat)
  | canary_pause (i bytes stop : Nat)
  | dwell (d : Dwell) (stop : Nat)
  | dwell_end (d : Dwell)
  deriving DecidableEq

/-- The statements of `run_worker` that touch the world. -/
inductive Pc
  | starting
  | creating
  | rejecting (message : String)
  | arming
  | injecting
  | checking (point : CheckPoint)
  | session
  | reverting (waited : Except InjectError Unit)
  | making_canary
  | making_dir
  | writing (i bytes : Nat)
  | pausing (i bytes stop : Nat)
  | making_injector
  | injection
  | cleaning (waited : Except InjectError Unit) (injected : Except InjectError Report)
  | waiting (d : Dwell) (stop : Nat)
  | leaving (result : Except InjectError Report)
  | removing (result : Except InjectError Report)
  | settling (result : Except InjectError Report)
  | reporting (result : Except InjectError Report)
  | dropping (cleaned : Bool)
  | returned (cleaned : Bool)

/-- Clocks and flags as a statement reads them. Times are milliseconds of one
monotonic clock, the CPU delay is in nanoseconds. -/
structure Reading where
  now : Nat
  cancelled : Bool
  closed : Bool
  heartbeat : Nat
  delay : Except String Nat

/-- How the fallible steps end. -/
structure Outcome where
  sandbox : Except String Unit
  apply : Except NetChaosError Nat
  revert : Except NetChaosError Unit
  file : Except String Nat
  injected : Except InjectError Report
  cleaned : Except InjectError Unit
  -- The directory is left in place by the injector's cleanup.
  left : Bool
  removed : Except String Unit

/-- One call of `run_worker`. The fields after `events` are what the outside world
shows of it. -/
structure Worker where
  req : ExecuteRequest
  plan : ExecutionPlan
  backend : String
  pc : Pc
  start : Nat
  state : String
  sandbox : Sandbox
  session : Option RuleHandle
  cleanup_error : Option String
  simulated : Bool
  events : List RunnerEvent
  dir : Bool
  rule : Option RuleHandle
  cleanups : List (Except String Unit)
  injected : Bool
  dwelt : Bool

def Worker.spawn (backend : String) (req : ExecuteRequest) (plan : ExecutionPlan) : Worker where
  req := req
  plan := plan
  backend := backend
  pc := .starting
  start := 0
  state := "Queued"
  sandbox := ⟨[]⟩
  session := none
  cleanup_error := none
  simulated := false
  events := []
  dir := false
  rule := none
  cleanups := []
  injected := false
  dwelt := false

/-- The deadline in seconds: the request may shorten the signed one. -/
def timeout (req : ExecuteRequest) (plan : ExecutionPlan) : UInt32 :=
  if req.timeout_sec = 0 then plan.max_duration_sec else req.timeout_sec

def timeout_ms (req : ExecuteRequest) (plan : ExecutionPlan) : Nat := 1000 * (timeout req plan).toNat

/-- One round of the loop of `check`. -/
inductive CheckResult
  | again
  | passed
  | stopped (e : InjectError)
  deriving DecidableEq

def check (deadline start : Nat) (r : Reading) : CheckResult :=
  if r.cancelled || r.closed then .stopped (.Io "CANCELLED")
  else if deadline ≤ r.now - start then .stopped (.Io "TIMED_OUT")
  else if LEASE ≤ r.now - r.heartbeat then .stopped (.Io "CONTROL_LOST")
  else match r.delay with
    | .error e => .stopped (.Io e)
    | .ok delay => if delay < 1000000 then .passed else .again

def event (kind : EventKind) (state run_id detail : String) (cleanup : Bool) (report : Report) (elapsed : Nat) :
    RunnerEvent where
  kind := kind.number
  state := state
  files_created := UInt32.ofNat report.files_created
  bytes_written := UInt64.ofNat report.bytes_written
  inject_ms := UInt64.ofNat elapsed
  detail := detail
  run_id := run_id
  cleanup_confirmed := cleanup
  simulated := false

/-- The rule of a latency spike. -/
def net_chaos_spec (plan : ExecutionPlan) : NetChaosSpec where
  iface := plan.iface
  target_cidr := plan.target_cidr
  latency_ms := plan.latency_ms
  jitter_ms := plan.jitter_ms
  loss_pct := plan.loss_percent
  duration_ms := max plan.duration_ms 1

/-- `NetChaosSession::start` over the backend's answer. -/
def NetChaosSpec.start (spec : NetChaosSpec) (apply : Except NetChaosError Nat) : Except NetChaosError RuleHandle :=
  match spec.validate with
  | .error e => .error e
  | .ok () => match apply with
    | .error e => .error e
    | .ok token => .ok ⟨spec.iface, spec.target_cidr, token⟩

/-- Every injector refuses a directory out of scope when it is made. -/
def make_injector (dir : List Char) : Except InjectError Unit :=
  if path_in_scope (String.ofList dir) then .ok () else .error (.OutOfScope (String.ofList dir))

/-- The pause after each canary file. -/
def canary_interval_ms (plan : ExecutionPlan) : Nat :=
  if plan.io_rate_per_sec = 0 then 0 else 1000 / plan.io_rate_per_sec.toNat

/-- How the run ends: kind, state, detail and report of the terminal event. -/
def terminal (cleanup_error : Option String) (result : Except InjectError Report) :
    EventKind × String × String × Report :=
  match cleanup_error with
  | some error => (.Failed, "CLEANUP_FAILED", error, report0)
  | none => match result with
    | .ok report => (.Completed, "COMPLETED", "", report)
    | .error err =>
      let detail := err.display
      let has (text : String) : Bool := decide (text.toList <:+: detail.toList)
      if has "CANCELLED" then (.Cancelled, "CANCELLED", detail, report0)
      else if has "TIMED_OUT" then (.TimedOut, "TIMED_OUT", detail, report0)
      else if has "CONTROL_LOST" then (.Failed, "CONTROL_LOST", detail, report0)
      else (.Failed, "FAILED", detail, report0)

namespace Worker

def emit (w : Worker) (state : String) (r : Reading) : Worker :=
  { w with
    state := state
    events := w.events ++ [event .StateChanged state w.req.run_id "" false report0 (r.now - w.start)] }

def enter_wait (w : Worker) (d : Dwell) (r : Reading) : Worker :=
  { w with pc := .waiting d (r.now + w.plan.duration_ms.toNat) }

/-- The loop head of the canary files. -/
def next_file (w : Worker) (i bytes : Nat) (r : Reading) : Worker :=
  if i < w.plan.file_count.toNat then { w with pc := .checking (.canary_file i bytes) }
  else { w with injected := true }.enter_wait (.canary ⟨w.plan.file_count.toNat, bytes⟩) r

/-- After a check that passed. -/
def passed (w : Worker) : CheckPoint → Worker
  | .entry => match w.plan.action with
    | .LatencySpike => { w with simulated := decide (w.backend = "sim"), pc := .session }
    | .SyntheticCanaryEncrypt => { w with pc := .making_canary }
    | _ => { w with pc := .making_injector }
  | .canary_start => { w with pc := .making_dir }
  | .canary_file i bytes => { w with pc := .writing i bytes }
  | .canary_pause i bytes stop => { w with pc := .pausing i bytes stop }
  | .dwell d stop => { w with pc := .waiting d stop }
  | .dwell_end d => match d with
    | .latency => { w with dwelt := true, pc := .reverting (.ok ()) }
    | .canary report => { w with dwelt := true, pc := .leaving (.ok report) }
    | .injected report => { w with dwelt := true, pc := .cleaning (.ok ()) (.ok report) }

/-- After a wait that failed. -/
def interrupted (w : Worker) (e : InjectError) : Dwell → Worker
  | .latency => { w with pc := .reverting (.error e) }
  | .canary _ => { w with pc := .leaving (.error e) }
  | .injected report => { w with pc := .cleaning (.error e) (.ok report) }

/-- After a check that failed. -/
def stopped (w : Worker) (e : InjectError) : CheckPoint → Worker
  | .dwell d _ => w.interrupted e d
  | .dwell_end d => w.interrupted e d
  | _ => { w with pc := .leaving (.error e) }

/-- `session.revert()`, once. -/
def revert (w : Worker) (o : Outcome) : Worker :=
  match w.session with
  | none => w
  | some _ => match o.revert with
    | .ok () => { w with session := none, rule := none, cleanups := w.cleanups ++ [.ok ()] }
    | .error e =>
      { w with session := none, cleanup_error := some e.display, cleanups := w.cleanups ++ [.error e.display] }

/-- `injector.cleanup()`, which may take the directory with it. -/
def clean_injector (w : Worker) (o : Outcome) : Worker :=
  match o.cleaned with
  | .ok () => { w with dir := w.dir && o.left, cleanups := w.cleanups ++ [.ok ()] }
  | .error e =>
    { w with
      dir := w.dir && o.left
      cleanup_error := some e.display
      cleanups := w.cleanups ++ [.error e.display] }

/-- `remove_dir_all` of the sandbox. A directory that is gone counts as removed. -/
def remove_dir_all (w : Worker) (o : Outcome) : Except String Unit := if w.dir then o.removed else .ok ()

def cleanup (w : Worker) (o : Outcome) : Worker :=
  { w with
    dir := w.dir && !(w.remove_dir_all o).isOk
    cleanups := w.cleanups ++ [w.remove_dir_all o] }

/-- One statement of `run_worker`. -/
def step (w : Worker) (r : Reading) (o : Outcome) : Worker :=
  match w.pc with
  | .starting => { { w with start := r.now }.emit "Validated" r with pc := .creating }
  | .creating => match Sandbox.create w.plan.target_dir w.req.run_id fun _ => o.sandbox with
    | .error e => { w with pc := .rejecting e }
    | .ok sandbox => { w with sandbox := sandbox, dir := true, pc := .arming }
  | .rejecting e =>
    { w with
      events := w.events ++ [event .Rejected "REJECTED" w.req.run_id e false report0 (r.now - w.start)]
      pc := .returned false }
  | .arming => { w.emit "Armed" r with pc := .injecting }
  | .injecting => { w.emit "Injecting" r with pc := .checking .entry }
  | .checking point => match check (timeout_ms w.req w.plan) w.start r with
    | .again => w
    | .passed => w.passed point
    | .stopped e => w.stopped e point
  | .session => match (net_chaos_spec w.plan).start o.apply with
    | .error e => { w with pc := .leaving (.error (.Io e.display)) }
    | .ok handle => { w with session := some handle, rule := some handle, injected := true }.enter_wait .latency r
  | .reverting waited => match waited with
    | .error e => { w.revert o with pc := .leaving (.error e) }
    | .ok () => { w.revert o with pc := .leaving (.ok report0) }
  | .making_canary => match make_injector w.sandbox.path with
    | .error e => { w with pc := .leaving (.error e) }
    | .ok () => { w with pc := .checking .canary_start }
  | .making_dir => match o.file with
    | .error e => { w with pc := .leaving (.error (.Io e)) }
    | .ok _ => w.next_file 0 0 r
  | .writing i bytes => match o.file with
    | .error e => { w with pc := .leaving (.error (.Io e)) }
    | .ok read =>
      { w with
        pc := .pausing i (bytes + w.plan.chunk_size_kb.toNat * 1024 + read) (r.now + canary_interval_ms w.plan) }
  | .pausing i bytes stop =>
    if r.now < stop then { w with pc := .checking (.canary_pause i bytes stop) } else w.next_file (i + 1) bytes r
  | .making_injector => match make_injector w.sandbox.path with
    | .error e => { w with pc := .leaving (.error e) }
    | .ok () => { w with pc := .injection }
  | .injection => match o.injected with
    | .error e => { w with pc := .cleaning (.ok ()) (.error e) }
    | .ok report => { w with injected := true }.enter_wait (.injected report) r
  | .cleaning waited injected => match waited with
    | .error e => { w.clean_injector o with pc := .leaving (.error e) }
    | .ok () => { w.clean_injector o with pc := .leaving injected }
  | .waiting d stop =>
    if r.now < stop then { w with pc := .checking (.dwell d stop) } else { w with pc := .checking (.dwell_end d) }
  | .leaving result => { w.emit "Cleanup" r with pc := .removing result }
  | .removing result => match w.remove_dir_all o with
    | .ok () => { w.cleanup o with pc := .settling result }
    | .error e => { w.cleanup o with cleanup_error := some e, pc := .settling result }
  | .settling result => { w with state := (terminal w.cleanup_error result).2.1, pc := .reporting result }
  | .reporting result =>
    let (kind, state, detail, report) := terminal w.cleanup_error result
    let cleaned := w.cleanup_error.isNone
    let ending := event kind state w.req.run_id detail cleaned report (r.now - w.start)
    { w with events := w.events ++ [{ ending with simulated := w.simulated }], pc := .dropping cleaned }
  | .dropping cleaned => { w.cleanup o with pc := .returned cleaned }
  | .returned _ => w

/-- The statements of a call, one after the other. -/
def run (w : Worker) : List (Reading × Outcome) → Worker
  | [] => w
  | (r, o) :: rest => (w.step r o).run rest

end Worker

end asmodeus.runner
