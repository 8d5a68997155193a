import Asmodeus.Lib.FileTree.Above
import Asmodeus.Runner.Injectors.Scenarios
import Asmodeus.Runner.SignedPlan

open FileTree UnixPath
open asmodeus.dsl

namespace asmodeus.runner

/-- The directory name that every canary root ends in. -/
def scope_name : Component := .normal "asmodeus-canary".toList

/-- The target and what is above it, from the canary root on. -/
def below_scope (target : FsPath) : List FsPath :=
  target.inits.dropWhile fun ancestor => !decide (ancestor.getLast? = some scope_name)

/-- One ancestor of the sandbox: a real directory, made where there is none. -/
def make_ancestor (ancestor : FsPath) : Fs (Except String Unit) := do
  match ← fs.symlink_metadata ancestor with
  | .ok .dir => return .ok ()
  | .ok _ => return .error "sandbox path contains symlink or non-directory"
  | .error .NotFound =>
    match ← fs.create_dir ancestor with
    | .ok () => return .ok ()
    | .error .AlreadyExists =>
      match ← fs.symlink_metadata ancestor with
      | .ok .dir => return .ok ()
      | .ok _ => return .error "unsafe sandbox parent"
      | .error e => return .error (errno_display e)
    | .error e => return .error (errno_display e)
  | .error e => return .error (errno_display e)

/-- The ancestors one after the other, then the directory of the run, which must be new. -/
def make_sandbox (path : FsPath) : List FsPath → Fs (Except String Unit)
  | [] => do
    let made ← fs.create_dir path
    return made.mapError errno_display
  | ancestor :: rest => do
    match ← make_ancestor ancestor with
    | .error e => return .error e
    | .ok () => make_sandbox path rest

/-- `Sandbox::cleanup`. A directory that is gone counts as removed. -/
def Sandbox.cleanup (sandbox : Sandbox) : Fs (Except String Unit) := do
  match ← fs.remove_dir_all (components sandbox.path) with
  | .ok () => return .ok ()
  | .error .NotFound => return .ok ()
  | .error e => return .error (errno_display e)

/-- What a statement of a run has come to on the file system. -/
inductive Effect
  | idle
  | sandbox (result : Except String Unit)
  | file (result : Except InjectError Nat)
  | injected (result : Except InjectError Report)
  | cleaned (result : Except InjectError Unit)
  | removed (result : Except String Unit)

/-- The text of an I/O error alone. -/
def InjectError.text : InjectError → String
  | .OutOfScope p => p
  | .Io e => e

/-- How a step ends: on the file system as it was found, else in any way. -/
def Effect.outcome (o : Outcome) (s : Option (FsTree Component)) : Effect → Outcome
  | .idle => o
  | .sandbox result => { o with sandbox := result }
  | .file result => { o with file := result.mapError InjectError.text }
  | .injected result => { o with injected := result }
  | .cleaned result => { o with cleaned := result, left := s.isSome }
  | .removed result => { o with removed := result }

namespace Worker

/-- The injector of the run's action. -/
def injector (w : Worker) : Except InjectError ScenarioInjector :=
  create_injector (.ok 0) (injector_id w.plan.action) w.sandbox.path w.plan.file_count.toNat w.plan.chunk_size_kb.toNat

/-- The calls of the next statement. -/
def statement (w : Worker) : Fs Effect :=
  match w.pc with
  | .creating => match Sandbox.create w.plan.target_dir w.req.run_id fun _ => .ok () with
    | .error _ => .done .idle
    | .ok sandbox => make_sandbox (components sandbox.path) (below_scope (components w.plan.target_dir.toList)) >>=
        fun result => .done (.sandbox result)
  | .making_dir => (create_dir_all w.sandbox.path).run >>= fun result => .done (.file (result.map fun _ => 0))
  | .writing i _ => (CanaryInjector.encrypt_file w.sandbox.path w.plan.chunk_size_kb.toNat i).run >>=
      fun result => .done (.file result)
  | .injection => match w.injector with
    | .error e => .done (.injected (.error e))
    | .ok injector => injector.inject.run >>= fun result => .done (.injected result)
  | .cleaning _ _ => match w.injector with
    | .error e => .done (.cleaned (.error e))
    | .ok injector => injector.cleanup.run >>= fun result => .done (.cleaned result)
  | .removing _ => w.sandbox.cleanup >>= fun result => .done (.removed result)
  | .dropping _ => w.sandbox.cleanup >>= fun result => .done (.removed result)
  | _ => .done .idle

/-- The directory of the run, as the file system takes it. -/
def key (w : Worker) : FsPath := components (sandbox_dir w.plan w.req)

end Worker

/-- A run on a host: where it stands, and what is left of its statement. -/
structure HostRun where
  worker : Worker
  rest : Fs Effect

def HostRun.spawn (backend : String) (req : ExecuteRequest) (plan : ExecutionPlan) : HostRun :=
  ⟨.spawn backend req plan, (Worker.spawn backend req plan).statement⟩

/-- What a move of a run does not decide. -/
structure Chance where
  reading : Reading
  outcome : Outcome
  fault : Option (Fault Component)

/-- One call of a run, or the end of a statement. -/
def HostRun.move (follow : Option (FsTree Component) → FsPath → FsPath) (run : HostRun) (chance : Chance)
    (t : Option (FsTree Component)) : Option (HostRun × Option (FsTree Component)) :=
  match run.rest with
  | .call op next =>
    let (reply, t) := op.exec follow chance.fault t
    some (⟨run.worker, next reply⟩, t)
  | .done effect =>
    let w := run.worker.step chance.reading (effect.outcome chance.outcome (get run.worker.key t))
    some (⟨w, w.statement⟩, t)

/-- Runs over one file tree. -/
abbrev Host := Pool (Option (FsTree Component)) HostRun

/-- A request and its plan, on a network backend. -/
structure Launch where
  backend : String
  req : ExecuteRequest
  plan : ExecutionPlan

def Launch.key (launch : Launch) : FsPath := components (sandbox_dir launch.plan launch.req)

def Host.start (t : Option (FsTree Component)) (launches : List Launch) : Host :=
  ⟨t, launches.map fun launch => .spawn launch.backend launch.req launch.plan⟩

def Host.step (follow : Option (FsTree Component) → FsPath → FsPath) (host : Host) (label : Nat × Chance) :
    Option Host :=
  Pool.step (HostRun.move follow) host label

end asmodeus.runner
