import Asmodeus.ControlPlane.Registry.Snapshot
import Asmodeus.Lib.Transition

open asmodeus.common

namespace asmodeus.control_plane

/-- A configuration transaction: its mutation has been applied to a clone of the
data, whose snapshots before and after it holds. -/
structure Update where
  mutation : Mutation
  before : RegistrySnapshot
  after : RegistrySnapshot
  written : Bool
  deriving DecidableEq

/-- `writer` is the transaction that holds the writer lock. -/
structure RunnerRegistry where
  data : RegistryData
  writer : Option Update
  path : Bool
  deriving DecidableEq

def RunnerRegistry.new : RunnerRegistry := ⟨.default, none, false⟩

/-- The endpoint of a seed: a bare `host:port` gets a scheme. -/
def RunnerRegistry.default_endpoint (endpoint : String) : String :=
  if "://".toList <:+: endpoint.toList then endpoint else "http://" ++ endpoint

/-- Seed used only when no durable snapshot exists. `epoch` is the token the call
allocates. -/
def RunnerRegistry.with_default (epoch : Nat) (id endpoint : String) (tags : List String) (now : UInt64) :
    RunnerRegistry :=
  let record := RunnerRecord.new id "Default Probe" (default_endpoint endpoint) tags now
  { new with data := (RegistryData.default.register epoch record).2 }

/-- The registry a process starts from, with or without a runner endpoint in its
environment. -/
def RunnerRegistry.with_runner (epoch : Nat) (runner_endpoint : Option String) (now : UInt64) : RunnerRegistry :=
  match runner_endpoint with
  | some endpoint => with_default epoch "default-runner" endpoint ["default", "endpoint_agent"] now
  | none => new

/-- Startup only. A snapshot is authoritative over the registry it is called on.
`path` is the contents of the snapshot file when there is a path. -/
def RunnerRegistry.with_persistence (env : RegistryEnv) (epoch : Nat) (disk : Disk) (self : RunnerRegistry)
    (path : Option (Option (List UInt8))) : Except IoError RunnerRegistry × Option (Option (List UInt8)) :=
  match path with
  | none => (.ok self, none)
  | some (some bytes) => match RegistrySnapshot.decode env bytes with
    | .error e => (.error e, some (some bytes))
    | .ok snapshot => (.ok ⟨snapshot.into_data epoch, none, true⟩, some (some bytes))
  | some none =>
    let snapshot := RegistrySnapshot.from_data self.data
    match snapshot.validate env with
    | .error e => (.error e, some none)
    | .ok () => match snapshot.write disk none with
      | (.error e, file) => (.error e, some file)
      | (.ok (), file) => (.ok ⟨snapshot.into_data epoch, none, true⟩, some file)

/-- How a process gets its registry: without a path, empty or with a default
runner, or with a path from any registry it was seeded with. -/
inductive Startup
  | new
  | with_default (id endpoint : String) (tags : List String) (now : UInt64)
  | with_persistence (seed : RunnerRegistry) (disk : Disk)

/-- The registry, the file of its snapshot, every probe that was begun and the
number of tokens allocated. Probes outlive the registry they were begun on. -/
structure RegistrySystem where
  registry : Option RunnerRegistry
  file : Option (List UInt8)
  probes : List RunnerProbe
  epochs : Nat
  deriving DecidableEq

def RegistrySystem.initial : RegistrySystem := ⟨none, none, [], 0⟩

def RegistrySystem.start (env : RegistryEnv) (self : RegistrySystem) (startup : Startup) : Option RegistrySystem :=
  match self.registry, startup with
  | some _, _ => none
  | none, .new => some { self with registry := some .new }
  | none, .with_default id endpoint tags now =>
    let seed := RunnerRegistry.with_default self.epochs id endpoint tags now
    match seed.with_persistence env (self.epochs + 1) (.ok ()) none with
    | (.error _, _) => some self
    | (.ok registry, _) => some { self with
        registry := some registry
        epochs := self.epochs + 1 }
  | none, .with_persistence seed disk => match seed.with_persistence env self.epochs disk (some self.file) with
    | (.error _, file) => some { self with file := file.join }
    | (.ok registry, file) => some { self with
        registry := some registry
        file := file.join
        epochs := self.epochs + registry.data.runners.length }

/-- `update` up to its write: it takes the writer lock and applies the mutation
to a clone, whose tokens die with it. -/
def RegistrySystem.begin_update (self : RegistrySystem) (mutation : Mutation) : Option RegistrySystem :=
  match self.registry with
  | none => none
  | some registry =>
    if registry.writer.isSome then none
    else
      let next := mutation.apply self.epochs registry.data
      some { self with registry := some { registry with
        writer := some ⟨mutation, .from_data registry.data, .from_data next, false⟩ } }

/-- A runner is routable only after a healthy probe. -/
def RunnerRecord.unverified (self : RunnerRecord) : RunnerRecord :=
  { self with
    status := if self.status ≠ .Draining then .Unresponsive else self.status
    last_heartbeat_utc := none
    cpu_usage_pct := 0
    version := "" }

def RegistrySystem.register (env : RegistryEnv) (self : RegistrySystem) (record : RunnerRecord) :
    Option RegistrySystem :=
  match validate_identity env record.id record.endpoint with
  | .error _ => none
  | .ok () => self.begin_update (.register record.unverified)

/-- The snapshot is written when there is a path and the configuration changed.
A failed write ends the transaction. -/
def RegistrySystem.write (self : RegistrySystem) (disk : Disk) : Option RegistrySystem :=
  match self.registry with
  | none => none
  | some registry => match registry.writer with
    | none => none
    | some update =>
      if update.written then none
      else if registry.path = true ∧ update.before ≠ update.after then
        match update.after.write disk self.file with
        | (.error _, file) => some { self with
            registry := some { registry with writer := none }
            file := file }
        | (.ok (), file) => some { self with
            registry := some { registry with writer := some { update with written := true } }
            file := file }
      else some { self with registry := some { registry with writer := some { update with written := true } } }

/-- The second application of the mutation, to the live data. -/
def RegistrySystem.publish (self : RegistrySystem) : Option RegistrySystem :=
  match self.registry with
  | none => none
  | some registry => match registry.writer with
    | none => none
    | some update =>
      if update.written then
        some { self with
          registry := some { registry with
            data := update.mutation.apply self.epochs registry.data
            writer := none }
          epochs := self.epochs + 1 }
      else none

def RegistrySystem.begin_probe (self : RegistrySystem) (id : String) : Option RegistrySystem :=
  match self.registry with
  | none => none
  | some registry => match registry.data.begin_probe self.epochs id with
    | none => none
    | some (probe, data) => some { self with
        registry := some { registry with data := data }
        probes := self.probes ++ [probe]
        epochs := self.epochs + 1 }

def RegistrySystem.update_heartbeat (self : RegistrySystem) (probe : Nat) (healthy : Bool) (cpu_pct : UInt32)
    (version : String) (now : UInt64) : Option RegistrySystem :=
  match self.registry, self.probes[probe]? with
  | some registry, some probe =>
    let (_, data) := registry.data.update_heartbeat probe healthy cpu_pct version now
    some { self with registry := some { registry with data := data } }
  | _, _ => none

def RegistrySystem.mark_unresponsive (self : RegistrySystem) (probe : Nat) : Option RegistrySystem :=
  match self.registry, self.probes[probe]? with
  | some registry, some probe =>
    let (_, data) := registry.data.mark_unresponsive probe
    some { self with registry := some { registry with data := data } }
  | _, _ => none

/-- The atomic steps of registry callers, of probes and of the process. A probe
is named by its place among those begun; it may be answered at any time. -/
inductive RegistryLabel
  | start (startup : Startup)
  | crash
  | register (record : RunnerRecord)
  | set_draining (id : String) (draining : Bool)
  | deregister (id : String)
  | write (disk : Disk)
  | publish
  | begin_probe (id : String)
  | update_heartbeat (probe : Nat) (healthy : Bool) (cpu_pct : UInt32) (version : String) (now : UInt64)
  | mark_unresponsive (probe : Nat)

def RegistrySystem.step (env : RegistryEnv) (self : RegistrySystem) : RegistryLabel → Option RegistrySystem
  | .start startup => self.start env startup
  | .crash => some { self with registry := none }
  | .register record => self.register env record
  | .set_draining id draining => self.begin_update (.set_draining id draining)
  | .deregister id => self.begin_update (.deregister id)
  | .write disk => self.write disk
  | .publish => self.publish
  | .begin_probe id => self.begin_probe id
  | .update_heartbeat probe healthy cpu_pct version now => self.update_heartbeat probe healthy cpu_pct version now
  | .mark_unresponsive probe => self.mark_unresponsive probe

end asmodeus.control_plane
