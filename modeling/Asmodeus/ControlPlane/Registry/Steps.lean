import Asmodeus.ControlPlane.Registry.System

open asmodeus.common

namespace asmodeus.control_plane

/-- What a configuration caller asks for is a change to write: a registered
runner is not active and has a valid identity. -/
def Mutation.Admissible (env : RegistryEnv) : Mutation → Prop
  | .register record => record.status ≠ .Active ∧ validate_identity env record.id record.endpoint = .ok ()
  | .set_draining _ _ => True
  | .deregister _ => True

/-- The change a configuration caller asks for. -/
def RegistryLabel.mutation : RegistryLabel → Option Mutation
  | .register record => some (.register record.unverified)
  | .set_draining id draining => some (.set_draining id draining)
  | .deregister id => some (.deregister id)
  | _ => none

/-- What one step of the registry can do, with everything its guards
established. -/
inductive RegistrySystem.Moves (env : RegistryEnv) (s : RegistrySystem) : RegistryLabel → RegistrySystem → Prop
  | start_new (hdown : s.registry = none) : Moves env s (.start .new) { s with registry := some .new }
  | start_default (id endpoint : String) (tags : List String) (now : UInt64) (hdown : s.registry = none) :
      Moves env s (.start (.with_default id endpoint tags now)) { s with
        registry := some (.with_default s.epochs id endpoint tags now)
        epochs := s.epochs + 1 }
  | refuse (startup : Startup) (hdown : s.registry = none) : Moves env s (.start startup) s
  | load (startup : Startup) (snapshot : RegistrySnapshot) (bytes : List UInt8) (hdown : s.registry = none)
      (hfile : s.file = some bytes) (hdecode : RegistrySnapshot.decode env bytes = .ok snapshot) :
      Moves env s (.start startup) { s with
        registry := some ⟨snapshot.into_data s.epochs, none, true⟩
        epochs := s.epochs + snapshot.runners.length }
  | seed (startup : Startup) (data : RegistryData) (hdown : s.registry = none) (hfile : s.file = none)
      (hvalid : data.Valid env) :
      Moves env s (.start startup) { s with
        registry := some ⟨(RegistrySnapshot.from_data data).into_data s.epochs, none, true⟩
        file := some (Utf8.encode (RegistrySnapshot.from_data data).to_json)
        epochs := s.epochs + (RegistrySnapshot.from_data data).runners.length }
  | crash : Moves env s .crash { s with registry := none }
  | begin_update (label : RegistryLabel) (registry : RunnerRegistry) (mutation : Mutation)
      (hlabel : label.mutation = some mutation) (hregistry : s.registry = some registry)
      (hidle : registry.writer = none) (hadmissible : mutation.Admissible env) :
      Moves env s label { s with registry := some { registry with
        writer := some ⟨mutation, .from_data registry.data,
          .from_data (mutation.apply s.epochs registry.data), false⟩ } }
  | fail (e : IoError) (registry : RunnerRegistry) (update : Update) (hregistry : s.registry = some registry)
      (hupdate : registry.writer = some update) (hpending : update.written = false) :
      Moves env s (.write (.error e)) { s with registry := some { registry with writer := none } }
  | write (registry : RunnerRegistry) (update : Update) (hregistry : s.registry = some registry)
      (hupdate : registry.writer = some update) (hpending : update.written = false) (hpath : registry.path = true)
      (hchange : update.before ≠ update.after) :
      Moves env s (.write (.ok ())) { s with
        registry := some { registry with writer := some { update with written := true } }
        file := some (Utf8.encode update.after.to_json) }
  | skip_write (disk : Disk) (registry : RunnerRegistry) (update : Update) (hregistry : s.registry = some registry)
      (hupdate : registry.writer = some update) (hpending : update.written = false)
      (hsame : registry.path = true → update.before = update.after) :
      Moves env s (.write disk) { s with
        registry := some { registry with writer := some { update with written := true } } }
  | publish (registry : RunnerRegistry) (update : Update) (hregistry : s.registry = some registry)
      (hupdate : registry.writer = some update) (hwritten : update.written = true) :
      Moves env s .publish { s with
        registry := some { registry with
          data := update.mutation.apply s.epochs registry.data
          writer := none }
        epochs := s.epochs + 1 }
  | begin_probe (id : String) (registry : RunnerRegistry) (probe : RunnerProbe) (data : RegistryData)
      (hregistry : s.registry = some registry) (hprobe : registry.data.begin_probe s.epochs id = some (probe, data)) :
      Moves env s (.begin_probe id) { s with
        registry := some { registry with data := data }
        probes := s.probes ++ [probe]
        epochs := s.epochs + 1 }
  | update_heartbeat (k : Nat) (healthy : Bool) (cpu_pct : UInt32) (version : String) (now : UInt64)
      (registry : RunnerRegistry) (probe : RunnerProbe) (hregistry : s.registry = some registry)
      (hprobe : s.probes[k]? = some probe) :
      Moves env s (.update_heartbeat k healthy cpu_pct version now) { s with
        registry := some { registry with
          data := (registry.data.update_heartbeat probe healthy cpu_pct version now).2 } }
  | mark_unresponsive (k : Nat) (registry : RunnerRegistry) (probe : RunnerProbe)
      (hregistry : s.registry = some registry) (hprobe : s.probes[k]? = some probe) :
      Moves env s (.mark_unresponsive k) { s with
        registry := some { registry with data := (registry.data.mark_unresponsive probe).2 } }

section

variable {env : RegistryEnv} {s next : RegistrySystem}

theorem RunnerRecord.unverified_status (record : RunnerRecord) : record.unverified.status ≠ .Active := by
  unfold RunnerRecord.unverified
  dsimp only
  cases record.status <;> decide

theorem RegistrySystem.start_moves {startup : Startup} (h : s.start env startup = some next) :
    s.Moves env (.start startup) next := by
  unfold RegistrySystem.start at h
  split at h
  · cases h
  · rename_i hdown
    exact Option.some.inj h ▸ .start_new hdown
  · rename_i id endpoint tags now hdown
    exact Option.some.inj h ▸ .start_default id endpoint tags now hdown
  · rename_i seed disk hdown
    unfold RunnerRegistry.with_persistence at h
    cases hfile : s.file with
    | some bytes =>
      rw [hfile] at h
      dsimp only at h
      have hsame : { s with file := some bytes } = s := by rw [← hfile]
      cases hdecode : RegistrySnapshot.decode env bytes with
      | error e =>
        rw [hdecode] at h
        dsimp only [Option.join_some] at h
        rw [hsame] at h
        exact Option.some.inj h ▸ .refuse _ hdown
      | ok snapshot =>
        rw [hdecode] at h
        dsimp only [Option.join_some] at h
        obtain rfl := Option.some.inj h
        have hmoves := Moves.load (.with_persistence seed disk) snapshot bytes hdown hfile hdecode
        rw [hfile] at hmoves
        simpa [RegistrySnapshot.into_data] using hmoves
    | none =>
      rw [hfile] at h
      dsimp only at h
      have hsame : { s with file := none } = s := by rw [← hfile]
      cases hvalidate : (RegistrySnapshot.from_data seed.data).validate env with
      | error e =>
        rw [hvalidate] at h
        dsimp only [Option.join_some] at h
        rw [hsame] at h
        exact Option.some.inj h ▸ .refuse _ hdown
      | ok _ =>
        rw [hvalidate] at h
        cases disk with
        | error e =>
          dsimp only [RegistrySnapshot.write, Option.join_some] at h
          rw [hsame] at h
          exact Option.some.inj h ▸ .refuse _ hdown
        | ok _ =>
          dsimp only [RegistrySnapshot.write, Option.join_some] at h
          obtain rfl := Option.some.inj h
          have hmoves := Moves.seed (.with_persistence seed (.ok ())) seed.data hdown hfile
            (RegistryData.valid_iff.mpr hvalidate)
          simpa [RegistrySnapshot.into_data] using hmoves

theorem RegistrySystem.begin_update_moves {mutation : Mutation} {label : RegistryLabel}
    (hlabel : label.mutation = some mutation) (hadmissible : mutation.Admissible env)
    (h : s.begin_update mutation = some next) : s.Moves env label next := by
  unfold RegistrySystem.begin_update at h
  split at h
  · cases h
  · rename_i registry hregistry
    split at h
    · cases h
    · rename_i hidle
      rw [Bool.not_eq_true, Option.isSome_eq_false_iff, Option.isNone_iff_eq_none] at hidle
      exact Option.some.inj h ▸ .begin_update label registry mutation hlabel hregistry hidle hadmissible

theorem RegistrySystem.register_moves {record : RunnerRecord} (h : s.register env record = some next) :
    s.Moves env (.register record) next := by
  unfold RegistrySystem.register at h
  split at h
  · cases h
  · rename_i hidentity
    have hadmissible : (Mutation.register record.unverified).Admissible env :=
      ⟨record.unverified_status, hidentity⟩
    exact begin_update_moves rfl hadmissible h

theorem RegistrySystem.write_moves {disk : Disk} (h : s.write disk = some next) : s.Moves env (.write disk) next := by
  unfold RegistrySystem.write at h
  split at h
  · cases h
  · rename_i registry hregistry
    split at h
    · cases h
    · rename_i update hupdate
      split at h
      · cases h
      · rename_i hpending
        rw [Bool.not_eq_true] at hpending
        split at h
        · rename_i hwrite
          cases disk with
          | error e => exact Option.some.inj h ▸ .fail e registry update hregistry hupdate hpending
          | ok _ => exact Option.some.inj h ▸ .write registry update hregistry hupdate hpending hwrite.1 hwrite.2
        · rename_i hskip
          rw [not_and, not_not] at hskip
          exact Option.some.inj h ▸ .skip_write disk registry update hregistry hupdate hpending hskip

theorem RegistrySystem.publish_moves (h : s.publish = some next) : s.Moves env .publish next := by
  unfold RegistrySystem.publish at h
  split at h
  · cases h
  · rename_i registry hregistry
    split at h
    · cases h
    · rename_i update hupdate
      split at h
      · rename_i hwritten
        exact Option.some.inj h ▸ .publish registry update hregistry hupdate hwritten
      · cases h

theorem RegistrySystem.begin_probe_moves {id : String} (h : s.begin_probe id = some next) :
    s.Moves env (.begin_probe id) next := by
  unfold RegistrySystem.begin_probe at h
  split at h
  · cases h
  · rename_i registry hregistry
    split at h
    · cases h
    · rename_i probe data hprobe
      exact Option.some.inj h ▸ .begin_probe id registry probe data hregistry hprobe

theorem RegistrySystem.update_heartbeat_moves {probe : Nat} {healthy : Bool} {cpu_pct : UInt32} {version : String}
    {now : UInt64} (h : s.update_heartbeat probe healthy cpu_pct version now = some next) :
    s.Moves env (.update_heartbeat probe healthy cpu_pct version now) next := by
  unfold RegistrySystem.update_heartbeat at h
  split at h
  · rename_i registry begun hregistry hprobe
    exact Option.some.inj h ▸ .update_heartbeat probe healthy cpu_pct version now registry begun hregistry hprobe
  · cases h

theorem RegistrySystem.mark_unresponsive_moves {probe : Nat} (h : s.mark_unresponsive probe = some next) :
    s.Moves env (.mark_unresponsive probe) next := by
  unfold RegistrySystem.mark_unresponsive at h
  split at h
  · rename_i registry begun hregistry hprobe
    exact Option.some.inj h ▸ .mark_unresponsive probe registry begun hregistry hprobe
  · cases h

/-- Every step is one of the moves. -/
theorem RegistrySystem.step_moves {label : RegistryLabel} (h : s.step env label = some next) :
    s.Moves env label next := by
  cases label with
  | start startup => exact start_moves h
  | crash => exact Option.some.inj h ▸ .crash
  | register record => exact register_moves h
  | set_draining id draining =>
    have hadmissible : (Mutation.set_draining id draining).Admissible env := trivial
    exact begin_update_moves rfl hadmissible h
  | deregister id =>
    have hadmissible : (Mutation.deregister id).Admissible env := trivial
    exact begin_update_moves rfl hadmissible h
  | write disk => exact write_moves h
  | publish => exact publish_moves h
  | begin_probe id => exact begin_probe_moves h
  | update_heartbeat probe healthy cpu_pct version now => exact update_heartbeat_moves h
  | mark_unresponsive probe => exact mark_unresponsive_moves h

end

end asmodeus.control_plane
