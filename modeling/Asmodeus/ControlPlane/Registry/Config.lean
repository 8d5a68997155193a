import Asmodeus.ControlPlane.Registry.Steps

open asmodeus.common

namespace asmodeus.control_plane

/-- The part of the registry that its snapshot makes durable. -/
structure RegistryConfig where
  runners : List RunnerConfig
  require_runner : Bool
  deriving DecidableEq

def RegistryData.config (self : RegistryData) : RegistryConfig :=
  ⟨self.runners.map RegisteredRunner.config, self.require_runner⟩

def RegistryConfig.snapshot (self : RegistryConfig) : RegistrySnapshot :=
  ⟨1, self.require_runner, self.runners.insertionSort fun a b => a.id ≤ b.id⟩

def RunnerRecord.config (self : RunnerRecord) : RunnerConfig :=
  ⟨self.id, self.name, self.endpoint, self.tags, decide (self.status = .Draining), self.registered_at_utc⟩

/-- What a configuration change means, on the configuration alone: no health
takes part in it. -/
def Mutation.configure : Mutation → RegistryConfig → RegistryConfig
  | .register record, config =>
    let runner := match KeyedList.find RunnerConfig.id record.id config.runners with
      | some previous => { record.config with
          draining := previous.draining
          registered_at_utc := previous.registered_at_utc }
      | none => record.config
    ⟨KeyedList.upsert RunnerConfig.id config.runners runner, true⟩
  | .set_draining id draining, config => match KeyedList.find RunnerConfig.id id config.runners with
    | some runner =>
      { config with
        runners := KeyedList.replace RunnerConfig.id id { runner with draining := draining } config.runners }
    | none => config
  | .deregister id, config =>
    { config with runners := config.runners.filter fun runner => decide (runner.id ≠ id) }

section

variable {env : RegistryEnv} {data next : RegistryData}

theorem RegistrySnapshot.from_data_eq (data : RegistryData) :
    RegistrySnapshot.from_data data = data.config.snapshot := rfl

theorem RegistryData.config_find (data : RegistryData) (id : String) :
    KeyedList.find RunnerConfig.id id data.config.runners = (data.get id).map RegisteredRunner.config :=
  KeyedList.find_map (fun _ => rfl) id data.runners

theorem RunnerRecord.replacing_config (record previous : RunnerRecord) :
    (record.replacing previous).config = { record.config with
      draining := previous.config.draining
      registered_at_utc := previous.registered_at_utc } := by
  unfold RunnerRecord.replacing RunnerRecord.config
  dsimp only
  split
  · rfl
  · cases previous.status <;> rfl

theorem RegisteredRunner.set_draining_config (runner : RegisteredRunner) (epoch : Nat) (draining : Bool) :
    (runner.set_draining epoch draining).config = { runner.config with draining := draining } := by
  obtain ⟨⟨id, name, endpoint, tags, status, heartbeat, cpu, version, registered⟩, old⟩ := runner
  cases draining <;> cases status <;> rfl

/-- The two applications of a change agree on the configuration, whatever the
heartbeats and the tokens in between. -/
theorem Mutation.config_apply (mutation : Mutation) (epoch : Nat) (data : RegistryData) :
    (mutation.apply epoch data).config = mutation.configure data.config := by
  have himage : ∀ runner : RegisteredRunner, runner.config.id = runner.id := fun _ => rfl
  cases mutation with
  | register record =>
    have hrunner : RegisteredRunner.config ⟨(data.register epoch record).1, epoch⟩ =
        match KeyedList.find RunnerConfig.id record.id data.config.runners with
        | some previous => { record.config with
            draining := previous.draining
            registered_at_utc := previous.registered_at_utc }
        | none => record.config := by
      rw [RegistryData.config_find, RegistryData.register]
      cases data.get record.id with
      | none => rfl
      | some previous => exact record.replacing_config previous.record
    rw [Mutation.configure, ← hrunner]
    exact congrArg₂ RegistryConfig.mk (KeyedList.map_upsert_view himage data.runners _) rfl
  | set_draining id draining =>
    rw [Mutation.configure, RegistryData.config_find, Mutation.apply, RegistryData.set_draining]
    cases data.get id with
    | none => rfl
    | some runner =>
      have hreplace := KeyedList.map_replace_view himage id (runner.set_draining epoch draining) data.runners
      rw [RegisteredRunner.set_draining_config] at hreplace
      exact congrArg₂ RegistryConfig.mk hreplace rfl
  | deregister id =>
    exact congrArg₂ RegistryConfig.mk (KeyedList.map_filter_view himage id data.runners) rfl

/-- An answer to a probe is no part of the configuration. -/
theorem RegistryData.config_answer (data : RegistryData) (probe : RunnerProbe) {f : RunnerRecord → RunnerRecord}
    (hf : ∀ record, (f record).config = record.config) : (data.answer probe f).2.config = data.config := by
  unfold RegistryData.answer
  cases hprobed : data.probed probe with
  | none => rfl
  | some runner =>
    have hget := (RegistryData.probed_eq_some.mp hprobed).1
    exact congrArg₂ RegistryConfig.mk (KeyedList.map_replace_of_view_eq hget (hf runner.record)) rfl

theorem RunnerRecord.heartbeat_config (record : RunnerRecord) (healthy : Bool) (cpu_pct : UInt32) (version : String)
    (now : UInt64) : (record.heartbeat healthy cpu_pct version now).config = record.config := by
  obtain ⟨id, name, endpoint, tags, status, heartbeat, cpu, version, registered⟩ := record
  cases healthy <;> cases status <;> rfl

theorem RunnerRecord.unresponsive_config (record : RunnerRecord) : record.unresponsive.config = record.config := by
  obtain ⟨id, name, endpoint, tags, status, heartbeat, cpu, version, registered⟩ := record
  cases status <;> rfl

theorem RegistryData.config_begin_probe {epoch : Nat} {id : String} {probe : RunnerProbe}
    (h : data.begin_probe epoch id = some (probe, next)) : next.config = data.config := by
  obtain ⟨runner, hget, heq⟩ := Option.map_eq_some_iff.mp h
  rw [← (Prod.mk.inj heq).2]
  exact congrArg₂ RegistryConfig.mk (KeyedList.map_replace_of_view_eq hget rfl) rfl

/-- Whether data is valid shows in its configuration. -/
theorem RegistryData.Valid.of_config (hvalid : data.Valid env) (hconfig : next.config = data.config) :
    next.Valid env := by
  rw [valid_iff, RegistrySnapshot.from_data_eq, hconfig]
  exact valid_iff.mp hvalid

theorem RegistryData.default_valid : RegistryData.default.Valid env :=
  ⟨List.nodup_nil, fun _ h => (by cases h), fun h => absurd rfl h⟩

/-- A configuration change keeps every id apart, whether or not it is valid. -/
theorem RegistryData.unique_apply (hunique : KeyedList.Unique RegisteredRunner.id data.runners) (mutation : Mutation)
    (epoch : Nat) : KeyedList.Unique RegisteredRunner.id (mutation.apply epoch data).runners := by
  cases mutation with
  | register record => exact hunique.upsert
  | set_draining id draining =>
    rw [Mutation.apply, RegistryData.set_draining]
    cases hget : data.get id with
    | none => exact hunique
    | some old =>
      have hid := old.set_draining_id epoch draining
      exact hunique.replace (hid.trans (KeyedList.find_some hget).2)
  | deregister id => exact hunique.filter _

/-- The ids of the runners are part of the configuration. -/
theorem RegistryData.unique_of_config (hunique : KeyedList.Unique RegisteredRunner.id data.runners)
    (hconfig : next.config = data.config) : KeyedList.Unique RegisteredRunner.id next.runners := by
  have hids : ∀ data : RegistryData, data.runners.map RegisteredRunner.id = data.config.runners.map
    RunnerConfig.id := by
    intro data
    rw [RegistryData.config, List.map_map]
    rfl
  rw [KeyedList.Unique, hids, hconfig, ← hids]
  exact hunique

theorem RegistryData.Valid.apply (hvalid : data.Valid env) {mutation : Mutation}
    (hadmissible : mutation.Admissible env) (epoch : Nat) : (mutation.apply epoch data).Valid env := by
  have hunique := RegistryData.unique_apply hvalid.unique mutation epoch
  have hidentity := hvalid.identity
  have hrequired := hvalid.required
  cases mutation with
  | register record =>
    refine ⟨hunique, fun runner hrunner => ?_, fun _ => rfl⟩
    rcases KeyedList.mem_upsert hrunner with rfl | hrunner
    · have hrecord : validate_identity env record.id record.endpoint = .ok () := hadmissible.2
      cases hget : data.get record.id with
      | none => simpa only [hget] using hrecord
      | some previous => simpa only [hget, RunnerRecord.replacing_id, RunnerRecord.replacing_endpoint] using hrecord
    · exact hidentity runner hrunner
  | set_draining id draining =>
    rw [Mutation.apply, RegistryData.set_draining]
    cases hget : data.get id with
    | none => exact ⟨hvalid.unique, hidentity, hrequired⟩
    | some old =>
      have hmem := (KeyedList.find_some hget).1
      have hid := old.set_draining_id epoch draining
      rw [Mutation.apply, RegistryData.set_draining, hget] at hunique
      refine ⟨hunique, fun runner hrunner => ?_, fun _ => hrequired (List.ne_nil_of_mem hmem)⟩
      rcases KeyedList.mem_replace hrunner with rfl | hrunner
      · rw [hid, RegisteredRunner.set_draining_endpoint]
        exact hidentity old hmem
      · exact hidentity runner hrunner
  | deregister id =>
    refine ⟨hunique, fun runner hrunner => hidentity runner (List.mem_filter.mp hrunner).1, fun hne => ?_⟩
    obtain ⟨runner, hrunner⟩ := List.exists_mem_of_ne_nil _ hne
    exact hrequired (List.ne_nil_of_mem (List.mem_filter.mp hrunner).1)

/-- What the writer relies on: each id is registered once, data with a file is
valid, and the change that is applied keeps it so. The default runner of a process
without a file has not been checked. -/
structure RegistrySystem.Sound (env : RegistryEnv) (s : RegistrySystem) : Prop where
  unique : ∀ registry, s.registry = some registry → KeyedList.Unique RegisteredRunner.id registry.data.runners
  valid : ∀ registry, s.registry = some registry → registry.path = true → registry.data.Valid env
  admissible : ∀ registry update, s.registry = some registry → registry.writer = some update →
    update.mutation.Admissible env

theorem RegistrySystem.initial_sound : initial.Sound env :=
  ⟨fun _ h => (by cases h), fun _ h => (by cases h), fun _ _ h => (by cases h)⟩

theorem RegistrySystem.Sound.of_live {s : RegistrySystem} {registry : RunnerRegistry}
    (hregistry : s.registry = some registry) (hunique : KeyedList.Unique RegisteredRunner.id registry.data.runners)
    (hvalid : registry.path = true → registry.data.Valid env)
    (hadmissible : ∀ update, registry.writer = some update → update.mutation.Admissible env) : s.Sound env := by
  constructor
  · intro live hlive
    obtain rfl := Option.some.inj (hregistry.symm.trans hlive)
    exact hunique
  · intro live hlive
    obtain rfl := Option.some.inj (hregistry.symm.trans hlive)
    exact hvalid
  · intro live update hlive
    obtain rfl := Option.some.inj (hregistry.symm.trans hlive)
    exact hadmissible update

/-- A registry that has just been loaded. -/
theorem RegistrySystem.Sound.of_loaded {s : RegistrySystem} {snapshot : RegistrySnapshot} {epoch : Nat} {path : Bool}
    (hregistry : s.registry = some ⟨snapshot.into_data epoch, none, path⟩) (hvalid : snapshot.validate env = .ok ()) :
    s.Sound env := by
  have hdata := RegistrySnapshot.valid_into_data hvalid epoch
  exact .of_live hregistry hdata.unique (fun _ => hdata) fun _ h => by cases h

/-- The same transaction over data of the same configuration. -/
theorem RegistrySystem.Sound.of_config {s next : RegistrySystem} (hsound : s.Sound env) {registry : RunnerRegistry}
    (hregistry : s.registry = some registry) {data : RegistryData} (hconfig : data.config = registry.data.config)
    (hnext : next.registry = some { registry with data := data }) : next.Sound env := by
  refine .of_live hnext (RegistryData.unique_of_config (hsound.unique registry hregistry) hconfig) ?_ ?_
  · exact fun hpath => (hsound.valid registry hregistry hpath).of_config hconfig
  · exact fun update => hsound.admissible registry update hregistry

theorem RegistrySystem.Sound.moves {s next : RegistrySystem} {label : RegistryLabel} (hsound : s.Sound env)
    (hmoves : s.Moves env label next) : next.Sound env := by
  cases hmoves with
  | start_new hdown =>
    exact .of_live rfl KeyedList.unique_nil (fun _ => RegistryData.default_valid) fun _ h => by cases h
  | start_default id endpoint tags now hdown =>
    refine .of_live rfl ?_ (fun hpath => by cases hpath) fun _ h => by cases h
    exact KeyedList.unique_nil.upsert
  | refuse startup hdown => exact hsound
  | load startup snapshot bytes hdown hfile hdecode => exact .of_loaded rfl (RegistrySnapshot.decode_ok hdecode)
  | seed startup data hdown hfile hvalid => exact .of_loaded rfl (RegistryData.valid_iff.mp hvalid)
  | crash => exact ⟨fun _ h => (by cases h), fun _ h => (by cases h), fun _ _ h => (by cases h)⟩
  | begin_update label registry mutation hlabel hregistry hidle hadmissible =>
    refine .of_live rfl (hsound.unique registry hregistry) (hsound.valid registry hregistry) fun update hupdate => ?_
    obtain rfl := Option.some.inj hupdate
    exact hadmissible
  | fail e registry update hregistry hupdate hpending =>
    exact .of_live rfl (hsound.unique registry hregistry) (hsound.valid registry hregistry) fun _ h => by cases h
  | write registry update hregistry hupdate | skip_write disk registry update hregistry hupdate =>
    refine .of_live rfl (hsound.unique registry hregistry) (hsound.valid registry hregistry) fun written hwritten => ?_
    obtain rfl := Option.some.inj hwritten
    exact hsound.admissible registry update hregistry hupdate
  | publish registry update hregistry hupdate hwritten =>
    have hadmissible := hsound.admissible registry update hregistry hupdate
    refine .of_live rfl ?_ ?_ fun _ h => by cases h
    · exact RegistryData.unique_apply (hsound.unique registry hregistry) update.mutation s.epochs
    · exact fun hpath => (hsound.valid registry hregistry hpath).apply hadmissible s.epochs
  | begin_probe id registry probe data hregistry hprobe =>
    exact hsound.of_config hregistry (RegistryData.config_begin_probe hprobe) rfl
  | update_heartbeat k healthy cpu_pct version now registry probe hregistry hprobe =>
    have hconfig := RegistryData.config_answer registry.data probe
      fun record => record.heartbeat_config healthy cpu_pct version now
    exact hsound.of_config hregistry hconfig rfl
  | mark_unresponsive k registry probe hregistry hprobe =>
    have hconfig := RegistryData.config_answer registry.data probe RunnerRecord.unresponsive_config
    exact hsound.of_config hregistry hconfig rfl

end

end asmodeus.control_plane
