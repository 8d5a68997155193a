import Asmodeus.ControlPlane.Registry.Config

open asmodeus.common

namespace asmodeus.control_plane

/-- The file of a snapshot. -/
def RegistrySnapshot.bytes (self : RegistrySnapshot) : List UInt8 := Utf8.encode self.to_json

/-- The file against the live registry: it holds the live configuration until a
transaction has written, and from then on the configuration the transaction is
about to publish. -/
structure RunnerRegistry.Filed (registry : RunnerRegistry) (file : Option (List UInt8)) : Prop where
  idle : registry.writer = none → file = some (RegistrySnapshot.from_data registry.data).bytes
  pending : ∀ update, registry.writer = some update → update.written = false →
    file = some (RegistrySnapshot.from_data registry.data).bytes ∧ update.before = .from_data registry.data
  written : ∀ update, registry.writer = some update → update.written = true → file = some update.after.bytes
  planned : ∀ update, registry.writer = some update →
    update.after = (update.mutation.configure registry.data.config).snapshot

/-- The invariant of the snapshot file. -/
structure RegistrySystem.Durable (env : RegistryEnv) (s : RegistrySystem) : Prop where
  sound : s.Sound env
  own : ∀ bytes, s.file = some bytes → ∃ data : RegistryData, data.Valid env ∧
    bytes = (RegistrySnapshot.from_data data).bytes
  filed : ∀ registry, s.registry = some registry → registry.path = true → registry.Filed s.file

/-- A step of a probe. -/
def RegistryLabel.probes : RegistryLabel → Bool
  | .begin_probe _ => true
  | .update_heartbeat _ _ _ _ _ => true
  | .mark_unresponsive _ => true
  | _ => false

/-- The same system under another transaction and another file. -/
def RegistrySystem.overlay (writer : Option Update) (file : Option (List UInt8)) (s : RegistrySystem) :
    RegistrySystem :=
  { s with
    registry := s.registry.map fun registry => { registry with writer := writer }
    file := file }

/-- Data as it comes back from the file of a snapshot: the configuration is the
same and no health is known. -/
structure RegistryData.Restored (data restored : RegistryData) : Prop where
  configured : ∀ id, (restored.get id).map RegisteredRunner.config = (data.get id).map RegisteredRunner.config
  require_runner : restored.require_runner = data.require_runner
  unresponsive : ∀ runner ∈ restored.runners, runner.record.status ≠ .Draining → runner.record.status = .Unresponsive

/-- A configuration change keeps what heartbeats have observed, as long as the
runner keeps its endpoint and, for its status and its last heartbeat, is not
resumed. -/
structure RunnerRecord.KeepsHealth (old new : RunnerRecord) : Prop where
  observed : new.endpoint = old.endpoint → new.cpu_usage_pct = old.cpu_usage_pct ∧ new.version = old.version
  drained : new.endpoint = old.endpoint → new.status = .Draining → new.last_heartbeat_utc = old.last_heartbeat_utc
  steady : new.endpoint = old.endpoint → (new.status = .Draining ↔ old.status = .Draining) →
    new.status = old.status ∧ new.last_heartbeat_utc = old.last_heartbeat_utc

section

variable {env : RegistryEnv} {s next : RegistrySystem} {label : RegistryLabel}

theorem RegistryData.Valid.restored {data : RegistryData} (hvalid : data.Valid env) (epoch : Nat) :
    data.Restored ((RegistrySnapshot.from_data data).into_data epoch) := by
  have himage : ∀ runner : RegisteredRunner, runner.config.id = runner.id := fun _ => rfl
  refine ⟨fun id => ?_, rfl, fun runner hrunner hstatus => ?_⟩
  · have hconfig := (RegistrySnapshot.from_data data).config_into_data epoch
    have hunique : KeyedList.Unique RunnerConfig.id (data.runners.map RegisteredRunner.config) := by
      rw [KeyedList.Unique, List.map_map]
      exact hvalid.unique
    rw [← RegistryData.config_find, ← RegistryData.config_find, RegistryData.config, RegistryData.config, hconfig]
    exact hunique.find_perm (from_data_perm data) id
  · obtain ⟨index, hlt, hindex⟩ := List.mem_mapIdx.mp hrunner
    rw [← hindex] at hstatus ⊢
    unfold RunnerConfig.restored at hstatus ⊢
    dsimp only at hstatus ⊢
    split at hstatus
    · exact absurd rfl hstatus
    · rename_i hdraining
      rw [if_neg hdraining]

theorem RunnerRecord.KeepsHealth.refl (record : RunnerRecord) : record.KeepsHealth record :=
  ⟨fun _ => ⟨rfl, rfl⟩, fun _ _ => rfl, fun _ _ => ⟨rfl, rfl⟩⟩

theorem RunnerRecord.keepsHealth_replacing (record previous : RunnerRecord) :
    previous.KeepsHealth (record.replacing previous) := by
  unfold RunnerRecord.replacing
  dsimp only
  split
  · exact ⟨fun _ => ⟨rfl, rfl⟩, fun _ _ => rfl, fun _ _ => ⟨rfl, rfl⟩⟩
  · rename_i hmoved
    exact ⟨fun h => absurd h hmoved, fun h => absurd h hmoved, fun h => absurd h hmoved⟩

theorem RegisteredRunner.keepsHealth_set_draining (runner : RegisteredRunner) (epoch : Nat) (draining : Bool) :
    runner.record.KeepsHealth (runner.set_draining epoch draining).record := by
  unfold RegisteredRunner.set_draining
  split
  · rename_i hdrain
    exact ⟨fun _ => ⟨rfl, rfl⟩, fun _ _ => rfl, fun _ h => absurd (h.mp rfl) hdrain.2⟩
  · split
    · rename_i hresume
      exact ⟨fun _ => ⟨rfl, rfl⟩, fun _ h => (by cases h), fun _ h => (by cases h.mpr hresume.2)⟩
    · exact .refl runner.record

/-- What a change does to a runner that stays registered. -/
theorem Mutation.keepsHealth (mutation : Mutation) (epoch : Nat) (data : RegistryData) {id : String}
    {old runner : RegisteredRunner} (hold : data.get id = some old)
    (hrunner : (mutation.apply epoch data).get id = some runner) : old.record.KeepsHealth runner.record := by
  have hsame : data.get id = some runner → old.record.KeepsHealth runner.record := by
    intro h
    obtain rfl := Option.some.inj (hold.symm.trans h)
    exact .refl _
  cases mutation with
  | register record =>
    rw [Mutation.apply, RegistryData.get_register] at hrunner
    split at hrunner
    · rename_i heq
      subst heq
      rw [Option.some.injEq, RegistryData.register, hold] at hrunner
      exact hrunner ▸ record.keepsHealth_replacing old.record
    · exact hsame hrunner
  | set_draining other draining =>
    rw [Mutation.apply, RegistryData.get_set_draining] at hrunner
    split at hrunner
    · rename_i heq
      subst heq
      rw [hold, Option.map_some, Option.some.injEq] at hrunner
      exact hrunner ▸ old.keepsHealth_set_draining epoch draining
    · exact hsame hrunner
  | deregister other =>
    rw [Mutation.apply, RegistryData.get_remove] at hrunner
    split at hrunner
    · cases hrunner
    · exact hsame hrunner

/-- The file of a snapshot in which nothing is pending. -/
theorem RunnerRegistry.Filed.of_idle {data : RegistryData} {path : Bool} {file : Option (List UInt8)}
    (hfile : file = some (RegistrySnapshot.from_data data).bytes) : (RunnerRegistry.mk data none path).Filed file :=
  ⟨fun _ => hfile, fun _ h => (by cases h), fun _ h => (by cases h), fun _ h => (by cases h)⟩

/-- No probe shows in the file. -/
theorem RunnerRegistry.Filed.of_config {registry : RunnerRegistry} {file : Option (List UInt8)}
    (hfiled : registry.Filed file) {data : RegistryData} (hconfig : data.config = registry.data.config) :
    RunnerRegistry.Filed { registry with data := data } file := by
  have hsnapshot : RegistrySnapshot.from_data data = .from_data registry.data := by
    rw [RegistrySnapshot.from_data_eq, hconfig]
    rfl
  refine ⟨fun h => ?_, fun update h hpending => ?_, hfiled.written, fun update h => ?_⟩
  · rw [hsnapshot]
    exact hfiled.idle h
  · rw [hsnapshot]
    exact hfiled.pending update h hpending
  · rw [hconfig]
    exact hfiled.planned update h

theorem RegistrySystem.initial_durable : initial.Durable env :=
  ⟨initial_sound, fun _ h => (by cases h), fun _ h => (by cases h)⟩

/-- The step lemma of the snapshot file. -/
theorem RegistrySystem.Durable.moves (hdurable : s.Durable env) (hmoves : s.Moves env label next) :
    next.Durable env := by
  have hsound := hdurable.sound.moves hmoves
  cases hmoves with
  | start_new hdown =>
    refine ⟨hsound, hdurable.own, fun registry hregistry hpath => ?_⟩
    obtain rfl := Option.some.inj hregistry
    cases hpath
  | start_default id endpoint tags now hdown =>
    refine ⟨hsound, hdurable.own, fun registry hregistry hpath => ?_⟩
    obtain rfl := Option.some.inj hregistry
    cases hpath
  | refuse startup hdown => exact hdurable
  | load startup snapshot bytes hdown hfile hdecode =>
    refine ⟨hsound, hdurable.own, fun registry hregistry _ => ?_⟩
    obtain ⟨data, hvalid, rfl⟩ := hdurable.own bytes hfile
    obtain rfl := Except.ok.inj (hdecode.symm.trans hvalid.decode)
    obtain rfl := Option.some.inj hregistry
    exact .of_idle (by rw [from_data_into_data]; exact hfile)
  | seed startup data hdown hfile hvalid =>
    refine ⟨hsound, fun bytes hbytes => ⟨data, hvalid, (Option.some.inj hbytes).symm⟩, fun registry hregistry _ => ?_⟩
    obtain rfl := Option.some.inj hregistry
    exact .of_idle (by rw [from_data_into_data]; rfl)
  | crash => exact ⟨hsound, hdurable.own, fun _ h => by cases h⟩
  | begin_update label registry mutation hlabel hregistry hidle hadmissible =>
    refine ⟨hsound, hdurable.own, fun live hlive hpath => ?_⟩
    obtain rfl := Option.some.inj hlive
    have hfiled := hdurable.filed registry hregistry hpath
    refine ⟨fun h => (by cases h), fun update h _ => ?_, fun update h hwritten => ?_, fun update h => ?_⟩
    · obtain rfl := Option.some.inj h
      exact ⟨hfiled.idle hidle, rfl⟩
    · obtain rfl := Option.some.inj h
      cases hwritten
    · obtain rfl := Option.some.inj h
      exact (RegistrySnapshot.from_data_eq _).trans (congrArg _ (mutation.config_apply _ _))
  | fail e registry update hregistry hupdate hpending =>
    refine ⟨hsound, hdurable.own, fun live hlive hpath => ?_⟩
    obtain rfl := Option.some.inj hlive
    exact .of_idle ((hdurable.filed registry hregistry hpath).pending update hupdate hpending).1
  | write registry update hregistry hupdate hpending hpath hchange =>
    have hfiled := hdurable.filed registry hregistry hpath
    have hplanned : update.after = .from_data (update.mutation.apply s.epochs registry.data) :=
      (hfiled.planned update hupdate).trans (congrArg _ (update.mutation.config_apply _ _).symm)
    refine ⟨hsound, fun bytes hbytes => ?_, fun live hlive _ => ?_⟩
    · have hvalid := hdurable.sound.valid registry hregistry hpath
      have hadmissible := hdurable.sound.admissible registry update hregistry hupdate
      exact ⟨_, hvalid.apply hadmissible s.epochs, by rw [← hplanned]; exact (Option.some.inj hbytes).symm⟩
    · obtain rfl := Option.some.inj hlive
      refine ⟨fun h => (by cases h), fun written h hpending => ?_, fun written h _ => ?_, fun written h => ?_⟩
      · obtain rfl := Option.some.inj h
        cases hpending
      · obtain rfl := Option.some.inj h
        rfl
      · obtain rfl := Option.some.inj h
        exact hfiled.planned update hupdate
  | skip_write disk registry update hregistry hupdate hpending hsame =>
    refine ⟨hsound, hdurable.own, fun live hlive hpath => ?_⟩
    obtain rfl := Option.some.inj hlive
    have hfiled := hdurable.filed registry hregistry hpath
    obtain ⟨hfile, hbefore⟩ := hfiled.pending update hupdate hpending
    refine ⟨fun h => (by cases h), fun written h hpending => ?_, fun written h _ => ?_, fun written h => ?_⟩
    · obtain rfl := Option.some.inj h
      cases hpending
    · obtain rfl := Option.some.inj h
      dsimp only
      rw [hfile, ← hsame hpath, hbefore]
    · obtain rfl := Option.some.inj h
      exact hfiled.planned update hupdate
  | publish registry update hregistry hupdate hwritten =>
    refine ⟨hsound, hdurable.own, fun live hlive hpath => ?_⟩
    obtain rfl := Option.some.inj hlive
    have hfiled := hdurable.filed registry hregistry hpath
    refine .of_idle ((hfiled.written update hupdate hwritten).trans ?_)
    rw [hfiled.planned update hupdate, RegistrySnapshot.from_data_eq, update.mutation.config_apply]
  | begin_probe id registry probe data hregistry hprobe =>
    refine ⟨hsound, hdurable.own, fun live hlive hpath => ?_⟩
    obtain rfl := Option.some.inj hlive
    exact (hdurable.filed registry hregistry hpath).of_config (RegistryData.config_begin_probe hprobe)
  | update_heartbeat k healthy cpu_pct version now registry probe hregistry hprobe =>
    refine ⟨hsound, hdurable.own, fun live hlive hpath => ?_⟩
    obtain rfl := Option.some.inj hlive
    exact (hdurable.filed registry hregistry hpath).of_config
      (RegistryData.config_answer registry.data probe fun record => record.heartbeat_config healthy cpu_pct version now)
  | mark_unresponsive k registry probe hregistry hprobe =>
    refine ⟨hsound, hdurable.own, fun live hlive hpath => ?_⟩
    obtain rfl := Option.some.inj hlive
    exact (hdurable.filed registry hregistry hpath).of_config
      (RegistryData.config_answer registry.data probe RunnerRecord.unresponsive_config)

/-- Probes see neither the transaction nor the file. -/
theorem RegistrySystem.step_overlay (writer : Option Update) (file : Option (List UInt8)) (s : RegistrySystem)
    (hprobe : label.probes = true) :
    (s.overlay writer file).step env label = (s.step env label).map (overlay writer file) := by
  obtain ⟨registry, own, probes, epochs⟩ := s
  cases label with
  | begin_probe id =>
    cases registry with
    | none => rfl
    | some registry =>
      simp only [RegistrySystem.step, RegistrySystem.begin_probe, overlay, Option.map_some]
      cases registry.data.begin_probe epochs id <;> rfl
  | update_heartbeat k healthy cpu_pct version now =>
    simp only [RegistrySystem.step, RegistrySystem.update_heartbeat, overlay]
    cases registry <;> cases probes[k]? <;> rfl
  | mark_unresponsive k =>
    simp only [RegistrySystem.step, RegistrySystem.mark_unresponsive, overlay]
    cases registry <;> cases probes[k]? <;> rfl
  | start | crash | register | set_draining | deregister | write | publish => cases hprobe

theorem RegistrySystem.run_overlay (writer : Option Update) (file : Option (List UInt8)) {labels : List RegistryLabel}
    (hprobes : ∀ label ∈ labels, label.probes = true) (s : RegistrySystem) :
    Transition.run (step env) (s.overlay writer file) labels =
      (Transition.run (step env) s labels).map (overlay writer file) := by
  induction labels generalizing s with
  | nil => rfl
  | cons label labels ih =>
    rw [Transition.run_cons, Transition.run_cons, step_overlay writer file s (hprobes label List.mem_cons_self)]
    cases s.step env label with
    | none => rfl
    | some next => exact ih (fun l hl => hprobes l (List.mem_cons_of_mem _ hl)) next

theorem RegistryLabel.mutation_of_probes (hprobe : label.probes = true) : label.mutation = none := by
  cases label with
  | begin_probe | update_heartbeat | mark_unresponsive | start | crash | write | publish => rfl
  | register | set_draining | deregister => cases hprobe

/-- What probes leave alone: the file, the transaction and the configuration. -/
theorem RegistrySystem.run_probes {labels : List RegistryLabel} (hprobes : ∀ label ∈ labels, label.probes = true)
    {registry : RunnerRegistry} (hregistry : s.registry = some registry)
    (hrun : Transition.run (step env) s labels = some next) :
    next.file = s.file ∧ ∃ live, next.registry = some live ∧ live.writer = registry.writer ∧ live.path = registry.path ∧
      live.data.config = registry.data.config := by
  induction labels generalizing s registry with
  | nil =>
    rw [Transition.run_nil, Option.some.injEq] at hrun
    subst hrun
    exact ⟨rfl, registry, hregistry, rfl, rfl, rfl⟩
  | cons label labels ih =>
    obtain ⟨middle, hstep, hrest⟩ := Transition.run_cons_eq_some.mp hrun
    have hprobe := hprobes label List.mem_cons_self
    have hone : middle.file = s.file ∧ ∃ live, middle.registry = some live ∧ live.writer = registry.writer ∧
        live.path = registry.path ∧ live.data.config = registry.data.config := by
      have hmoves := step_moves hstep
      cases hmoves with
      | begin_probe id live probe data hlive hbegun =>
        obtain rfl := Option.some.inj (hregistry.symm.trans hlive)
        exact ⟨rfl, _, rfl, rfl, rfl, RegistryData.config_begin_probe hbegun⟩
      | update_heartbeat k healthy cpu_pct version now live probe hlive hbegun =>
        obtain rfl := Option.some.inj (hregistry.symm.trans hlive)
        exact ⟨rfl, _, rfl, rfl, rfl, RegistryData.config_answer registry.data probe
          fun record => record.heartbeat_config healthy cpu_pct version now⟩
      | mark_unresponsive k live probe hlive hbegun =>
        obtain rfl := Option.some.inj (hregistry.symm.trans hlive)
        exact ⟨rfl, _, rfl, rfl, rfl, RegistryData.config_answer registry.data probe RunnerRecord.unresponsive_config⟩
      | begin_update label live mutation hlabel =>
        rw [RegistryLabel.mutation_of_probes hprobe] at hlabel
        cases hlabel
      | start_new | start_default | refuse | load | seed | crash | fail | write | skip_write | publish => cases hprobe
    obtain ⟨hfile, live, hlive, hwriter, hpath, hconfig⟩ := hone
    obtain ⟨hfile', live', hlive', hwriter', hpath', hconfig'⟩ :=
      ih (fun l hl => hprobes l (List.mem_cons_of_mem _ hl)) hlive hrest
    exact ⟨hfile'.trans hfile, live', hlive', hwriter'.trans hwriter, hpath'.trans hpath, hconfig'.trans hconfig⟩

theorem RegistrySystem.overlay_self {registry : RunnerRegistry} (hregistry : s.registry = some registry)
    (hidle : registry.writer = none) : s.overlay none s.file = s := by
  have hsame : { registry with writer := none } = registry := by rw [← hidle]
  rw [overlay, hregistry, Option.map_some, hsame, ← hregistry]

/-- The start of a transaction shows in the writer only. -/
theorem RegistrySystem.begin_update_overlay {registry : RunnerRegistry} {mutation : Mutation}
    (hregistry : s.registry = some registry) (hlabel : label.mutation = some mutation)
    (hstep : s.step env label = some next) :
    ∃ update : Update, update.mutation = mutation ∧ update.written = false ∧
      next = s.overlay (some update) s.file := by
  have hmoves := step_moves hstep
  cases hmoves with
  | begin_update label live mutation' hlabel' hlive =>
    obtain rfl := Option.some.inj (hlabel.symm.trans hlabel')
    obtain rfl := Option.some.inj (hregistry.symm.trans hlive)
    exact ⟨_, rfl, rfl, by rw [overlay, hregistry]; rfl⟩
  | start_new | start_default | refuse | load | seed | crash | fail | write | skip_write | publish | begin_probe
    | update_heartbeat | mark_unresponsive => cases hlabel

/-- A failed transaction leaves no trace: the probes alone lead to the same state. -/
theorem RegistrySystem.run_failed {registry failed : RunnerRegistry} {mutation : Mutation} {probes : List RegistryLabel}
    {e : IoError} {pending : RegistrySystem} (hregistry : s.registry = some registry) (hidle : registry.writer = none)
    (hlabel : label.mutation = some mutation) (hprobes : ∀ l ∈ probes, l.probes = true)
    (hrun : Transition.run (step env) s (label :: probes) = some pending)
    (hwrite : pending.step env (.write (.error e)) = some next) (hfailed : next.registry = some failed)
    (hover : failed.writer = none) : Transition.run (step env) s probes = some next := by
  obtain ⟨begun, hbegin, hrest⟩ := Transition.run_cons_eq_some.mp hrun
  obtain ⟨update, -, hpending, rfl⟩ := begin_update_overlay hregistry hlabel hbegin
  rw [run_overlay _ _ hprobes, Option.map_eq_some_iff] at hrest
  obtain ⟨t, ht, rfl⟩ := hrest
  obtain ⟨hfile, live, hlive, hwriter, -, -⟩ := run_probes hprobes hregistry ht
  have hmoves := step_moves hwrite
  cases hmoves with
  | fail _ before pending' hbefore hupdate hpending' =>
    rw [overlay, hlive, Option.map_some, Option.some.injEq] at hbefore
    rw [ht, ← overlay_self hlive (hwriter.trans hidle), hfile, ← hbefore]
    simp only [overlay, hlive, Option.map_some]
  | skip_write _ before pending' hbefore hupdate hpending' hsame =>
    obtain rfl := Option.some.inj hfailed
    cases hover
  | begin_update _ _ _ hlabel' => cases hlabel'

/-- A successful transaction happens at its second application: it acts on what
the probes have made of the live data by then. -/
theorem RegistrySystem.run_committed {registry : RunnerRegistry} {mutation : Mutation} {disk : Disk}
    {before after : List RegistryLabel} (hregistry : s.registry = some registry)
    (hlabel : label.mutation = some mutation) (hbefore : ∀ l ∈ before, l.probes = true)
    (hafter : ∀ l ∈ after, l.probes = true)
    (hrun : Transition.run (step env) s (label :: (before ++ .write disk :: (after ++ [.publish]))) = some next) :
    ∃ t live committed, Transition.run (step env) s (before ++ after) = some t ∧ t.registry = some live ∧
      next.registry = some committed ∧ committed.data = mutation.apply t.epochs live.data := by
  obtain ⟨begun, hbegin, hrest⟩ := Transition.run_cons_eq_some.mp hrun
  obtain ⟨update, hmutation, hpending, rfl⟩ := begin_update_overlay hregistry hlabel hbegin
  obtain ⟨pending, hfirst, hrest⟩ := Transition.run_append_eq_some.mp hrest
  rw [run_overlay _ _ hbefore, Option.map_eq_some_iff] at hfirst
  obtain ⟨t, ht, rfl⟩ := hfirst
  obtain ⟨-, live, hlive, -, -, -⟩ := run_probes hbefore hregistry ht
  obtain ⟨written, hwrite, hrest⟩ := Transition.run_cons_eq_some.mp hrest
  obtain ⟨ready, hsecond, hpublish⟩ := Transition.run_snoc_eq_some.mp hrest
  have hstarted : (t.overlay (some update) s.file).registry = some { live with writer := some update } := by
    rw [overlay, hlive, Option.map_some]
  have hwritten : ∃ writer file, written = t.overlay writer file ∧
      ∀ u, writer = some u → u.mutation = mutation := by
    have hmoves := step_moves hwrite
    cases hmoves with
    | fail e live' update' hlive' hupdate' =>
      obtain rfl := Option.some.inj (hstarted.symm.trans hlive')
      exact ⟨none, s.file, by rw [overlay, overlay, hlive]; rfl, fun _ h => by cases h⟩
    | write live' update' hlive' hupdate' =>
      obtain rfl := Option.some.inj (hstarted.symm.trans hlive')
      obtain rfl := Option.some.inj hupdate'
      refine ⟨some { update with written := true }, some update.after.bytes, ?_, fun u hu => ?_⟩
      · rw [overlay, overlay, hlive]
        rfl
      · obtain rfl := Option.some.inj hu
        exact hmutation
    | skip_write disk live' update' hlive' hupdate' =>
      obtain rfl := Option.some.inj (hstarted.symm.trans hlive')
      obtain rfl := Option.some.inj hupdate'
      refine ⟨some { update with written := true }, s.file, ?_, fun u hu => ?_⟩
      · rw [overlay, overlay, hlive]
        rfl
      · obtain rfl := Option.some.inj hu
        exact hmutation
    | begin_update _ _ _ hlabel' => cases hlabel'
  obtain ⟨writer, file, rfl, hkept⟩ := hwritten
  rw [run_overlay _ _ hafter, Option.map_eq_some_iff] at hsecond
  obtain ⟨t', ht', rfl⟩ := hsecond
  obtain ⟨-, live', hlive', -, -, -⟩ := run_probes hafter hlive ht'
  refine ⟨t', live', ?_⟩
  have hmoves := step_moves hpublish
  cases hmoves with
  | publish ready pending hready hwriter hwritten =>
    rw [overlay, hlive', Option.map_some, Option.some.injEq] at hready
    subst hready
    refine ⟨_, Transition.run_append_eq_some.mpr ⟨t, ht, ht'⟩, hlive', rfl, ?_⟩
    rw [← hkept pending hwriter]
    rfl
  | begin_update _ _ _ hlabel' => cases hlabel'

theorem RegistrySystem.Durable.decode (hdurable : s.Durable env) {registry : RunnerRegistry}
    (hregistry : s.registry = some registry) (hpath : registry.path = true) (hidle : registry.writer = none) :
    ∃ bytes, s.file = some bytes ∧ RegistrySnapshot.decode env bytes = .ok (.from_data registry.data) :=
  ⟨_, (hdurable.filed registry hregistry hpath).idle hidle, (hdurable.sound.valid registry hregistry hpath).decode⟩

/-- A process that stops and starts again has its registry back from the file,
whatever its environment seeds. -/
theorem RegistrySystem.Durable.restart (hdurable : s.Durable env) {registry : RunnerRegistry}
    (hregistry : s.registry = some registry) (hpath : registry.path = true) (hidle : registry.writer = none)
    (seed : RunnerRegistry) (disk : Disk) :
    ∃ next reloaded, Transition.run (step env) s [.crash, .start (.with_persistence seed disk)] = some next ∧
      next.registry = some reloaded ∧ next.file = s.file ∧ registry.data.Restored reloaded.data := by
  obtain ⟨bytes, hfile, hdecode⟩ := hdurable.decode hregistry hpath hidle
  let reloaded : RunnerRegistry := ⟨(RegistrySnapshot.from_data registry.data).into_data s.epochs, none, true⟩
  let next : RegistrySystem := { s with
    registry := some reloaded
    epochs := s.epochs + reloaded.data.runners.length }
  have hstart : RegistrySystem.start env { s with registry := none } (.with_persistence seed disk) = some next := by
    simp only [RegistrySystem.start, RunnerRegistry.with_persistence, hfile, hdecode, Option.join_some, next, reloaded]
  refine ⟨next, reloaded, ?_, rfl, rfl, (hdurable.sound.valid registry hregistry hpath).restored s.epochs⟩
  exact Transition.run_cons_eq_some.mpr ⟨_, rfl, Transition.run_cons_eq_some.mpr ⟨next, hstart, rfl⟩⟩

/-- Whenever no transaction is in progress, the file of a registry decodes to the
live configuration, and a restart brings that configuration back with no health
known. A transaction that fails leaves no trace beside the probes that came in
between; one that succeeds acts on the live data with all their heartbeats, and
keeps these. -/
theorem RegistrySystem.durable_refines_live (env : RegistryEnv) {labels : List RegistryLabel}
    {registry : RunnerRegistry}
    (hrun : Transition.run (step env) initial labels = some s) (hregistry : s.registry = some registry)
    (hpath : registry.path = true) (hidle : registry.writer = none) :
    (∃ bytes, s.file = some bytes ∧ RegistrySnapshot.decode env bytes = .ok (.from_data registry.data)) ∧
    (∀ seed disk, ∃ next reloaded,
      Transition.run (step env) s [.crash, .start (.with_persistence seed disk)] = some next ∧
        next.registry = some reloaded ∧ next.file = s.file ∧ registry.data.Restored reloaded.data) ∧
    (∀ label mutation probes e pending next failed, label.mutation = some mutation →
      (∀ l ∈ probes, l.probes = true) → Transition.run (step env) s (label :: probes) = some pending →
      pending.step env (.write (.error e)) = some next → next.registry = some failed → failed.writer = none →
        Transition.run (step env) s probes = some next ∧ next.file = s.file ∧
          failed.data.config = registry.data.config) ∧
    (∀ label mutation before disk after next, label.mutation = some mutation → (∀ l ∈ before, l.probes = true) →
      (∀ l ∈ after, l.probes = true) →
      Transition.run (step env) s (label :: (before ++ .write disk :: (after ++ [.publish]))) = some next →
        ∃ t live committed, Transition.run (step env) s (before ++ after) = some t ∧ t.registry = some live ∧
          next.registry = some committed ∧ committed.data = mutation.apply t.epochs live.data ∧
          ∀ id old runner, live.data.get id = some old → committed.data.get id = some runner →
            old.record.KeepsHealth runner.record) := by
  have hdurable : s.Durable env :=
    Transition.Preserved.run (fun _ _ _ hdurable hstep => hdurable.moves (step_moves hstep)) initial_durable hrun
  refine ⟨hdurable.decode hregistry hpath hidle, hdurable.restart hregistry hpath hidle, ?_, ?_⟩
  · intro label mutation probes e pending next failed hlabel hprobes hpending hwrite hfailed hover
    have halone := run_failed hregistry hidle hlabel hprobes hpending hwrite hfailed hover
    obtain ⟨hfile, live, hlive, -, -, hconfig⟩ := run_probes hprobes hregistry halone
    obtain rfl := Option.some.inj (hfailed.symm.trans hlive)
    exact ⟨halone, hfile, hconfig⟩
  · intro label mutation before disk after next hlabel hbefore hafter hcommit
    obtain ⟨t, live, committed, ht, hlive, hnext, hdata⟩ := run_committed hregistry hlabel hbefore hafter hcommit
    refine ⟨t, live, committed, ht, hlive, hnext, hdata, fun id old runner hold hrunner => ?_⟩
    rw [hdata] at hrunner
    exact mutation.keepsHealth t.epochs live.data hold hrunner

end

/-- A registration on a missing file. -/
def registered_run : List RegistryLabel :=
  [.start (.with_persistence .new (.ok ())), .register loopback_runner, .write (.ok ()), .publish]

theorem registered_run_durable : ∃ s registry bytes,
    Transition.run (RegistrySystem.step loopback_env) .initial registered_run = some s ∧
      s.registry = some registry ∧ s.file = some bytes ∧
        RegistrySnapshot.decode loopback_env bytes = .ok (.from_data registry.data) := by
  have hrun : Transition.run (RegistrySystem.step loopback_env) .initial registered_run = some _ := rfl
  obtain ⟨bytes, hfile, hdecode⟩ := (RegistrySystem.durable_refines_live loopback_env hrun rfl rfl rfl).1
  exact ⟨_, _, bytes, hrun, rfl, hfile, hdecode⟩

end asmodeus.control_plane
