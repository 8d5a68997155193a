import Asmodeus.ControlPlane.Registry.Config

open asmodeus.common

namespace asmodeus.control_plane

/-- The entry of an id in the live registry. -/
def RegistrySystem.find (s : RegistrySystem) (id : String) : Option RegisteredRunner :=
  s.registry.bind fun registry => registry.data.get id

/-- The step leaves the runner registered at its endpoint, in its maintenance
state. A restart, a removal, another endpoint, a drain or a resume is no such
step. -/
def RegistrySystem.Steady (id : String) (s : RegistrySystem) (_ : RegistryLabel) (next : RegistrySystem) : Prop :=
  ∃ old runner, s.find id = some old ∧ next.find id = some runner ∧
    runner.record.endpoint = old.record.endpoint ∧
      (runner.record.status = .Draining ↔ old.record.status = .Draining)

/-- What one step makes of the entry of an id. -/
inductive RegistrySystem.Becomes (s : RegistrySystem) (id : String) : RegistryLabel → RegisteredRunner → Prop
  | same {label : RegistryLabel} (runner : RegisteredRunner) (hold : s.find id = some runner) :
      Becomes s id label runner
  | probed (runner : RegisteredRunner) (hold : s.find id = some runner) :
      Becomes s id (.begin_probe id) { runner with epoch := s.epochs }
  | heartbeat (k : Nat) (healthy : Bool) (cpu_pct : UInt32) (version : String) (now : UInt64) (probe : RunnerProbe)
      (runner : RegisteredRunner) (hprobe : s.probes[k]? = some probe) (hid : probe.record.id = id)
      (hold : s.find id = some runner) (hepoch : runner.epoch = probe.epoch) :
      Becomes s id (.update_heartbeat k healthy cpu_pct version now)
        { runner with record := runner.record.heartbeat healthy cpu_pct version now }
  | unresponsive (k : Nat) (runner : RegisteredRunner) (hold : s.find id = some runner) :
      Becomes s id (.mark_unresponsive k) { runner with record := runner.record.unresponsive }
  | registered (record : RunnerRecord) (hid : record.id = id) (hstatus : record.status ≠ .Active)
      (hnew : s.find id = none) : Becomes s id .publish ⟨record, s.epochs⟩
  | replaced (record : RunnerRecord) (hid : record.id = id) (runner : RegisteredRunner)
      (hold : s.find id = some runner) : Becomes s id .publish ⟨record.replacing runner.record, s.epochs⟩
  | drained (draining : Bool) (runner : RegisteredRunner) (hold : s.find id = some runner) :
      Becomes s id .publish (runner.set_draining s.epochs draining)
  | seeded (endpoint : String) (tags : List String) (now : UInt64) :
      Becomes s id (.start (.with_default id endpoint tags now))
        ⟨.new id "Default Probe" (RunnerRegistry.default_endpoint endpoint) tags now, s.epochs⟩
  | restored (startup : Startup) (config : RunnerConfig) (index : Nat) :
      Becomes s id (.start startup) (config.restored (s.epochs + index))

/-- Every token in use has been allocated. -/
structure RegistrySystem.Numbered (env : RegistryEnv) (s : RegistrySystem) : Prop where
  sound : s.Sound env
  runners : ∀ (id : String) (runner : RegisteredRunner), s.find id = some runner → runner.epoch < s.epochs
  probes : ∀ probe ∈ s.probes, probe.epoch < s.epochs

section

variable {env : RegistryEnv} {s next : RegistrySystem} {label : RegistryLabel}

theorem RegistrySystem.find_eq {registry : RunnerRegistry} (hregistry : s.registry = some registry) (id : String) :
    s.find id = registry.data.get id := by
  rw [RegistrySystem.find, hregistry, Option.bind_some]

theorem RegistryData.get_into_data {snapshot : RegistrySnapshot} {epoch : Nat} {id : String}
    {runner : RegisteredRunner} (h : (snapshot.into_data epoch).get id = some runner) :
    ∃ config index, index < snapshot.runners.length ∧ runner = RunnerConfig.restored config (epoch + index) := by
  obtain ⟨hmem, -⟩ := KeyedList.find_some h
  obtain ⟨index, hlt, hindex⟩ := List.mem_mapIdx.mp hmem
  exact ⟨snapshot.runners[index], index, hlt, hindex.symm⟩

/-- The default runner is the only one of its registry, and is taken as active. -/
theorem RunnerRegistry.get_with_default {epoch : Nat} {id other endpoint : String} {tags : List String} {now : UInt64}
    {runner : RegisteredRunner} (h : (with_default epoch id endpoint tags now).data.get other = some runner) :
    id = other ∧ runner = ⟨.new id "Default Probe" (default_endpoint endpoint) tags now, epoch⟩ := by
  obtain ⟨hmem, hid⟩ := KeyedList.find_some h
  rw [List.mem_singleton.mp hmem] at hid ⊢
  exact ⟨hid, rfl⟩

theorem RegistrySystem.publish_becomes {registry : RunnerRegistry} {mutation : Mutation}
    (hregistry : s.registry = some registry) (hadmissible : mutation.Admissible env) {id : String}
    {runner : RegisteredRunner} (h : (mutation.apply s.epochs registry.data).get id = some runner) :
    s.Becomes id .publish runner := by
  have hfind := find_eq hregistry id
  cases mutation with
  | register record =>
    rw [Mutation.apply, RegistryData.get_register] at h
    split at h
    · rename_i heq
      subst heq
      rw [Option.some.injEq, RegistryData.register] at h
      cases hold : registry.data.get record.id with
      | none =>
        rw [hold] at h hfind
        exact h ▸ .registered record rfl hadmissible.1 hfind
      | some old =>
        rw [hold] at h hfind
        exact h ▸ .replaced record rfl old hfind
    · exact .same runner (hfind.trans h)
  | set_draining other draining =>
    rw [Mutation.apply, RegistryData.get_set_draining] at h
    split at h
    · rename_i heq
      subst heq
      obtain ⟨old, hold, rfl⟩ := Option.map_eq_some_iff.mp h
      exact .drained draining old (hfind.trans hold)
    · exact .same runner (hfind.trans h)
  | deregister other =>
    rw [Mutation.apply, RegistryData.get_remove] at h
    split at h
    · cases h
    · exact .same runner (hfind.trans h)

/-- The step lemma of one entry. -/
theorem RegistrySystem.Moves.becomes (hmoves : s.Moves env label next) (hnumbered : s.Numbered env) {id : String}
    {runner : RegisteredRunner} (h : next.find id = some runner) : s.Becomes id label runner := by
  cases hmoves with
  | start_new hdown => cases h
  | start_default other endpoint tags now hdown =>
    obtain ⟨rfl, rfl⟩ := RunnerRegistry.get_with_default h
    exact .seeded endpoint tags now
  | refuse startup hdown => exact .same runner h
  | load startup snapshot bytes hdown hfile hdecode =>
    obtain ⟨config, index, -, rfl⟩ := RegistryData.get_into_data h
    exact .restored startup config index
  | seed startup data hdown hfile hvalid =>
    obtain ⟨config, index, -, rfl⟩ := RegistryData.get_into_data h
    exact .restored startup config index
  | crash => cases h
  | begin_update label registry mutation hlabel hregistry hidle hadmissible =>
    exact .same runner ((find_eq hregistry id).trans h)
  | fail e registry update hregistry hupdate hpending => exact .same runner ((find_eq hregistry id).trans h)
  | write registry update hregistry hupdate hpending hpath hchange =>
    exact .same runner ((find_eq hregistry id).trans h)
  | skip_write disk registry update hregistry hupdate hpending hsame =>
    exact .same runner ((find_eq hregistry id).trans h)
  | publish registry update hregistry hupdate hwritten =>
    exact publish_becomes hregistry (hnumbered.sound.admissible registry update hregistry hupdate) h
  | begin_probe other registry probe data hregistry hprobe =>
    obtain ⟨old, hold, -, hget⟩ := RegistryData.get_begin_probe hprobe
    have hnext : data.get id = some runner := h
    rw [hget id] at hnext
    split at hnext
    · rename_i heq
      subst heq
      rw [Option.some.injEq] at hnext
      exact hnext ▸ .probed old ((find_eq hregistry _).trans hold)
    · exact .same runner ((find_eq hregistry id).trans hnext)
  | update_heartbeat k healthy cpu_pct version now registry probe hregistry hprobe =>
    have hanswer : (registry.data.answer probe fun record =>
      record.heartbeat healthy cpu_pct version now).2.get id = some runner := h
    have hkeeps : ∀ r : RunnerRecord, (r.heartbeat healthy cpu_pct version now).id = r.id := fun _ => rfl
    rcases RegistryData.get_answer hkeeps hanswer with hsame | ⟨old, hold, hid, hepoch, rfl⟩
    · exact .same runner ((find_eq hregistry id).trans hsame)
    · exact .heartbeat k healthy cpu_pct version now probe old hprobe hid ((find_eq hregistry id).trans hold) hepoch
  | mark_unresponsive k registry probe hregistry hprobe =>
    have hanswer : (registry.data.answer probe RunnerRecord.unresponsive).2.get id = some runner := h
    have hkeeps : ∀ r : RunnerRecord, r.unresponsive.id = r.id := fun _ => rfl
    rcases RegistryData.get_answer hkeeps hanswer with hsame | ⟨old, hold, -, -, rfl⟩
    · exact .same runner ((find_eq hregistry id).trans hsame)
    · exact .unresponsive k old ((find_eq hregistry id).trans hold)

/-- What the same life of an entry under a token means. -/
theorem RegistrySystem.Becomes.epoch {id : String} {runner : RegisteredRunner} (h : s.Becomes id label runner) :
    s.epochs ≤ runner.epoch ∨ ∃ old, s.find id = some old ∧ old.epoch = runner.epoch ∧
      runner.record.endpoint = old.record.endpoint ∧
        (runner.record.status = .Draining ↔ old.record.status = .Draining) := by
  cases h with
  | same _ hold => exact Or.inr ⟨runner, hold, rfl, rfl, Iff.rfl⟩
  | probed _ hold => exact Or.inl le_rfl
  | heartbeat k healthy cpu_pct version now probe old hprobe hid hold hepoch =>
    refine Or.inr ⟨old, hold, rfl, rfl, ?_⟩
    simp only [RunnerRecord.heartbeat]
    split
    · rename_i hstatus
      cases healthy <;> simp [hstatus]
    · exact Iff.rfl
  | unresponsive k old hold =>
    refine Or.inr ⟨old, hold, rfl, rfl, ?_⟩
    simp only [RunnerRecord.unresponsive]
    split
    · rename_i hstatus
      simp [hstatus]
    · exact Iff.rfl
  | registered record hid hstatus hnew => exact Or.inl le_rfl
  | replaced record hid old hold => exact Or.inl le_rfl
  | drained draining old hold =>
    unfold RegisteredRunner.set_draining
    split
    · exact Or.inl le_rfl
    · split
      · exact Or.inl le_rfl
      · exact Or.inr ⟨old, hold, rfl, rfl, Iff.rfl⟩
  | seeded endpoint tags now => exact Or.inl le_rfl
  | restored startup config index => exact Or.inl (Nat.le_add_right _ _)

/-- An entry is active because it was, at the same endpoint, because a healthy
heartbeat is applied to it, or because it is the default runner of a start. -/
theorem RegistrySystem.Becomes.active {id : String} {runner : RegisteredRunner} (h : s.Becomes id label runner)
    (hactive : runner.record.status = .Active) :
    (∃ old, s.find id = some old ∧ old.record.status = .Active ∧ runner.record.endpoint = old.record.endpoint) ∨
      (∃ k cpu_pct version now probe old, label = .update_heartbeat k true cpu_pct version now ∧
        s.probes[k]? = some probe ∧ probe.record.id = id ∧ s.find id = some old ∧ old.epoch = probe.epoch ∧
          runner.record.endpoint = old.record.endpoint) ∨
      ∃ endpoint tags now, label = .start (.with_default id endpoint tags now) ∧
        runner.record.endpoint = RunnerRegistry.default_endpoint endpoint := by
  cases h with
  | same _ hold => exact Or.inl ⟨runner, hold, hactive, rfl⟩
  | probed old hold => exact Or.inl ⟨old, hold, hactive, rfl⟩
  | heartbeat k healthy cpu_pct version now probe old hprobe hid hold hepoch =>
    simp only [RunnerRecord.heartbeat] at hactive
    split at hactive
    · cases healthy with
      | false => cases hactive
      | true => exact Or.inr (Or.inl ⟨k, cpu_pct, version, now, probe, old, rfl, hprobe, hid, hold, hepoch, rfl⟩)
    · exact Or.inl ⟨old, hold, hactive, rfl⟩
  | unresponsive k old hold =>
    simp only [RunnerRecord.unresponsive] at hactive
    split at hactive
    · cases hactive
    · exact Or.inl ⟨old, hold, hactive, rfl⟩
  | registered record hid hstatus hnew => exact absurd hactive hstatus
  | replaced record hid old hold =>
    simp only [RunnerRecord.replacing] at hactive ⊢
    split at hactive
    · rename_i hendpoint
      rw [if_pos hendpoint]
      exact Or.inl ⟨old, hold, hactive, hendpoint⟩
    · dsimp only at hactive
      split at hactive
      · cases hactive
      · rename_i hdraining
        rw [not_not] at hdraining
        exact absurd (hactive.symm.trans hdraining) (by decide)
  | drained draining old hold =>
    unfold RegisteredRunner.set_draining at hactive ⊢
    split at hactive
    · cases hactive
    · split at hactive
      · cases hactive
      · exact Or.inl ⟨old, hold, hactive, by simp_all⟩
  | seeded endpoint tags now => exact Or.inr (Or.inr ⟨endpoint, tags, now, rfl, rfl⟩)
  | restored startup config index =>
    unfold RunnerConfig.restored at hactive
    dsimp only at hactive
    split at hactive <;> cases hactive

theorem RegistrySystem.initial_numbered : initial.Numbered env :=
  ⟨initial_sound, fun _ _ h => (by cases h), fun _ h => (by cases h)⟩

theorem RegistrySystem.Moves.epochs (hmoves : s.Moves env label next) : s.epochs ≤ next.epochs := by
  cases hmoves with
  | start_default | load | seed | publish | begin_probe => exact Nat.le_add_right _ _
  | start_new | refuse | crash | begin_update | fail | write | skip_write | update_heartbeat
    | mark_unresponsive => exact le_rfl

/-- Probes are only ever added, each with a token of its own. -/
theorem RegistrySystem.Moves.probes (hmoves : s.Moves env label next) :
    next.probes = s.probes ∨ ∃ id runner, label = .begin_probe id ∧ s.find id = some runner ∧
      next.probes = s.probes ++ [⟨runner.record, s.epochs⟩] ∧ next.epochs = s.epochs + 1 ∧
        next.find id = some { runner with epoch := s.epochs } := by
  cases hmoves with
  | begin_probe id registry probe data hregistry hprobe =>
    obtain ⟨runner, hrunner, rfl, hget⟩ := RegistryData.get_begin_probe hprobe
    refine Or.inr ⟨id, runner, rfl, (find_eq hregistry id).trans hrunner, rfl, rfl, ?_⟩
    exact (hget id).trans (if_pos rfl)
  | start_new | start_default | refuse | load | seed | crash | begin_update | fail | write | skip_write | publish
    | update_heartbeat | mark_unresponsive => exact Or.inl rfl

theorem RegistrySystem.Numbered.old_epoch (hnumbered : s.Numbered env) (hmoves : s.Moves env label next)
    {id : String} {runner : RegisteredRunner} (hold : s.find id = some runner) : runner.epoch < next.epochs :=
  lt_of_lt_of_le (hnumbered.runners id runner hold) hmoves.epochs

theorem RegistrySystem.Numbered.moves (hnumbered : s.Numbered env) (hmoves : s.Moves env label next) :
    next.Numbered env := by
  have hold : ∀ {id : String} {runner : RegisteredRunner}, s.find id = some runner → runner.epoch < next.epochs :=
    fun hfind => hnumbered.old_epoch hmoves hfind
  refine ⟨hnumbered.sound.moves hmoves, ?_, ?_⟩
  · intro id runner h
    have hbecomes := hmoves.becomes hnumbered h
    cases hmoves with
    | start_new hdown => cases h
    | start_default other endpoint tags now hdown =>
      rw [(RunnerRegistry.get_with_default h).2]
      exact Nat.lt_succ_self s.epochs
    | crash => cases h
    | load startup snapshot bytes hdown hfile hdecode =>
      obtain ⟨config, index, hindex, rfl⟩ := RegistryData.get_into_data h
      exact Nat.add_lt_add_left hindex s.epochs
    | seed startup data hdown hfile hvalid =>
      obtain ⟨config, index, hindex, rfl⟩ := RegistryData.get_into_data h
      exact Nat.add_lt_add_left hindex s.epochs
    | refuse startup hdown => exact hold h
    | begin_update label registry mutation hlabel hregistry hidle hadmissible =>
      exact hold ((find_eq hregistry id).trans h)
    | fail e registry update hregistry hupdate hpending => exact hold ((find_eq hregistry id).trans h)
    | write registry update hregistry hupdate hpending hpath hchange => exact hold ((find_eq hregistry id).trans h)
    | skip_write disk registry update hregistry hupdate hpending hsame =>
      exact hold ((find_eq hregistry id).trans h)
    | publish registry update hregistry hupdate hwritten =>
      cases hbecomes with
      | same _ hsame => exact hold hsame
      | registered | replaced => exact Nat.lt_succ_self s.epochs
      | drained draining old hdrained =>
        unfold RegisteredRunner.set_draining
        split
        · exact Nat.lt_succ_self s.epochs
        · split
          · exact Nat.lt_succ_self s.epochs
          · exact hold hdrained
    | begin_probe other registry probe data hregistry hprobe =>
      cases hbecomes with
      | same _ hsame => exact hold hsame
      | probed => exact Nat.lt_succ_self s.epochs
    | update_heartbeat k healthy cpu_pct version now registry probe hregistry hprobe =>
      cases hbecomes with
      | same _ hsame => exact hold hsame
      | heartbeat _ _ _ _ _ probe old _ _ hheartbeat _ => exact hnumbered.runners id old hheartbeat
    | mark_unresponsive k registry probe hregistry hprobe =>
      cases hbecomes with
      | same _ hsame => exact hold hsame
      | unresponsive _ old hmarked => exact hnumbered.runners id old hmarked
  · intro probe hprobe
    have hepochs := hmoves.epochs
    rcases hmoves.probes with hsame | ⟨id, runner, -, -, hprobes, hnext, -⟩
    · rw [hsame] at hprobe
      exact lt_of_lt_of_le (hnumbered.probes probe hprobe) hepochs
    · rw [hprobes, List.mem_append, List.mem_singleton] at hprobe
      rcases hprobe with hprobe | rfl
      · exact lt_of_lt_of_le (hnumbered.probes probe hprobe) hepochs
      · rw [hnext]
        exact Nat.lt_succ_self s.epochs

theorem RegistrySystem.numbered_of_run {labels : List RegistryLabel}
    (hrun : Transition.run (RegistrySystem.step env) initial labels = some s) : s.Numbered env :=
  Transition.Preserved.run (fun _ _ _ hnumbered hstep => hnumbered.moves (step_moves hstep)) initial_numbered hrun

/-- The probe was begun on the id by a step of the schedule, and everything after
it was steady. -/
def RegistrySystem.BegunSince (env : RegistryEnv) (id : String) (k : Nat) (labels : List RegistryLabel) : Prop :=
  Transition.Since (RegistrySystem.step env) (fun _ s label _ => label = .begin_probe id ∧ k = s.probes.length)
    (RegistrySystem.Steady id) initial labels

/-- A healthy heartbeat was applied to the id, from a probe begun on it at this
endpoint, and everything after the probe was steady. -/
def RegistrySystem.HealthySince (env : RegistryEnv) (id endpoint : String) (labels : List RegistryLabel) : Prop :=
  Transition.Since (RegistrySystem.step env) (fun before s label _ => ∃ k cpu_pct version now probe registry,
      label = .update_heartbeat k true cpu_pct version now ∧ s.probes[k]? = some probe ∧
        probe.record.id = id ∧ probe.record.endpoint = endpoint ∧ s.registry = some registry ∧
          (registry.data.update_heartbeat probe true cpu_pct version now).1 = true ∧ BegunSince env id k before)
    (RegistrySystem.Steady id) initial labels

/-- A process without a file started with the id as its default runner at this
endpoint, and everything after it was steady. -/
def RegistrySystem.SeededSince (env : RegistryEnv) (id endpoint : String) (labels : List RegistryLabel) : Prop :=
  Transition.Since (RegistrySystem.step env) (fun _ _ label _ => ∃ given tags now,
      label = .start (.with_default id given tags now) ∧ endpoint = RunnerRegistry.default_endpoint given)
    (RegistrySystem.Steady id) initial labels

/-- The step starts a new life of the id: a probe begins on it, it is registered
anew, its maintenance state changes or it is gone. -/
def RegistrySystem.Supersedes (id : String) (s : RegistrySystem) (label : RegistryLabel) (next : RegistrySystem) :
    Prop :=
  label = .begin_probe id ∨
    (label = .publish ∧ ∃ registry update record, s.registry = some registry ∧ registry.writer = some update ∧
      update.mutation = .register record ∧ record.id = id) ∨
    ∃ old, s.find id = some old ∧ ∀ runner, next.find id = some runner →
      ¬ (runner.record.status = .Draining ↔ old.record.status = .Draining)

/-- No entry of the id has the token of the probe any more. -/
def RegistrySystem.Stale (s : RegistrySystem) (probe : RunnerProbe) : Prop :=
  probe.epoch < s.epochs ∧ ∀ runner, s.find probe.record.id = some runner → runner.epoch ≠ probe.epoch

/-- A probe whose token an entry still has was begun on it, and nothing has
unsettled the entry since. -/
def RegistrySystem.TokensHeld (env : RegistryEnv) (labels : List RegistryLabel) (s : RegistrySystem) : Prop :=
  ∀ (k : Nat) (probe : RunnerProbe) (runner : RegisteredRunner), s.probes[k]? = some probe →
    s.find probe.record.id = some runner → runner.epoch = probe.epoch →
      runner.record.endpoint = probe.record.endpoint ∧ BegunSince env probe.record.id k labels

/-- Every active entry owes it to a healthy heartbeat, or is a default runner. -/
def RegistrySystem.ActiveProved (env : RegistryEnv) (labels : List RegistryLabel) (s : RegistrySystem) : Prop :=
  ∀ (id : String) (runner : RegisteredRunner), s.find id = some runner → runner.record.status = .Active →
    HealthySince env id runner.record.endpoint labels ∨ SeededSince env id runner.record.endpoint labels

theorem RegistrySystem.find_id {id : String} {runner : RegisteredRunner} (h : s.find id = some runner) :
    runner.record.id = id := by
  obtain ⟨registry, -, hget⟩ := Option.bind_eq_some_iff.mp h
  exact RegistryData.get_id hget

theorem RegistrySystem.tokens_held {labels : List RegistryLabel}
    (hrun : Transition.run (RegistrySystem.step env) initial labels = some s) : s.TokensHeld env labels := by
  refine Transition.run_induction (P := fun labels s => TokensHeld env labels s) ?_ ?_ hrun
  · intro k probe runner hprobe
    cases hprobe
  · intro labels s label next hbefore ih hstep k probe runner hprobe hrunner hepoch
    have hnumbered := numbered_of_run hbefore
    have hmoves := step_moves hstep
    have hold : s.probes[k]? = some probe → runner.record.endpoint = probe.record.endpoint ∧
        BegunSince env probe.record.id k (labels ++ [label]) := by
      intro hbegun
      have hlt := hnumbered.probes probe (List.mem_of_getElem? hbegun)
      rcases (hmoves.becomes hnumbered hrunner).epoch with hfresh | ⟨old, hfind, hsame, hendpoint, hdraining⟩
      · omega
      · obtain ⟨hheld, hsince⟩ := ih k probe old hbegun hfind (hsame.trans hepoch)
        refine ⟨hendpoint.trans hheld, hsince.extend hbefore fun next' hnext' => ?_⟩
        obtain rfl : next = next' := Option.some.inj (hstep.symm.trans hnext')
        exact ⟨old, runner, hfind, hrunner, hendpoint, hdraining⟩
    rcases hmoves.probes with hsame | ⟨id, begun, rfl, hfind, hprobes, -, hnext⟩
    · exact hold (hsame ▸ hprobe)
    · rw [hprobes, List.getElem?_append] at hprobe
      split at hprobe
      · exact hold hprobe
      · rename_i hge
        obtain ⟨hzero, hnew⟩ := List.getElem?_eq_some_iff.mp hprobe
        rw [List.length_singleton] at hzero
        have hk : k = s.probes.length := by omega
        rw [List.getElem_singleton] at hnew
        subst hnew
        have hid : begun.record.id = id := find_id hfind
        dsimp only at hrunner ⊢
        rw [hid, hnext, Option.some.injEq] at hrunner
        rw [hid, ← hrunner]
        exact ⟨rfl, .now hbefore hstep ⟨rfl, hk⟩⟩

theorem RegistrySystem.active_proved {labels : List RegistryLabel}
    (hrun : Transition.run (RegistrySystem.step env) initial labels = some s) : s.ActiveProved env labels := by
  refine Transition.run_induction (P := fun labels s => ActiveProved env labels s) ?_ ?_ hrun
  · intro id runner h
    cases h
  · intro labels s label next hbefore ih hstep id runner hrunner hactive
    have hmoves := step_moves hstep
    rcases (hmoves.becomes (numbered_of_run hbefore) hrunner).active hactive with
      ⟨old, hfind, hwas, hendpoint⟩ |
        ⟨k, cpu_pct, version, now, probe, old, rfl, hprobe, rfl, hfind, hepoch, hendpoint⟩ |
          ⟨given, tags, now, rfl, hendpoint⟩
    · have hsteady : ∀ next', s.step env label = some next' → Steady id s label next' := by
        intro next' hnext'
        obtain rfl : next = next' := Option.some.inj (hstep.symm.trans hnext')
        exact ⟨old, runner, hfind, hrunner, hendpoint, by rw [hactive, hwas]⟩
      rw [hendpoint]
      exact (ih id old hfind hwas).imp (fun h => h.extend hbefore hsteady) (fun h => h.extend hbefore hsteady)
    · obtain ⟨hheld, hbegun⟩ := tokens_held hbefore k probe old hprobe hfind hepoch
      obtain ⟨registry, hregistry, hget⟩ := Option.bind_eq_some_iff.mp hfind
      have happlied : (registry.data.update_heartbeat probe true cpu_pct version now).1 = true := by
        rw [RegistryData.update_heartbeat, RegistryData.answer, RegistryData.probed_eq_some.mpr ⟨hget, hepoch⟩]
      refine Or.inl (.now hbefore hstep ⟨k, cpu_pct, version, now, probe, registry, rfl, hprobe, rfl, ?_, hregistry,
        happlied, hbegun⟩)
      rw [hendpoint, hheld]
    · exact Or.inr (.now hbefore hstep ⟨given, tags, now, rfl, hendpoint⟩)

theorem RegistrySystem.Moves.supersedes (hmoves : s.Moves env label next) (hnumbered : s.Numbered env)
    {probe : RunnerProbe} (hprobe : probe ∈ s.probes) (hsupersedes : Supersedes probe.record.id s label next) :
    next.Stale probe := by
  have hlt := hnumbered.probes probe hprobe
  refine ⟨lt_of_lt_of_le hlt hmoves.epochs, fun runner hrunner hepoch => ?_⟩
  have hbecomes := hmoves.becomes hnumbered hrunner
  rcases hsupersedes with rfl | ⟨rfl, registry, update, record, hregistry, hupdate, hmutation, hid⟩ |
    ⟨old, hold, hchanged⟩
  · cases hmoves with
    | begin_update label registry mutation hlabel => cases hlabel
    | begin_probe id registry begun data hregistry hbegun =>
      obtain ⟨_, -, -, hget⟩ := RegistryData.get_begin_probe hbegun
      have hnext : data.get probe.record.id = some runner := hrunner
      rw [hget, if_pos rfl, Option.some.injEq] at hnext
      rw [← hnext] at hepoch
      exact absurd hepoch (ne_of_gt hlt)
  · cases hmoves with
    | begin_update label registry mutation hlabel => cases hlabel
    | publish registry' update' hregistry' hupdate' hwritten =>
      obtain rfl := Option.some.inj (hregistry.symm.trans hregistry')
      obtain rfl := Option.some.inj (hupdate.symm.trans hupdate')
      have hnext : (update.mutation.apply s.epochs registry.data).get probe.record.id = some runner := hrunner
      rw [hmutation, Mutation.apply, RegistryData.get_register, if_pos hid.symm, Option.some.injEq] at hnext
      rw [← hnext] at hepoch
      exact absurd hepoch (ne_of_gt hlt)
  · rcases hbecomes.epoch with hfresh | ⟨old', hold', -, -, hdraining⟩
    · omega
    · obtain rfl := Option.some.inj (hold.symm.trans hold')
      exact hchanged runner hrunner hdraining

theorem RegistrySystem.Stale.moves {probe : RunnerProbe} (hstale : s.Stale probe) (hnumbered : s.Numbered env)
    (hmoves : s.Moves env label next) : next.Stale probe := by
  obtain ⟨hlt, hother⟩ := hstale
  refine ⟨lt_of_lt_of_le hlt hmoves.epochs, fun runner hrunner hepoch => ?_⟩
  rcases (hmoves.becomes hnumbered hrunner).epoch with hfresh | ⟨old, hold, hsame, -, -⟩
  · omega
  · exact hother old hold (hsame.trans hepoch)

/-- The answer to a stale probe is lost. -/
theorem RegistrySystem.Stale.answer {probe : RunnerProbe} (hstale : s.Stale probe) {registry : RunnerRegistry}
    (hregistry : s.registry = some registry) (f : RunnerRecord → RunnerRecord) :
    registry.data.answer probe f = (false, registry.data) := by
  have hnone : registry.data.probed probe = none := by
    rw [Option.eq_none_iff_forall_ne_some]
    intro runner hprobed
    obtain ⟨hget, hepoch⟩ := RegistryData.probed_eq_some.mp hprobed
    exact hstale.2 runner ((find_eq hregistry _).trans hget) hepoch
  rw [RegistryData.answer, hnone]

/-- An answer to a probe. -/
def RegistryLabel.answers (k : Nat) : RegistryLabel → Bool
  | .update_heartbeat probe _ _ _ _ => probe == k
  | .mark_unresponsive probe => probe == k
  | _ => false

theorem RegistrySystem.Stale.moves_answer {probe : RunnerProbe} (hstale : s.Stale probe) {k : Nat}
    (hprobe : s.probes[k]? = some probe) (hanswers : label.answers k = true) (hmoves : s.Moves env label next) :
    next = s := by
  cases hmoves with
  | update_heartbeat k' healthy cpu_pct version now registry probe' hregistry hprobe' =>
    obtain rfl : k' = k := eq_of_beq hanswers
    obtain rfl := Option.some.inj (hprobe.symm.trans hprobe')
    rw [RegistryData.update_heartbeat, hstale.answer hregistry, ← hregistry]
  | mark_unresponsive k' registry probe' hregistry hprobe' =>
    obtain rfl : k' = k := eq_of_beq hanswers
    obtain rfl := Option.some.inj (hprobe.symm.trans hprobe')
    rw [RegistryData.mark_unresponsive, hstale.answer hregistry, ← hregistry]
  | begin_update label registry mutation hlabel => cases label <;> first | cases hanswers | cases hlabel
  | start_new | start_default | refuse | load | seed | crash | fail | write | skip_write | publish
    | begin_probe => cases hanswers

/-- The probes of a registry stay where they are. -/
theorem RegistrySystem.probes_of_run {labels : List RegistryLabel}
    (hrun : Transition.run (RegistrySystem.step env) s labels = some next) {k : Nat} {probe : RunnerProbe}
    (hprobe : s.probes[k]? = some probe) : next.probes[k]? = some probe := by
  have hkept : Transition.Preserved (RegistrySystem.step env) fun s => s.probes[k]? = some probe := by
    intro s label next hold hstep
    rcases (step_moves hstep).probes with hsame | ⟨id, runner, -, -, hprobes, -, -⟩
    · rw [hsame, hold]
    · obtain ⟨hlt, -⟩ := List.getElem?_eq_some_iff.mp hold
      rw [hprobes, List.getElem?_append_left hlt, hold]
  exact hkept.run hprobe hrun

/-- Health fencing: only active runners are routed to; an active runner owes it
to a healthy heartbeat from a probe begun on it at its present endpoint, or to a
start without a file that seeded it there, with nothing unsettling it since; and
a superseded probe has no say any more. -/
theorem RegistrySystem.health_fenced (env : RegistryEnv) {labels : List RegistryLabel}
    (hrun : Transition.run (RegistrySystem.step env) initial labels = some s) :
    (∀ registry target record, s.registry = some registry → registry.data.find_for_target target = some record →
      record.status = .Active ∧ ∃ runner, s.find record.id = some runner ∧ runner.record = record) ∧
    (∀ (id : String) (runner : RegisteredRunner), s.find id = some runner → runner.record.status = .Active →
      HealthySince env id runner.record.endpoint labels ∨ SeededSince env id runner.record.endpoint labels) ∧
    (∀ before label after s₁ s₂, labels = before ++ label :: after →
      Transition.run (RegistrySystem.step env) initial before = some s₁ → s₁.step env label = some s₂ →
      ∀ (k : Nat) (probe : RunnerProbe), s₁.probes[k]? = some probe → Supersedes probe.record.id s₁ label s₂ →
        ∀ reply next, reply.answers k = true → s.step env reply = some next → next = s) := by
  have hnumbered := numbered_of_run hrun
  refine ⟨?_, active_proved hrun, ?_⟩
  · intro registry target record hregistry hroute
    obtain ⟨hactive, runner, hmem, rfl⟩ := RegistryData.find_for_target_active hroute
    refine ⟨hactive, runner, ?_, rfl⟩
    rw [find_eq hregistry]
    exact (hnumbered.sound.unique registry hregistry).find_of_mem hmem
  · rintro before label after s₁ s₂ rfl hbefore hlabel k probe hprobe hsupersedes reply next hanswers hreply
    have hnumbered₁ := numbered_of_run hbefore
    have hmoves := step_moves hlabel
    have hstale := hmoves.supersedes hnumbered₁ (List.mem_of_getElem? hprobe) hsupersedes
    obtain ⟨s₁', hs₁', hrest⟩ := Transition.run_append_eq_some.mp hrun
    obtain rfl := Option.some.inj (hbefore.symm.trans hs₁')
    have hkept := probes_of_run hrest hprobe
    obtain ⟨s₂', hs₂', hafter⟩ := Transition.run_cons_eq_some.mp hrest
    obtain rfl := Option.some.inj (hlabel.symm.trans hs₂')
    have hstays : Transition.Preserved (RegistrySystem.step env) fun s => s.Numbered env ∧ s.Stale probe := by
      rintro s label next ⟨hnumbered, hstale⟩ hstep
      exact ⟨hnumbered.moves (step_moves hstep), hstale.moves hnumbered (step_moves hstep)⟩
    have hfinal := hstays.run ⟨hnumbered₁.moves hmoves, hstale⟩ hafter
    exact hfinal.2.moves_answer hkept hanswers (step_moves hreply)

end

/-- A runner from its registration to its first healthy answer. -/
def probed_run : List RegistryLabel :=
  [.start .new, .register loopback_runner, .write (.ok ()), .publish, .begin_probe "probe",
    .update_heartbeat 0 true 7 "live" 2]

theorem probed_run_fenced : ∃ s runner,
    Transition.run (RegistrySystem.step loopback_env) .initial probed_run = some s ∧
      s.find "probe" = some runner ∧ runner.record.status = .Active ∧
        RegistrySystem.HealthySince loopback_env "probe" "http://127.0.0.1:1" probed_run := by
  have hrun : Transition.run (RegistrySystem.step loopback_env) .initial probed_run = some _ := rfl
  have hproved := (RegistrySystem.health_fenced loopback_env hrun).2.1
  refine ⟨_, _, hrun, rfl, rfl, (hproved "probe" _ rfl rfl).resolve_right ?_⟩
  rintro ⟨before, label, after, s, t, hlabels, -, -, ⟨given, tags, now, rfl, -⟩, -⟩
  have hmem : RegistryLabel.start (.with_default "probe" given tags now) ∈ probed_run := by
    rw [hlabels]
    exact List.mem_append_right _ List.mem_cons_self
  simp [probed_run] at hmem

/-- A process that starts without a file but with a runner endpoint in its
environment routes to that runner before any probe has begun. -/
theorem default_runner_unprobed : ∃ labels s registry record,
    Transition.run (RegistrySystem.step loopback_env) .initial labels = some s ∧ s.registry = some registry ∧
      registry.data.find_for_target none = some record ∧ record.status = .Active ∧
        ¬ RegistrySystem.HealthySince loopback_env record.id record.endpoint labels := by
  refine ⟨[.start (.with_default "default-runner" "127.0.0.1:1" ["default", "endpoint_agent"] 1)], _, _, _, rfl, rfl,
    rfl, rfl, ?_⟩
  rintro ⟨before, label, after, s, t, hlabels, -, -, ⟨k, cpu_pct, version, now, probe, registry, rfl, -⟩, -⟩
  cases before with
  | nil => cases hlabels
  | cons first before => simp at hlabels

end asmodeus.control_plane
