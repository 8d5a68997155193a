import Asmodeus.Common.Io
import Asmodeus.Lib.KeyedList
import Asmodeus.Lib.Lines
import Mathlib.Data.List.Infix
import Mathlib.Data.List.MinMax
import Mathlib.Data.String.Basic

open asmodeus.common

namespace asmodeus.control_plane

inductive RunnerStatus
  | Active
  | Unresponsive
  | Draining
  deriving DecidableEq

structure RunnerRecord where
  id : String
  name : String
  endpoint : String
  tags : List String
  status : RunnerStatus
  last_heartbeat_utc : Option UInt64
  cpu_usage_pct : UInt32
  version : String
  registered_at_utc : UInt64
  deriving DecidableEq

def CARGO_PKG_VERSION : String := "0.1.0"

def RunnerRecord.new (id name endpoint : String) (tags : List String) (now : UInt64) : RunnerRecord :=
  ⟨id, name, endpoint, tags, .Active, some now, 0, CARGO_PKG_VERSION, now⟩

/-- A probe is bound to one registration and maintenance state. Its token is an
allocation of its own: a number no other allocation has. -/
structure RunnerProbe where
  record : RunnerRecord
  epoch : Nat
  deriving DecidableEq

structure RegisteredRunner where
  record : RunnerRecord
  epoch : Nat
  deriving DecidableEq

def RegisteredRunner.id (self : RegisteredRunner) : String := self.record.id

/-- The runners in some order, each under the id of its record. `require_runner`
is sticky once configured. -/
structure RegistryData where
  runners : List RegisteredRunner
  require_runner : Bool
  deriving DecidableEq

def RegistryData.default : RegistryData := ⟨[], false⟩

def RegistryData.get (self : RegistryData) (id : String) : Option RegisteredRunner :=
  KeyedList.find RegisteredRunner.id id self.runners

/-- What a registration takes over from the entry it replaces: health survives
only at the same endpoint. -/
def RunnerRecord.replacing (record previous : RunnerRecord) : RunnerRecord :=
  let record := { record with
    status := previous.status
    registered_at_utc := previous.registered_at_utc }
  if record.endpoint = previous.endpoint then
    { record with
      last_heartbeat_utc := previous.last_heartbeat_utc
      cpu_usage_pct := previous.cpu_usage_pct
      version := previous.version }
  else
    { record with
      status := if record.status ≠ .Draining then .Unresponsive else record.status
      last_heartbeat_utc := none
      cpu_usage_pct := 0
      version := "" }

/-- `epoch` is the token the call allocates. -/
def RegistryData.register (self : RegistryData) (epoch : Nat) (record : RunnerRecord) :
    RunnerRecord × RegistryData :=
  let record := match self.get record.id with
    | some previous => record.replacing previous.record
    | none => record
  (record, ⟨KeyedList.upsert RegisteredRunner.id self.runners ⟨record, epoch⟩, true⟩)

def RegisteredRunner.set_draining (self : RegisteredRunner) (epoch : Nat) (draining : Bool) : RegisteredRunner :=
  if draining = true ∧ self.record.status ≠ .Draining then
    ⟨{ self.record with status := .Draining }, epoch⟩
  else if draining = false ∧ self.record.status = .Draining then
    ⟨{ self.record with status := .Unresponsive, last_heartbeat_utc := none }, epoch⟩
  else self

def RegistryData.set_draining (self : RegistryData) (epoch : Nat) (id : String) (draining : Bool) :
    Option RunnerRecord × RegistryData :=
  match self.get id with
  | none => (none, self)
  | some runner =>
    let runner := runner.set_draining epoch draining
    (some runner.record, { self with runners := KeyedList.replace RegisteredRunner.id id runner self.runners })

def RegistryData.remove (self : RegistryData) (id : String) : Bool × RegistryData :=
  ((self.get id).isSome, { self with runners := self.runners.filter fun runner => decide (runner.id ≠ id) })

def RegistryData.begin_probe (self : RegistryData) (epoch : Nat) (id : String) :
    Option (RunnerProbe × RegistryData) :=
  (self.get id).map fun runner =>
    (⟨runner.record, epoch⟩,
      { self with runners := KeyedList.replace RegisteredRunner.id id { runner with epoch := epoch } self.runners })

/-- The entry a probe may still speak about. -/
def RegistryData.probed (self : RegistryData) (probe : RunnerProbe) : Option RegisteredRunner :=
  (self.get probe.record.id).filter fun runner => runner.epoch == probe.epoch

/-- The answer to a probe, if anyone may still give it: it rewrites the record of
the probed entry. -/
def RegistryData.answer (self : RegistryData) (probe : RunnerProbe) (f : RunnerRecord → RunnerRecord) :
    Bool × RegistryData :=
  match self.probed probe with
  | some runner =>
    let runner := { runner with record := f runner.record }
    (true, { self with runners := KeyedList.replace RegisteredRunner.id probe.record.id runner self.runners })
  | none => (false, self)

def RunnerRecord.heartbeat (self : RunnerRecord) (healthy : Bool) (cpu_pct : UInt32) (version : String)
    (now : UInt64) : RunnerRecord :=
  { self with
    status := if self.status ≠ .Draining then (if healthy then .Active else .Unresponsive) else self.status
    cpu_usage_pct := cpu_pct
    last_heartbeat_utc := some now
    version := if version ≠ "" then version else self.version }

def RegistryData.update_heartbeat (self : RegistryData) (probe : RunnerProbe) (healthy : Bool)
    (cpu_pct : UInt32) (version : String) (now : UInt64) : Bool × RegistryData :=
  self.answer probe fun record => record.heartbeat healthy cpu_pct version now

def RunnerRecord.unresponsive (self : RunnerRecord) : RunnerRecord :=
  { self with status := if self.status ≠ .Draining then .Unresponsive else self.status }

def RegistryData.mark_unresponsive (self : RegistryData) (probe : RunnerProbe) : Bool × RegistryData :=
  self.answer probe RunnerRecord.unresponsive

def eq_ignore_ascii_case (a b : String) : Bool := a.toList.map Char.toLower == b.toList.map Char.toLower

/-- Exact ids never fall back to tags. -/
def RegistryData.find_for_target (self : RegistryData) (target : Option String) : Option RunnerRecord :=
  let target := (target.map fun t => String.ofList (Lines.trim t.toList)).filter fun t => decide (t ≠ "")
  match target.bind self.get with
  | some runner => if runner.record.status = .Active then some runner.record else none
  | none =>
    let active := (self.runners.map RegisteredRunner.record).filter fun r => decide (r.status = .Active)
    let tagged := active.filter fun r => target.all fun t => r.tags.any fun tag => eq_ignore_ascii_case tag t
    tagged.argmin RunnerRecord.id

/-- A configuration change. -/
inductive Mutation
  | register (record : RunnerRecord)
  | set_draining (id : String) (draining : Bool)
  | deregister (id : String)
  deriving DecidableEq

def Mutation.id : Mutation → String
  | .register record => record.id
  | .set_draining id _ => id
  | .deregister id => id

def Mutation.apply (self : Mutation) (epoch : Nat) (data : RegistryData) : RegistryData :=
  match self with
  | .register record => (data.register epoch record).2
  | .set_draining id draining => (data.set_draining epoch id draining).2
  | .deregister id => (data.remove id).2

/-- A routed runner is active. -/
theorem RegistryData.find_for_target_active {data : RegistryData} {target : Option String} {record : RunnerRecord}
    (h : data.find_for_target target = some record) :
    record.status = .Active ∧ ∃ runner ∈ data.runners, runner.record = record := by
  unfold RegistryData.find_for_target at h
  dsimp only at h
  split at h
  · rename_i runner hget
    obtain ⟨t, -, hrunner⟩ := Option.bind_eq_some_iff.mp hget
    split at h
    · rename_i hstatus
      rw [Option.some.injEq] at h
      exact ⟨h ▸ hstatus, runner, (KeyedList.find_some hrunner).1, h⟩
    · cases h
  · have hmem := List.argmin_mem (Option.mem_def.mpr h)
    obtain ⟨hactive, -⟩ := List.mem_filter.mp hmem
    obtain ⟨hrecord, hstatus⟩ := List.mem_filter.mp hactive
    exact ⟨of_decide_eq_true hstatus, List.mem_map.mp hrecord⟩

theorem RegistryData.probed_eq_some {data : RegistryData} {probe : RunnerProbe} {runner : RegisteredRunner} :
    data.probed probe = some runner ↔ data.get probe.record.id = some runner ∧ runner.epoch = probe.epoch := by
  rw [RegistryData.probed, Option.filter_eq_some_iff, beq_iff_eq]

theorem RegistryData.get_id {data : RegistryData} {id : String} {runner : RegisteredRunner}
    (h : data.get id = some runner) : runner.record.id = id := (KeyedList.find_some h).2

/-- Rewriting one entry under its id changes that entry only. -/
theorem RegistryData.get_replace {data : RegistryData} {id : String} {runner old : RegisteredRunner}
    (hold : data.get id = some old) (hid : runner.record.id = id) (other : String) :
    RegistryData.get { data with runners := KeyedList.replace RegisteredRunner.id id runner data.runners } other =
      if other = id then some runner else data.get other := by
  unfold RegistryData.get at hold ⊢
  split
  · rename_i heq
    subst heq
    exact KeyedList.find_replace_self hid hold
  · rename_i hne
    exact KeyedList.find_replace_of_ne hid hne

@[simp] theorem RunnerRecord.replacing_id (record previous : RunnerRecord) :
    (record.replacing previous).id = record.id := by
  unfold RunnerRecord.replacing
  dsimp only
  split <;> rfl

@[simp] theorem RunnerRecord.replacing_endpoint (record previous : RunnerRecord) :
    (record.replacing previous).endpoint = record.endpoint := by
  unfold RunnerRecord.replacing
  dsimp only
  split <;> rfl

@[simp] theorem RegisteredRunner.set_draining_endpoint (runner : RegisteredRunner) (epoch : Nat) (draining : Bool) :
    (runner.set_draining epoch draining).record.endpoint = runner.record.endpoint := by
  unfold RegisteredRunner.set_draining
  split
  · rfl
  · split <;> rfl

@[simp] theorem RegisteredRunner.set_draining_id (runner : RegisteredRunner) (epoch : Nat) (draining : Bool) :
    (runner.set_draining epoch draining).record.id = runner.record.id := by
  unfold RegisteredRunner.set_draining
  split
  · rfl
  · split <;> rfl

theorem RegistryData.get_register (data : RegistryData) (epoch : Nat) (record : RunnerRecord) (other : String) :
    (data.register epoch record).2.get other =
      if other = record.id then some ⟨(data.register epoch record).1, epoch⟩ else data.get other := by
  have hid : (data.register epoch record).1.id = record.id := by
    unfold RegistryData.register
    cases data.get record.id with
    | none => rfl
    | some previous => exact RunnerRecord.replacing_id record previous.record
  change KeyedList.find RegisteredRunner.id other
    (KeyedList.upsert RegisteredRunner.id data.runners ⟨(data.register epoch record).1, epoch⟩) = _
  split
  · rename_i heq
    rw [heq, ← hid]
    exact KeyedList.find_upsert_self data.runners (⟨(data.register epoch record).1, epoch⟩ : RegisteredRunner)
  · rename_i hne
    rw [← hid] at hne
    exact KeyedList.find_upsert_of_ne hne

theorem RegistryData.get_set_draining (data : RegistryData) (epoch : Nat) (id : String) (draining : Bool)
    (other : String) : (data.set_draining epoch id draining).2.get other =
      if other = id then (data.get id).map (·.set_draining epoch draining) else data.get other := by
  unfold RegistryData.set_draining
  cases hget : data.get id with
  | none =>
    dsimp only
    split
    · rename_i heq
      exact heq ▸ hget
    · rfl
  | some runner => exact get_replace hget ((runner.set_draining_id epoch draining).trans (get_id hget)) other

theorem RegistryData.get_remove (data : RegistryData) (id other : String) :
    (data.remove id).2.get other = if other = id then none else data.get other := by
  unfold RegistryData.remove RegistryData.get
  split
  · rename_i heq
    exact heq ▸ KeyedList.find_filter_self other data.runners
  · rename_i hne
    exact KeyedList.find_filter_ne hne

theorem RegistryData.get_begin_probe {data next : RegistryData} {epoch : Nat} {id : String} {probe : RunnerProbe}
    (h : data.begin_probe epoch id = some (probe, next)) :
    ∃ runner, data.get id = some runner ∧ probe = ⟨runner.record, epoch⟩ ∧
      ∀ other, next.get other = if other = id then some { runner with epoch := epoch } else data.get other := by
  unfold RegistryData.begin_probe at h
  obtain ⟨runner, hget, heq⟩ := Option.map_eq_some_iff.mp h
  obtain ⟨rfl, rfl⟩ := Prod.mk.inj heq
  exact ⟨runner, hget, rfl, get_replace hget (by exact (get_id hget : runner.record.id = id))⟩

/-- An answer changes at most the entry its probe may speak about. -/
theorem RegistryData.get_answer {data : RegistryData} {probe : RunnerProbe} {f : RunnerRecord → RunnerRecord}
    (hid : ∀ record, (f record).id = record.id) {id : String} {runner : RegisteredRunner}
    (h : (data.answer probe f).2.get id = some runner) :
    data.get id = some runner ∨ ∃ old, data.get id = some old ∧ probe.record.id = id ∧ old.epoch = probe.epoch ∧
      runner = { old with record := f old.record } := by
  unfold RegistryData.answer at h
  cases hprobed : data.probed probe with
  | none =>
    rw [hprobed] at h
    exact Or.inl h
  | some old =>
    rw [hprobed] at h
    dsimp only at h
    obtain ⟨hget, hepoch⟩ := probed_eq_some.mp hprobed
    rw [get_replace hget (by exact (hid old.record).trans (get_id hget))] at h
    split at h
    · rename_i heq
      rw [Option.some.injEq] at h
      exact Or.inr ⟨old, heq ▸ hget, heq.symm, hepoch, h.symm⟩
    · exact Or.inl h

end asmodeus.control_plane
