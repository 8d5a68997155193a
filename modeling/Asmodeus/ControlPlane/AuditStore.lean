import Asmodeus.Telemetry.Aggregate
import Asmodeus.Telemetry.Jsonl

open asmodeus.common asmodeus.telemetry

namespace asmodeus.control_plane

/-- The audit store: the published snapshot, and the log file behind it if the
store has a path. Every operation holds the writer lock from its first read to
its publication. -/
structure AuditStore where
  trail : AuditTrail
  aggregate : Aggregate
  log : Option LogFile

def AuditStore.load (reader : RecordReader) (log : Option LogFile) : Except IoError AuditStore := do
  let trail ← match log with
    | some file => AuditTrail.load_from_file reader file
    | none => .ok AuditTrail.new
  return ⟨trail, Aggregate.from_records trail.records, log⟩

def AuditStore.get (self : AuditStore) (run_id : String) : Option AuditRecord := self.trail.get run_id

def AuditStore.persist (self : AuditStore) (disk : Disk) (record : AuditRecord) :
    Except IoError Unit × AuditStore :=
  match self.log with
  | none => (.ok (), self)
  | some file =>
    let (result, file) := AuditTrail.append_to_file disk record file
    (result, { self with log := some file })

/-- Publication of a new record. -/
def AuditStore.publish_append (self : AuditStore) (record : AuditRecord) : AuditStore :=
  { self with aggregate := self.aggregate.record_run record, trail := self.trail.append record }

/-- Publication of a new revision of a record. -/
def AuditStore.publish_update (self : AuditStore) (old record : AuditRecord) : AuditStore :=
  { self with
    aggregate := self.aggregate.update_run old record
    trail := (self.trail.update record.run_id record).1 }

def AuditStore.append (self : AuditStore) (disk : Disk) (record : AuditRecord) :
    Except IoError Unit × AuditStore :=
  if (self.get record.run_id).isSome then (.error ⟨.AlreadyExists, "duplicate run ID"⟩, self)
  else match self.persist disk record with
    | (.error e, store) => (.error e, store)
    | (.ok (), store) => (.ok (), store.publish_append record)

/-- Read, modify and persist against the latest revision. -/
def AuditStore.update (self : AuditStore) (disk : Disk) (run_id : String)
    (update : AuditRecord → Except IoError AuditRecord) : Except IoError (Option AuditRecord) × AuditStore :=
  match self.get run_id with
  | none => (.ok none, self)
  | some old => match update old with
    | .error e => (.error e, self)
    | .ok record =>
      if record.run_id ≠ run_id then (.error ⟨.InvalidInput, "cannot change run ID"⟩, self)
      else match self.persist disk record with
        | (.error e, store) => (.error e, store)
        | (.ok (), store) => (.ok (some record), store.publish_update old record)

/-- What startup reconciliation writes into an unfinished record, before it is
signed. -/
def interrupted (now : String) (record : AuditRecord) : AuditRecord :=
  { record with
    status := "INTERRUPTED"
    cleanup_status := "UNCONFIRMED"
    evidence := record.evidence.map fun e =>
      { e with
        cleanup_confirmed := false
        failure_reason := some "control-plane restarted before terminal acknowledgement" }
    timestamp_utc := now }

/-- One iteration of `recover_incomplete`. -/
def AuditStore.recover_record (crypto : Crypto) (key : List UInt8) (now : String) (disk : Disk)
    (self : AuditStore) (old : AuditRecord) : Except IoError AuditRecord × AuditStore :=
  match (interrupted now old).sign crypto key with
  | .error e => (.error (.other e), self)
  | .ok record => match self.persist disk record with
    | (.error e, store) => (.error e, store)
    | (.ok (), store) => (.ok record, store.publish_update old record)

/-- The loop of `recover_incomplete`. The clock and the outcome of every write
are given per iteration. -/
def AuditStore.recover_records (crypto : Crypto) (key : List UInt8) (now : Nat → String) (disk : Nat → Disk) :
    List AuditRecord → Nat → AuditStore → Except IoError Unit × AuditStore
  | [], _, self => (.ok (), self)
  | old :: rest, iteration, self =>
    match self.recover_record crypto key (now iteration) (disk iteration) old with
    | (.error e, store) => (.error e, store)
    | (.ok _, store) => recover_records crypto key now disk rest (iteration + 1) store

/-- The records a restart still has to close. -/
def AuditStore.incomplete (self : AuditStore) : List AuditRecord :=
  self.trail.records.filter fun r => !r.is_terminal

/-- Startup reconciliation never retries a potentially executed operation. -/
def AuditStore.recover_incomplete (crypto : Crypto) (key : List UInt8) (now : Nat → String)
    (disk : Nat → Disk) (self : AuditStore) : Except IoError Unit × AuditStore :=
  recover_records crypto key now disk self.incomplete 0 self

/-- The store's log after one more line. -/
def AuditStore.logged (self : AuditStore) (record : AuditRecord) : AuditStore :=
  { self with log := self.log.map fun file => some (file.getD [] ++ record_line record) }

/-- A write either leaves the store as it was or adds the line. -/
theorem AuditStore.persist_cases {self store : AuditStore} {disk : Disk} {record : AuditRecord}
    {result : Except IoError Unit} (h : self.persist disk record = (result, store)) :
    (∃ e, result = .error e ∧ store = self) ∨ (result = .ok () ∧ store = self.logged record) := by
  unfold AuditStore.persist at h
  split at h
  · rename_i hlog
    obtain ⟨rfl, rfl⟩ := Prod.mk.inj h
    exact Or.inr ⟨rfl, by rw [logged, hlog, Option.map_none, ← hlog]⟩
  · rename_i file hlog
    cases disk with
    | error e =>
      obtain ⟨rfl, rfl⟩ := Prod.mk.inj h
      exact Or.inl ⟨e, rfl, by cases self; cases hlog; rfl⟩
    | ok _ =>
      obtain ⟨rfl, rfl⟩ := Prod.mk.inj h
      exact Or.inr ⟨rfl, by rw [logged, hlog]; rfl⟩

/-- An append fails without a trace or commits a record of a new run. -/
theorem AuditStore.append_cases {self store : AuditStore} {disk : Disk} {record : AuditRecord}
    {result : Except IoError Unit} (h : self.append disk record = (result, store)) :
    (∃ e, result = .error e ∧ store = self) ∨
      (result = .ok () ∧ self.get record.run_id = none ∧ store = (self.logged record).publish_append record) := by
  unfold AuditStore.append at h
  split at h
  · obtain ⟨rfl, rfl⟩ := Prod.mk.inj h
    exact Or.inl ⟨_, rfl, rfl⟩
  · rename_i hfresh
    rw [Option.not_isSome_iff_eq_none] at hfresh
    cases hpersist : self.persist disk record with
    | mk outcome middle =>
      rw [hpersist] at h
      obtain ⟨e, rfl, rfl⟩ | ⟨rfl, rfl⟩ := persist_cases hpersist
      · obtain ⟨rfl, rfl⟩ := Prod.mk.inj h
        exact Or.inl ⟨e, rfl, rfl⟩
      · obtain ⟨rfl, rfl⟩ := Prod.mk.inj h
        exact Or.inr ⟨rfl, hfresh, rfl⟩

/-- An update fails without a trace, finds no record, or commits a revision of
the record it found. -/
theorem AuditStore.update_cases {self store : AuditStore} {disk : Disk} {run_id : String}
    {update : AuditRecord → Except IoError AuditRecord} {result : Except IoError (Option AuditRecord)}
    (h : self.update disk run_id update = (result, store)) :
    (∃ e, result = .error e ∧ store = self) ∨ (result = .ok none ∧ self.get run_id = none ∧ store = self) ∨
      ∃ old record, self.get run_id = some old ∧ update old = .ok record ∧ record.run_id = run_id ∧
        result = .ok (some record) ∧ store = (self.logged record).publish_update old record := by
  unfold AuditStore.update at h
  split at h
  · rename_i hnone
    obtain ⟨rfl, rfl⟩ := Prod.mk.inj h
    exact Or.inr (Or.inl ⟨rfl, hnone, rfl⟩)
  · rename_i old hold
    split at h
    · obtain ⟨rfl, rfl⟩ := Prod.mk.inj h
      exact Or.inl ⟨_, rfl, rfl⟩
    · rename_i record hrecord
      split at h
      · obtain ⟨rfl, rfl⟩ := Prod.mk.inj h
        exact Or.inl ⟨_, rfl, rfl⟩
      · rename_i hid
        rw [not_not] at hid
        cases hpersist : self.persist disk record with
        | mk outcome middle =>
          rw [hpersist] at h
          obtain ⟨e, rfl, rfl⟩ | ⟨rfl, rfl⟩ := persist_cases hpersist
          · obtain ⟨rfl, rfl⟩ := Prod.mk.inj h
            exact Or.inl ⟨e, rfl, rfl⟩
          · obtain ⟨rfl, rfl⟩ := Prod.mk.inj h
            exact Or.inr (Or.inr ⟨old, record, hold, hrecord, hid, rfl, rfl⟩)

theorem interrupted_spec {crypto : Crypto} {key : List UInt8} {now : String} {old record : AuditRecord}
    (h : (interrupted now old).sign crypto key = .ok record) :
    record.run_id = old.run_id ∧ record.status = "INTERRUPTED" ∧ record.cleanup_status = "UNCONFIRMED" ∧
      record.evidence = (interrupted now old).evidence := by
  obtain ⟨sig, pk, rfl⟩ := AuditRecord.sign_eq h
  exact ⟨rfl, rfl, rfl, rfl⟩

/-- An iteration of the recovery fails without a trace or commits the signed
closing revision. -/
theorem AuditStore.recover_record_cases {crypto : Crypto} {key : List UInt8} {now : String} {disk : Disk}
    {self store : AuditStore} {old : AuditRecord} {result : Except IoError AuditRecord}
    (h : self.recover_record crypto key now disk old = (result, store)) :
    (∃ e, result = .error e ∧ store = self) ∨
      ∃ record, (interrupted now old).sign crypto key = .ok record ∧ result = .ok record ∧
        store = (self.logged record).publish_update old record := by
  unfold AuditStore.recover_record at h
  split at h
  · obtain ⟨rfl, rfl⟩ := Prod.mk.inj h
    exact Or.inl ⟨_, rfl, rfl⟩
  · rename_i record hsign
    cases hpersist : self.persist disk record with
    | mk outcome middle =>
      rw [hpersist] at h
      obtain ⟨e, rfl, rfl⟩ | ⟨rfl, rfl⟩ := persist_cases hpersist
      · obtain ⟨rfl, rfl⟩ := Prod.mk.inj h
        exact Or.inl ⟨e, rfl, rfl⟩
      · obtain ⟨rfl, rfl⟩ := Prod.mk.inj h
        exact Or.inr ⟨record, hsign, rfl, rfl⟩

end asmodeus.control_plane
