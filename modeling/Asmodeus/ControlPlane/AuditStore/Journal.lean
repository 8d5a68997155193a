import Asmodeus.ControlPlane.AuditStore

open asmodeus.common asmodeus.telemetry

namespace asmodeus.control_plane

/-- What the store stands for: a journal of every committed revision. The trail
is its replay, the log its lines, and the aggregate a recount of the trail. -/
structure AuditStore.Faithful (store : AuditStore) (revisions : List AuditRecord) : Prop where
  records : store.trail.records = replay revisions
  log : ∀ file, store.log = some file → file.getD [] = log_bytes revisions
  aggregate : store.aggregate = Aggregate.from_records store.trail.records

theorem log_bytes_eq_nil {revisions : List AuditRecord} (h : log_bytes revisions = []) : revisions = [] := by
  cases revisions with
  | nil => rfl
  | cons record revisions =>
    have hline := List.append_eq_nil_iff.mp h
    simp [record_line] at hline

theorem AuditStore.Faithful.unique {self : AuditStore} {revisions : List AuditRecord}
    (hfaithful : self.Faithful revisions) : KeyedList.Unique AuditRecord.run_id self.trail.records := by
  rw [hfaithful.records]
  exact replay_unique revisions

/-- Replaying the log of a store gives its trail back. -/
theorem AuditStore.Faithful.load_from_file {self : AuditStore} {revisions : List AuditRecord}
    (hfaithful : self.Faithful revisions) (reader : RecordReader) {file : LogFile} (hfile : self.log = some file) :
    AuditTrail.load_from_file reader file = .ok self.trail := by
  have hbytes := hfaithful.log file hfile
  have htrail : self.trail = ⟨replay revisions⟩ := by rw [← hfaithful.records]
  cases file with
  | none =>
    obtain rfl := log_bytes_eq_nil hbytes.symm
    rw [htrail]
    rfl
  | some bytes =>
    rw [Option.getD_some] at hbytes
    rw [AuditTrail.load_from_file, hbytes, from_jsonl_log, htrail]

/-- A restart from the store's own log restores the whole store. -/
theorem AuditStore.Faithful.reload {self : AuditStore} {revisions : List AuditRecord}
    (hfaithful : self.Faithful revisions) (reader : RecordReader) {file : LogFile} (hfile : self.log = some file) :
    AuditStore.load reader (some file) = .ok self := by
  have hload := hfaithful.load_from_file reader hfile
  rw [AuditStore.load]
  dsimp only
  rw [hload]
  change Except.ok _ = _
  rw [← hfaithful.aggregate, ← hfile]

/-- A log of complete lines loads as the store of its revisions. -/
theorem AuditStore.Faithful.of_load {reader : RecordReader} {file : LogFile} {revisions : List AuditRecord}
    {self : AuditStore} (hbytes : file.getD [] = log_bytes revisions)
    (hload : AuditStore.load reader (some file) = .ok self) : self.Faithful revisions := by
  let store : AuditStore := ⟨⟨replay revisions⟩, Aggregate.from_records (replay revisions), some file⟩
  have hstore : store.Faithful revisions :=
    ⟨rfl, fun other hother => by rw [← Option.some.inj hother]; exact hbytes, rfl⟩
  have hsame := hstore.reload reader rfl
  rw [hload, Except.ok.injEq] at hsame
  exact hsame ▸ hstore

/-- Without a path the store starts empty. -/
theorem AuditStore.Faithful.of_load_none {reader : RecordReader} {self : AuditStore}
    (hload : AuditStore.load reader none = .ok self) : self.Faithful [] := by
  rw [AuditStore.load] at hload
  obtain rfl := Except.ok.inj hload
  exact ⟨rfl, fun file hfile => (Option.some_ne_none file hfile.symm).elim, rfl⟩

theorem AuditStore.logged_log {self : AuditStore} {revisions : List AuditRecord} {record : AuditRecord}
    (hlog : ∀ file, self.log = some file → file.getD [] = log_bytes revisions) :
    ∀ file, (self.logged record).log = some file → file.getD [] = log_bytes (revisions ++ [record]) := by
  intro file hfile
  rw [AuditStore.logged, Option.map_eq_some_iff] at hfile
  obtain ⟨previous, hprevious, rfl⟩ := hfile
  rw [Option.getD_some, hlog previous hprevious, log_bytes_snoc]

theorem AuditStore.Faithful.append {self : AuditStore} {revisions : List AuditRecord} {record : AuditRecord}
    (hfaithful : self.Faithful revisions) (hfresh : self.get record.run_id = none) :
    ((self.logged record).publish_append record).Faithful (revisions ++ [record]) where
  records := by
    rw [AuditStore.get, AuditTrail.get, hfaithful.records] at hfresh
    rw [replay_snoc, KeyedList.upsert_of_find_none hfresh, ← hfaithful.records]
    rfl
  log := AuditStore.logged_log hfaithful.log
  aggregate := by
    change self.aggregate.record_run record = Aggregate.from_records (self.trail.records ++ [record])
    rw [Aggregate.from_records_append, hfaithful.aggregate]

theorem AuditStore.Faithful.update {self : AuditStore} {revisions : List AuditRecord} {old record : AuditRecord}
    (hfaithful : self.Faithful revisions) (hold : self.get record.run_id = some old) :
    ((self.logged record).publish_update old record).Faithful (revisions ++ [record]) where
  records := by
    change (self.trail.update record.run_id record).1.records = _
    rw [AuditStore.get, AuditTrail.get, hfaithful.records] at hold
    rw [replay_snoc, KeyedList.upsert_of_find_some hold, AuditTrail.update_records, hfaithful.records]
  log := AuditStore.logged_log hfaithful.log
  aggregate := by
    change self.aggregate.update_run old record =
      Aggregate.from_records (self.trail.update record.run_id record).1.records
    obtain ⟨before, after, hsplit, -, -, hreplace⟩ := KeyedList.find_split hold
    rw [AuditTrail.update_records, hreplace, hfaithful.aggregate, hsplit, Aggregate.update_run_spec]

theorem AuditStore.get_publish_append {self : AuditStore} {record : AuditRecord}
    (hfresh : self.get record.run_id = none) (run_id : String) :
    ((self.logged record).publish_append record).get run_id =
      if run_id = record.run_id then some record else self.get run_id := by
  change KeyedList.find AuditRecord.run_id run_id (self.trail.records ++ [record]) = _
  split
  · rename_i hid
    exact hid ▸ KeyedList.find_append_self hfresh rfl
  · rename_i hid
    exact KeyedList.find_append_of_ne (Ne.symm hid)

theorem AuditStore.get_publish_update {self : AuditStore} {old record : AuditRecord}
    (hold : self.get record.run_id = some old) (run_id : String) :
    ((self.logged record).publish_update old record).get run_id =
      if run_id = record.run_id then some record else self.get run_id := by
  change KeyedList.find AuditRecord.run_id run_id (self.trail.update record.run_id record).1.records = _
  rw [AuditTrail.update_records]
  split
  · rename_i hid
    subst hid
    exact KeyedList.find_replace_self rfl hold
  · rename_i hid
    exact KeyedList.find_replace_of_ne rfl hid

/-- The trail after closing revisions took the places of the old ones. -/
def close_records (records : List AuditRecord) (closed : List (AuditRecord × AuditRecord)) : List AuditRecord :=
  closed.foldl (fun records entry => KeyedList.replace AuditRecord.run_id entry.2.run_id entry.2 records) records

/-- How far the recovery loop came: it committed, for the first of the records
it was given, the signed revisions that close them, and nothing else. -/
structure Recovered (crypto : Crypto) (key : List UInt8) (pending : List AuditRecord)
    (before after : AuditStore) (closed : List (AuditRecord × AuditRecord)) : Prop where
  first : closed.map Prod.fst <+: pending
  signed : ∀ old record, (old, record) ∈ closed → ∃ now, (interrupted now old).sign crypto key = .ok record
  records : after.trail.records = close_records before.trail.records closed
  faithful : ∀ revisions, before.Faithful revisions → after.Faithful (revisions ++ closed.map Prod.snd)
  log : after.log.isSome = before.log.isSome

theorem Recovered.nothing (crypto : Crypto) (key : List UInt8) (pending : List AuditRecord)
    (store : AuditStore) : Recovered crypto key pending store store [] :=
  ⟨List.nil_prefix, by simp, rfl, fun revisions h => by simpa using h, rfl⟩

/-- One more closed record before those of a later part of the loop. -/
theorem Recovered.cons {crypto : Crypto} {key : List UInt8} {now : String} {rest : List AuditRecord}
    {self store : AuditStore} {old record : AuditRecord} {closed : List (AuditRecord × AuditRecord)}
    (hold : self.get record.run_id = some old) (hsign : (interrupted now old).sign crypto key = .ok record)
    (hrest : Recovered crypto key rest ((self.logged record).publish_update old record) store closed) :
    Recovered crypto key (old :: rest) self store ((old, record) :: closed) where
  first := List.cons_prefix_cons.mpr ⟨rfl, hrest.first⟩
  signed := by
    intro old' record' hmem
    rcases List.mem_cons.mp hmem with heq | hmem
    · obtain ⟨rfl, rfl⟩ := Prod.mk.inj heq
      exact ⟨now, hsign⟩
    · exact hrest.signed old' record' hmem
  records := by
    rw [hrest.records]
    change close_records (self.trail.update record.run_id record).1.records closed = _
    rw [AuditTrail.update_records]
    rfl
  faithful := by
    intro revisions hfaithful
    simpa using hrest.faithful _ (hfaithful.update hold)
  log := by
    rw [hrest.log]
    exact Option.isSome_map

/-- The recovery loop commits closing revisions one by one, and all of them
exactly when it succeeds. -/
theorem AuditStore.recover_records_spec {crypto : Crypto} {key : List UInt8} {now : Nat → String}
    {disk : Nat → Disk} {pending : List AuditRecord} {iteration : Nat} {self store : AuditStore}
    {result : Except IoError Unit} (hpending : ∀ old ∈ pending, self.get old.run_id = some old)
    (hunique : KeyedList.Unique AuditRecord.run_id pending)
    (h : self.recover_records crypto key now disk pending iteration = (result, store)) :
    ∃ closed, Recovered crypto key pending self store closed ∧
      (result = .ok () ↔ closed.map Prod.fst = pending) := by
  induction pending generalizing iteration self with
  | nil =>
    obtain ⟨rfl, rfl⟩ := Prod.mk.inj h
    exact ⟨[], .nothing crypto key [] self, iff_of_true rfl rfl⟩
  | cons old rest ih =>
    unfold AuditStore.recover_records at h
    cases hone : self.recover_record crypto key (now iteration) (disk iteration) old with
    | mk outcome middle =>
      rw [hone] at h
      obtain ⟨e, rfl, rfl⟩ | ⟨record, hsign, rfl, rfl⟩ := AuditStore.recover_record_cases hone
      · obtain ⟨rfl, rfl⟩ := Prod.mk.inj h
        exact ⟨[], .nothing crypto key (old :: rest) middle, by simp⟩
      · have hid := (interrupted_spec hsign).1
        have hold : self.get record.run_id = some old := hid ▸ hpending old List.mem_cons_self
        have hother : old.run_id ∉ rest.map AuditRecord.run_id := (List.nodup_cons.mp hunique).1
        have hlater : ∀ later ∈ rest,
            ((self.logged record).publish_update old record).get later.run_id = some later := by
          intro later hlater
          rw [AuditStore.get_publish_update hold, if_neg]
          · exact hpending later (List.mem_cons_of_mem old hlater)
          · intro heq
            exact hother (hid ▸ heq ▸ List.mem_map_of_mem hlater)
        obtain ⟨closed, hclosed, hall⟩ := ih hlater (List.Nodup.of_cons hunique) h
        exact ⟨(old, record) :: closed, .cons hold hsign hclosed, by simp [hall]⟩

/-- Startup reconciliation closes the unfinished records of the trail in order,
up to the first write that fails. -/
theorem AuditStore.recover_incomplete_spec {crypto : Crypto} {key : List UInt8} {now : Nat → String}
    {disk : Nat → Disk} {self store : AuditStore} {result : Except IoError Unit}
    (hunique : KeyedList.Unique AuditRecord.run_id self.trail.records)
    (h : self.recover_incomplete crypto key now disk = (result, store)) :
    ∃ closed, Recovered crypto key self.incomplete self store closed ∧
      (result = .ok () ↔ closed.map Prod.fst = self.incomplete) := by
  refine AuditStore.recover_records_spec ?_ (hunique.sublist (List.filter_sublist.map _)) h
  intro old hold
  exact hunique.find_of_mem (List.mem_of_mem_filter hold)

end asmodeus.control_plane
