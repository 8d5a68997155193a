import Asmodeus.ControlPlane.AuditStore.Journal
import Asmodeus.Lib.Transition

open asmodeus.common asmodeus.telemetry

namespace asmodeus.control_plane

/-- The operations of the store, each with the outcomes of its writes. -/
inductive AuditOp
  | append (disk : Disk) (record : AuditRecord)
  | update (disk : Disk) (run_id : String) (update : AuditRecord → Except IoError AuditRecord)
  | recover_incomplete (key : List UInt8) (now : Nat → String) (disk : Nat → Disk)

def AuditStore.apply (crypto : Crypto) (self : AuditStore) : AuditOp → Except IoError Unit × AuditStore
  | .append disk record => self.append disk record
  | .update disk run_id update =>
    let (result, store) := self.update disk run_id update
    (result.map fun _ => (), store)
  | .recover_incomplete key now disk => self.recover_incomplete crypto key now disk

/-- Operations are serialized by the writer lock; a failed one is a step too. -/
def AuditStore.step (crypto : Crypto) (self : AuditStore) (op : AuditOp) : Option AuditStore :=
  some (self.apply crypto op).2

/-- A store loaded from a missing file or from complete lines. -/
def AuditStore.Started (reader : RecordReader) (store : AuditStore) : Prop :=
  ∃ file revisions, file.getD [] = log_bytes revisions ∧ AuditStore.load reader (some file) = .ok store

/-- The file of the store loads, and as exactly its trail. -/
def AuditStore.Replays (reader : RecordReader) (store : AuditStore) : Prop :=
  ∃ file, store.log = some file ∧ AuditTrail.load_from_file reader file = .ok store.trail

/-- Memory, log and metrics of a store agree. -/
structure AuditStore.Agrees (reader : RecordReader) (store : AuditStore) : Prop where
  replays : store.Replays reader
  unique : KeyedList.Unique AuditRecord.run_id store.trail.records
  recount : ∀ records, records.Perm store.trail.records → store.aggregate = Aggregate.from_records records
  covered : ∀ record ∈ store.trail.records, (Aggregate.contribution record).Covers store.aggregate
  balanced : store.aggregate.Balanced

theorem AuditStore.Faithful.agrees {self : AuditStore} {revisions : List AuditRecord}
    (hfaithful : self.Faithful revisions) (hlog : self.log.isSome) (reader : RecordReader) :
    self.Agrees reader where
  replays := by
    obtain ⟨file, hfile⟩ := Option.isSome_iff_exists.mp hlog
    exact ⟨file, hfile, hfaithful.load_from_file reader hfile⟩
  unique := hfaithful.unique
  recount := by
    intro records hperm
    rw [hfaithful.aggregate, Aggregate.from_records_perm hperm]
  covered := by
    intro record hmem
    rw [hfaithful.aggregate]
    exact Aggregate.contribution_covers hmem
  balanced := by
    rw [hfaithful.aggregate]
    exact Aggregate.from_records_balanced _

/-- The store has a log and is faithful to some journal. -/
def AuditStore.Journaled (store : AuditStore) : Prop :=
  store.log.isSome ∧ ∃ revisions, store.Faithful revisions

theorem AuditStore.Started.journaled {reader : RecordReader} {store : AuditStore}
    (hstarted : store.Started reader) : store.Journaled := by
  obtain ⟨file, revisions, hbytes, hload⟩ := hstarted
  have hfaithful := AuditStore.Faithful.of_load hbytes hload
  refine ⟨?_, revisions, hfaithful⟩
  rw [AuditStore.load] at hload
  cases htrail : AuditTrail.load_from_file reader file with
  | error e =>
    rw [htrail] at hload
    cases hload
  | ok trail =>
    rw [htrail] at hload
    rw [← Except.ok.inj hload]
    rfl

theorem AuditStore.Journaled.append {self : AuditStore} {record : AuditRecord} (hself : self.Journaled)
    (hfresh : self.get record.run_id = none) : ((self.logged record).publish_append record).Journaled := by
  obtain ⟨hlog, revisions, hfaithful⟩ := hself
  exact ⟨Option.isSome_map.trans hlog, _, hfaithful.append hfresh⟩

theorem AuditStore.Journaled.update {self : AuditStore} {old record : AuditRecord} (hself : self.Journaled)
    (hold : self.get record.run_id = some old) :
    ((self.logged record).publish_update old record).Journaled := by
  obtain ⟨hlog, revisions, hfaithful⟩ := hself
  exact ⟨Option.isSome_map.trans hlog, _, hfaithful.update hold⟩

theorem AuditStore.Journaled.recovered {crypto : Crypto} {key : List UInt8} {pending : List AuditRecord}
    {before after : AuditStore} {closed : List (AuditRecord × AuditRecord)} (hbefore : before.Journaled)
    (hrecovered : Recovered crypto key pending before after closed) : after.Journaled := by
  obtain ⟨hlog, revisions, hfaithful⟩ := hbefore
  exact ⟨hrecovered.log.trans hlog, _, hrecovered.faithful revisions hfaithful⟩

/-- What an operation may leave behind when it fails: an append or an update
nothing, a recovery the closing revisions it had already committed, which are
those of the first unfinished records but not of all of them. -/
def AuditStore.FailsCleanly (crypto : Crypto) (before after : AuditStore) : AuditOp → Prop
  | .append _ _ | .update _ _ _ => after.trail = before.trail ∧ after.aggregate = before.aggregate
  | .recover_incomplete key _ _ => ∃ closed, Recovered crypto key before.incomplete before after closed ∧
      closed.map Prod.fst ≠ before.incomplete

/-- One operation keeps the store journaled, and a failed one fails cleanly. -/
theorem AuditStore.Journaled.apply {crypto : Crypto} {self next : AuditStore} {op : AuditOp}
    {result : Except IoError Unit} (hself : self.Journaled) (h : self.apply crypto op = (result, next)) :
    next.Journaled ∧ ∀ e, result = .error e → self.FailsCleanly crypto next op := by
  cases op with
  | append disk record =>
    obtain ⟨e, rfl, rfl⟩ | ⟨rfl, hfresh, rfl⟩ := AuditStore.append_cases h
    · exact ⟨hself, fun _ _ => ⟨rfl, rfl⟩⟩
    · exact ⟨hself.append hfresh, fun e he => by cases he⟩
  | update disk run_id update =>
    cases hupdate : self.update disk run_id update with
    | mk outcome store =>
      rw [AuditStore.apply, hupdate] at h
      obtain ⟨rfl, rfl⟩ := Prod.mk.inj h
      obtain ⟨e, rfl, rfl⟩ | ⟨rfl, -, rfl⟩ | ⟨old, record, hold, -, rfl, rfl, rfl⟩ :=
        AuditStore.update_cases hupdate
      · exact ⟨hself, fun _ _ => ⟨rfl, rfl⟩⟩
      · exact ⟨hself, fun e he => by cases he⟩
      · exact ⟨hself.update hold, fun e he => by cases he⟩
  | recover_incomplete key now disk =>
    obtain ⟨revisions, hfaithful⟩ := hself.2
    obtain ⟨closed, hrecovered, hall⟩ := AuditStore.recover_incomplete_spec hfaithful.unique h
    refine ⟨hself.recovered hrecovered, ?_⟩
    rintro e rfl
    exact ⟨closed, hrecovered, fun hclosed => by cases hall.mpr hclosed⟩

theorem AuditStore.journaled_preserved (crypto : Crypto) :
    Transition.Preserved (AuditStore.step crypto) AuditStore.Journaled := by
  intro store op next hstore hstep
  obtain rfl := Option.some.inj hstep
  exact (hstore.apply rfl).1

/-- Along every sequence of operations, the log replays to the trail, the
aggregate is a recount of it in any order, and a failed operation changes
nothing beyond what a recovery had already committed. -/
theorem AuditStore.operations_agree (crypto : Crypto) (reader : RecordReader) {store : AuditStore}
    (hreach : Transition.Reachable (AuditStore.step crypto) (AuditStore.Started reader) store) :
    store.Agrees reader ∧
      ∀ op result next, store.apply crypto op = (result, next) →
        next.Agrees reader ∧ ∀ e, result = .error e → store.FailsCleanly crypto next op := by
  have hstore : store.Journaled :=
    hreach.invariant (fun _ hstarted => hstarted.journaled) (AuditStore.journaled_preserved crypto)
  obtain ⟨hlog, revisions, hfaithful⟩ := hstore
  refine ⟨hfaithful.agrees hlog reader, ?_⟩
  intro op result next happly
  obtain ⟨⟨hlog', revisions', hfaithful'⟩, hfails⟩ := AuditStore.Journaled.apply ⟨hlog, revisions, hfaithful⟩ happly
  exact ⟨hfaithful'.agrees hlog' reader, hfails⟩

noncomputable def strict_reader : RecordReader := .strict AuditRecord.to_json_unambiguous

/-- The store of a log with two admitted runs. -/
def two_queued : AuditStore :=
  let records := [runner_record "run-1" "QUEUED", runner_record "run-2" "QUEUED"]
  ⟨⟨records⟩, Aggregate.from_records records, some (some (log_bytes records))⟩

theorem two_queued_started : two_queued.Started strict_reader := by
  have hfaithful : two_queued.Faithful [runner_record "run-1" "QUEUED", runner_record "run-2" "QUEUED"] :=
    ⟨rfl, fun file hfile => by rw [← Option.some.inj hfile]; rfl, rfl⟩
  exact ⟨_, _, rfl, hfaithful.reload strict_reader rfl⟩

/-- An append to a store freshly loaded from its own log. -/
theorem operations_agree_append :
    (two_queued.append (.ok ()) (runner_record "run-3" "QUEUED")).2.Agrees strict_reader :=
  ((AuditStore.operations_agree blank_crypto strict_reader (.of_init two_queued_started)).2
    (.append (.ok ()) (runner_record "run-3" "QUEUED")) _ _ rfl).1

/-- A recovery whose second write fails has already closed the first run: the
error comes with a changed trail and a changed aggregate. -/
theorem recover_error_changes_trail :
    ∃ next, Transition.Reachable (AuditStore.step blank_crypto) (AuditStore.Started strict_reader) two_queued ∧
      two_queued.apply blank_crypto (.recover_incomplete [] (fun _ => "2026-09-23T00:00:00Z")
        (fun iteration => if iteration = 0 then .ok () else .error (.other "No space left on device"))) =
          (.error (.other "No space left on device"), next) ∧
      next.trail ≠ two_queued.trail ∧ next.aggregate ≠ two_queued.aggregate :=
  ⟨_, .of_init two_queued_started, rfl, by decide, by decide⟩

end asmodeus.control_plane
