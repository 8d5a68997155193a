import Asmodeus.Lib.KeyedList
import Asmodeus.Lib.Lines
import Asmodeus.Telemetry.Record
import Mathlib.Data.List.Induction

open asmodeus.common

namespace asmodeus.telemetry

/-- In-memory collection of audit records, in insertion order. -/
structure AuditTrail where
  records : List AuditRecord
  deriving DecidableEq

def AuditTrail.new : AuditTrail := ⟨[]⟩

def AuditTrail.append (self : AuditTrail) (record : AuditRecord) : AuditTrail := ⟨self.records ++ [record]⟩

/-- Find an audit record by exact run ID. -/
def AuditTrail.get (self : AuditTrail) (run_id : String) : Option AuditRecord :=
  KeyedList.find AuditRecord.run_id run_id self.records

/-- Update an existing audit record where it stands. -/
def AuditTrail.update (self : AuditTrail) (run_id : String) (updated : AuditRecord) : AuditTrail × Bool :=
  match self.records.findIdx? fun r => decide (r.run_id = run_id) with
  | some pos => (⟨self.records.set pos updated⟩, true)
  | none => (self, false)

theorem AuditTrail.update_records (self : AuditTrail) (run_id : String) (updated : AuditRecord) :
    (self.update run_id updated).1.records =
      KeyedList.replace AuditRecord.run_id run_id updated self.records := by
  unfold AuditTrail.update
  split
  · rename_i pos hpos
    exact KeyedList.set_findIdx hpos
  · rename_i hnone
    rw [KeyedList.replace_of_find_none]
    rw [← Option.isNone_iff_eq_none, ← Option.not_isSome, ← KeyedList.findIdx_isSome, hnone]
    rfl

/-- The replay of a log so far: the records and the position of each run ID,
as `from_jsonl` keeps them. -/
structure Replay where
  records : List AuditRecord
  positions : String → Option Nat

def Replay.start : Replay := ⟨[], fun _ => none⟩

/-- One revision: it overwrites the record at the position of its run ID, or
takes the next position. -/
def Replay.insert (self : Replay) (rec : AuditRecord) : Replay :=
  match self.positions rec.run_id with
  | some pos => { self with records := self.records.set pos rec }
  | none =>
    { records := self.records ++ [rec]
      positions := Function.update self.positions rec.run_id (some self.records.length) }

/-- The position index points at the first record of every run ID. -/
def Replay.Indexed (self : Replay) : Prop :=
  ∀ run_id, self.positions run_id = self.records.findIdx? fun r => decide (r.run_id = run_id)

theorem Replay.indexed_start : Replay.start.Indexed := fun _ => rfl

theorem Replay.insert_spec {self : Replay} (hindexed : self.Indexed) (rec : AuditRecord) :
    (self.insert rec).records = KeyedList.upsert AuditRecord.run_id self.records rec ∧
      (self.insert rec).Indexed := by
  have hposition := hindexed rec.run_id
  have hfound : (self.records.findIdx? fun r => decide (r.run_id = rec.run_id)).isSome =
      (KeyedList.find AuditRecord.run_id rec.run_id self.records).isSome := KeyedList.findIdx_isSome
  unfold Replay.insert
  cases hpos : self.positions rec.run_id with
  | some pos =>
    rw [hpos] at hposition
    rw [← hposition] at hfound
    have hset : self.records.set pos rec =
        KeyedList.replace AuditRecord.run_id rec.run_id rec self.records :=
      KeyedList.set_findIdx hposition.symm
    refine ⟨by rw [KeyedList.upsert, ← hfound, Option.isSome_some, if_pos rfl, ← hset], fun run_id => ?_⟩
    dsimp only
    rw [hset, hindexed run_id]
    have hids : (KeyedList.replace AuditRecord.run_id rec.run_id rec self.records).map AuditRecord.run_id =
        self.records.map AuditRecord.run_id := KeyedList.map_replace rfl
    have hidx : ∀ records : List AuditRecord, (records.findIdx? fun r => decide (r.run_id = run_id)) =
        (records.map AuditRecord.run_id).findIdx? fun id => decide (id = run_id) := by
      intro records
      rw [List.findIdx?_map]
      rfl
    rw [hidx, hidx, hids]
  | none =>
    rw [hpos] at hposition
    rw [← hposition] at hfound
    refine ⟨by rw [KeyedList.upsert, ← hfound, Option.isSome_none, if_neg (by decide)], fun run_id => ?_⟩
    dsimp only
    rw [List.findIdx?_append]
    by_cases hid : run_id = rec.run_id
    · subst hid
      rw [Function.update_self, ← hposition]
      simp
    · rw [Function.update_of_ne hid, hindexed run_id]
      simp [Ne.symm hid]

/-- What a log of revisions replays to: the last revision of each run, in the
order of the first revisions. -/
def replay (revisions : List AuditRecord) : List AuditRecord :=
  revisions.foldl (KeyedList.upsert AuditRecord.run_id) []

theorem replay_snoc (revisions : List AuditRecord) (record : AuditRecord) :
    replay (revisions ++ [record]) = KeyedList.upsert AuditRecord.run_id (replay revisions) record := by
  rw [replay, List.foldl_append]
  rfl

theorem replay_unique (revisions : List AuditRecord) :
    KeyedList.Unique AuditRecord.run_id (replay revisions) := by
  induction revisions using List.reverseRecOn with
  | nil => exact KeyedList.unique_nil
  | append_singleton revisions record ih =>
    rw [replay_snoc]
    exact ih.upsert

theorem replay_insert (revisions : List AuditRecord) :
    (revisions.foldl Replay.insert Replay.start).records = replay revisions ∧
      (revisions.foldl Replay.insert Replay.start).Indexed := by
  induction revisions using List.reverseRecOn with
  | nil => exact ⟨rfl, Replay.indexed_start⟩
  | append_singleton revisions record ih =>
    obtain ⟨hrecords, hindexed⟩ := ih
    rw [List.foldl_append, List.foldl_cons, List.foldl_nil, replay_snoc, ← hrecords]
    exact Replay.insert_spec hindexed record

end asmodeus.telemetry
