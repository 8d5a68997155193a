import Asmodeus.ControlPlane.AuditStore.Agreement

open asmodeus.common asmodeus.telemetry

namespace asmodeus.control_plane

/-- An operation of the store that succeeds. -/
def AuditStore.succeed (crypto : Crypto) (self : AuditStore) (op : AuditOp) : Option AuditStore :=
  match self.apply crypto op with
  | (.ok (), store) => some store
  | (.error _, _) => none

/-- What a crash left at the end of a log does no harm: if a restart accepts the
file, it stays loadable, as the trail of the restarted store, through every
further sequence of successful operations. -/
def SurvivesCrash (crypto : Crypto) (reader : RecordReader) (revisions : List AuditRecord)
    (left : List UInt8) : Prop :=
  ∀ store, AuditStore.load reader (some (some ((appended revisions).getD [] ++ left))) = .ok store →
    ∀ ops final, Transition.run (AuditStore.succeed crypto) store ops = some final → final.Replays reader

theorem AuditStore.succeed_eq_some {crypto : Crypto} {self next : AuditStore} {op : AuditOp} :
    self.succeed crypto op = some next ↔ self.apply crypto op = (.ok (), next) := by
  unfold AuditStore.succeed
  split
  · rename_i store happly
    rw [happly, Option.some.injEq, Prod.mk.injEq]
    exact ⟨fun h => ⟨rfl, h⟩, fun h => h.2⟩
  · rename_i e store happly
    rw [happly]
    simp

theorem AuditStore.Journaled.replays {store : AuditStore} (hstore : store.Journaled) (reader : RecordReader) :
    store.Replays reader := by
  obtain ⟨hlog, revisions, hfaithful⟩ := hstore
  exact (hfaithful.agrees hlog reader).replays

/-- A store loaded from complete lines stays loadable. -/
theorem AuditStore.Started.survives {crypto : Crypto} {reader : RecordReader} {store final : AuditStore}
    {ops : List AuditOp} (hstarted : store.Started reader)
    (hrun : Transition.run (AuditStore.succeed crypto) store ops = some final) : final.Replays reader := by
  have hpreserved : Transition.Preserved (AuditStore.succeed crypto) AuditStore.Journaled :=
    fun self op next hself hstep => (hself.apply (AuditStore.succeed_eq_some.mp hstep)).1
  exact (hpreserved.run hstarted.journaled hrun).replays reader

/-- A crash after the last byte of the JSON text and before the newline: the
restart accepts the record, and its next revision of it ruins the log. -/
theorem not_survivesCrash_unterminated (crypto : Crypto) (reader : RecordReader)
    (revisions : List AuditRecord) (next : AuditRecord) :
    ¬ SurvivesCrash crypto reader revisions (Utf8.encode next.to_json) := by
  intro hsurvives
  rw [SurvivesCrash, appended_eq_log_bytes] at hsurvives
  let bytes := log_bytes revisions ++ Utf8.encode next.to_json
  let trail : AuditTrail := ⟨replay (revisions ++ [next])⟩
  let store : AuditStore := ⟨trail, Aggregate.from_records trail.records, some (some bytes)⟩
  have hload : AuditStore.load reader (some (some bytes)) = .ok store := by
    rw [AuditStore.load]
    dsimp only
    rw [AuditTrail.load_from_file, from_jsonl_unterminated]
    rfl
  have hget : store.get next.run_id = some next := by
    change KeyedList.find AuditRecord.run_id next.run_id (replay (revisions ++ [next])) = some next
    rw [replay_snoc]
    cases hfind : KeyedList.find AuditRecord.run_id next.run_id (replay revisions) with
    | none => rw [KeyedList.upsert_of_find_none hfind, KeyedList.find_append_self hfind rfl]
    | some old => rw [KeyedList.upsert_of_find_some hfind, KeyedList.find_replace_self rfl hfind]
  have hupdate : store.update (.ok ()) next.run_id .ok =
      (.ok (some next), (store.logged next).publish_update next next) := by
    rw [AuditStore.update, hget]
    simp only [ne_eq, not_true_eq_false, if_false]
    rfl
  have hstep : store.succeed crypto (.update (.ok ()) next.run_id .ok) =
      some ((store.logged next).publish_update next next) := by
    rw [AuditStore.succeed_eq_some, AuditStore.apply, hupdate]
    rfl
  obtain ⟨file, hfile, hreplay⟩ := hsurvives store hload [.update (.ok ()) next.run_id .ok] _
    (by rw [Transition.run_cons, hstep]; rfl)
  have hbytes : file = some (bytes ++ record_line next) := (Option.some.inj hfile).symm
  obtain ⟨e, he⟩ := from_jsonl_concatenated reader revisions next next
  rw [hbytes, AuditTrail.load_from_file, he] at hreplay
  cases hreplay

/-- Exactly one cut is harmful: the whole JSON text of the next revision without
its newline. A shorter one is refused at the restart, and a longer one is the
complete line. -/
theorem survivesCrash_iff (crypto : Crypto) (reader : RecordReader) (revisions : List AuditRecord)
    (next : AuditRecord) (left : List UInt8) (hleft : left <+: record_line next) :
    SurvivesCrash crypto reader revisions left ↔ left ≠ Utf8.encode next.to_json := by
  constructor
  · rintro hsurvives rfl
    exact not_survivesCrash_unterminated crypto reader revisions next hsurvives
  · intro hcut store hload ops final hrun
    rw [appended_eq_log_bytes] at hload
    rcases List.prefix_concat_iff.mp hleft with hwhole | hpre
    · have hbytes : log_bytes revisions ++ left = log_bytes (revisions ++ [next]) := by
        rw [hwhole, log_bytes_snoc, record_line]
      exact AuditStore.Started.survives ⟨some (log_bytes revisions ++ left), revisions ++ [next], hbytes, hload⟩ hrun
    · by_cases hempty : left = []
      · subst hempty
        exact AuditStore.Started.survives ⟨some (log_bytes revisions ++ []), revisions, List.append_nil _, hload⟩ hrun
      · obtain ⟨e, he⟩ := from_jsonl_truncated reader revisions hpre hempty hcut
        rw [AuditStore.load] at hload
        dsimp only at hload
        rw [AuditTrail.load_from_file, he] at hload
        cases hload

/-- A crash in the middle of a second line. -/
theorem survivesCrash_half_written : ∃ left, left <+: record_line (runner_record "run-2" "QUEUED") ∧ left.length = 40 ∧
    SurvivesCrash blank_crypto strict_reader [runner_record "run-1" "QUEUED"] left := by
  have hlong : 40 < (Utf8.encode (runner_record "run-2" "QUEUED").to_json).length := by decide +kernel
  have hleft : ((record_line (runner_record "run-2" "QUEUED")).take 40).length = 40 := by
    rw [List.length_take, record_line, List.length_append]
    omega
  refine ⟨_, List.take_prefix 40 _, hleft, ?_⟩
  refine (survivesCrash_iff blank_crypto strict_reader [runner_record "run-1" "QUEUED"] (runner_record "run-2" "QUEUED")
    _ (List.take_prefix 40 _)).mpr fun h => ?_
  rw [h] at hleft
  omega

/-- A crash one byte before the end of a second line. -/
theorem newline_lost :
    Utf8.encode (runner_record "run-2" "QUEUED").to_json <+: record_line (runner_record "run-2" "QUEUED") ∧
      ¬ SurvivesCrash blank_crypto strict_reader [runner_record "run-1" "QUEUED"]
        (Utf8.encode (runner_record "run-2" "QUEUED").to_json) :=
  ⟨List.prefix_append _ _, not_survivesCrash_unterminated _ _ _ _⟩

end asmodeus.control_plane
