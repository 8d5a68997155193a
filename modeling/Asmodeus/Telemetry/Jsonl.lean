import Asmodeus.Telemetry.Trail

open asmodeus.common

namespace asmodeus.telemetry

/-- `serde_json::from_str::<AuditRecord>`. -/
abbrev RecordReader := Json.Reader AuditRecord AuditRecord.to_json

/-- One line of the log: its text is trimmed, a blank line is skipped. -/
def Replay.read_line (reader : RecordReader) (self : Replay) (line : List UInt8) : Except IoError Replay :=
  match Utf8.decode line with
  | none => .error ⟨.InvalidData, "stream did not contain valid UTF-8"⟩
  | some text =>
    let trimmed := Lines.trim text
    if trimmed = [] then .ok self
    else match reader.from_str trimmed with
      | .error e => .error ⟨.InvalidData, e⟩
      | .ok rec => .ok (self.insert rec)

/-- Replay JSONL revisions. The last revision of each run wins; its original
insertion position is preserved. -/
def AuditTrail.from_jsonl (reader : RecordReader) (bytes : List UInt8) : Except IoError AuditTrail := do
  let replayed ← (Lines.split bytes).foldlM (Replay.read_line reader) Replay.start
  return ⟨replayed.records⟩

/-- The contents of the log file; `none` when there is no file. -/
abbrev LogFile := Option (List UInt8)

/-- Load the trail from a JSONL file. A missing file is an empty trail. -/
def AuditTrail.load_from_file (reader : RecordReader) : LogFile → Except IoError AuditTrail
  | none => .ok AuditTrail.new
  | some bytes => AuditTrail.from_jsonl reader bytes

/-- The line `append_to_file` writes for one revision. -/
def record_line (record : AuditRecord) : List UInt8 := Utf8.encode record.to_json ++ [Lines.newline]

/-- Durably append a revision. A failed call leaves the file as it was. -/
def AuditTrail.append_to_file (disk : Disk) (record : AuditRecord) (file : LogFile) :
    Except IoError Unit × LogFile :=
  match disk with
  | .ok () => (.ok (), some (file.getD [] ++ record_line record))
  | .error e => (.error e, file)

/-- The file a sequence of successful appends leaves behind. -/
def appended (revisions : List AuditRecord) : LogFile :=
  revisions.foldl (fun file record => (AuditTrail.append_to_file (.ok ()) record file).2) none

/-- A log of complete lines. -/
def log_bytes (revisions : List AuditRecord) : List UInt8 := revisions.flatMap record_line

theorem log_bytes_snoc (revisions : List AuditRecord) (record : AuditRecord) :
    log_bytes (revisions ++ [record]) = log_bytes revisions ++ record_line record := by
  simp [log_bytes]

theorem appended_eq_log_bytes (revisions : List AuditRecord) :
    (appended revisions).getD [] = log_bytes revisions := by
  induction revisions using List.reverseRecOn with
  | nil => rfl
  | append_singleton revisions record ih =>
    rw [log_bytes_snoc, ← ih, appended, List.foldl_append]
    rfl

theorem to_json_braces (record : AuditRecord) :
    record.to_json.head? = some '\x7b' ∧ record.to_json.getLast? = some '\x7d' :=
  Json.render_obj_braces Json.compact 0 record.json_fields

theorem to_json_no_newline (record : AuditRecord) : '\n' ∉ record.to_json :=
  Json.render_compact_no_newline 0 (.obj record.json_fields)

theorem to_json_eq_cons (record : AuditRecord) : ∃ text, record.to_json = '\x7b' :: text := by
  have hhead := (to_json_braces record).1
  cases hjson : record.to_json with
  | nil => rw [hjson] at hhead; cases hhead
  | cons c text =>
    rw [hjson, List.head?_cons, Option.some.injEq] at hhead
    exact ⟨text, hhead ▸ rfl⟩

theorem encode_json_ne_nil (record : AuditRecord) : Utf8.encode record.to_json ≠ [] := by
  intro hnil
  obtain ⟨text, htext⟩ := to_json_eq_cons record
  have hjson := Utf8.encode_injective (hnil.trans Utf8.encode_nil.symm)
  rw [htext] at hjson
  cases hjson

theorem trim_to_json (record : AuditRecord) : Lines.trim record.to_json = record.to_json :=
  Lines.trim_eq_self (to_json_braces record).1 (to_json_braces record).2 (by decide) (by decide)

theorem newline_not_mem_json (record : AuditRecord) : Lines.newline ∉ Utf8.encode record.to_json :=
  Utf8.newline_not_mem_encode (to_json_no_newline record)

/-- The JSON text ends with its closing brace, so the line ends without a
carriage return. -/
theorem json_last_ne_return (record : AuditRecord) :
    (Utf8.encode record.to_json).getLast? ≠ some Lines.carriageReturn := by
  obtain ⟨text, htext⟩ := List.getLast?_eq_some_iff.mp (to_json_braces record).2
  rw [htext, Utf8.encode_append, List.getLast?_append_of_ne_nil _ (by decide)]
  decide

/-- A complete line inserts its record. -/
theorem read_json (reader : RecordReader) (state : Replay) (record : AuditRecord) :
    state.read_line reader (Utf8.encode record.to_json) = .ok (state.insert record) := by
  obtain ⟨text, htext⟩ := to_json_eq_cons record
  have hne : record.to_json ≠ [] := by rw [htext]; exact List.cons_ne_nil _ _
  rw [Replay.read_line, Utf8.decode_encode]
  dsimp only
  rw [trim_to_json, if_neg hne, reader.round_trip]

/-- A line cut short, anywhere before its end, is refused. -/
theorem read_truncated (reader : RecordReader) (state : Replay) {record : AuditRecord} {left : List UInt8}
    (hpre : left <+: Utf8.encode record.to_json) (hne : left ≠ [])
    (hcut : left ≠ Utf8.encode record.to_json) : ∃ e, state.read_line reader left = .error e := by
  rw [Replay.read_line]
  cases hdecode : Utf8.decode left with
  | none => exact ⟨_, rfl⟩
  | some part =>
    have hpart : part <+: record.to_json := Utf8.prefix_of_decode hdecode hpre
    have hencode := Utf8.encode_of_decode hdecode
    obtain ⟨text, htext⟩ := to_json_eq_cons record
    cases part with
    | nil => exact absurd hencode.symm hne
    | cons c part =>
      rw [htext, List.cons_prefix_cons] at hpart
      obtain ⟨rfl, hpart⟩ := hpart
      have htrim : Lines.trim ('\x7b' :: part) <+: record.to_json := by
        rw [htext]
        exact (Lines.trim_prefix (by decide)).trans (List.cons_prefix_cons.mpr ⟨rfl, hpart⟩)
      have hshort : Lines.trim ('\x7b' :: part) ≠ record.to_json := by
        intro heq
        have hwhole : '\x7b' :: part = record.to_json := by
          apply List.IsPrefix.eq_of_length_le (htext ▸ List.cons_prefix_cons.mpr ⟨rfl, hpart⟩)
          rw [← heq]
          exact (Lines.trim_prefix (by decide)).length_le
        exact hcut (by rw [← hwhole, hencode])
      obtain ⟨e, he⟩ := reader.truncated record _ htrim hshort
      refine ⟨⟨.InvalidData, e⟩, ?_⟩
      dsimp only
      rw [if_neg (Lines.trim_ne_nil (by decide)), he]

/-- A second object on the line of a complete one is refused. -/
theorem read_concatenated (reader : RecordReader) (state : Replay) (record next : AuditRecord) :
    ∃ e, state.read_line reader (Utf8.encode (record.to_json ++ next.to_json)) = .error e := by
  obtain ⟨text, htext⟩ := to_json_eq_cons next
  obtain ⟨head, hhead⟩ := to_json_eq_cons record
  have htrim : Lines.trim (record.to_json ++ next.to_json) = record.to_json ++ next.to_json := by
    have hfirst : (record.to_json ++ next.to_json).head? = some '\x7b' := by rw [hhead]; rfl
    have hlast : (record.to_json ++ next.to_json).getLast? = some '\x7d' := by
      rw [List.getLast?_append_of_ne_nil _ (by rw [htext]; exact List.cons_ne_nil _ _)]
      exact (to_json_braces next).2
    exact Lines.trim_eq_self hfirst hlast (by decide) (by decide)
  obtain ⟨e, he⟩ := reader.trailing record '\x7b' text (by decide)
  refine ⟨⟨.InvalidData, e⟩, ?_⟩
  rw [Replay.read_line, Utf8.decode_encode]
  dsimp only
  rw [htrim, if_neg (by rw [hhead]; exact List.cons_ne_nil _ _), htext, he]

/-- The complete lines of a log are replayed before anything that follows. -/
theorem replay_log (reader : RecordReader) (revisions : List AuditRecord) (rest : List UInt8) (state : Replay) :
    (Lines.split (log_bytes revisions ++ rest)).foldlM (Replay.read_line reader) state =
      (Lines.split rest).foldlM (Replay.read_line reader) (revisions.foldl Replay.insert state) := by
  induction revisions generalizing state with
  | nil => rfl
  | cons record revisions ih =>
    have hline : log_bytes (record :: revisions) ++ rest =
        Utf8.encode record.to_json ++ Lines.newline :: (log_bytes revisions ++ rest) := by
      simp [log_bytes, record_line]
    rw [hline, Lines.split_terminated _ (newline_not_mem_json record) (json_last_ne_return record),
      List.foldlM_cons, read_json]
    exact ih _

/-- A log of complete lines replays to the last revision of each run. -/
theorem from_jsonl_log (reader : RecordReader) (revisions : List AuditRecord) :
    AuditTrail.from_jsonl reader (log_bytes revisions) = .ok ⟨replay revisions⟩ := by
  have hreplay := replay_log reader revisions [] Replay.start
  rw [List.append_nil] at hreplay
  rw [AuditTrail.from_jsonl, hreplay, ← (replay_insert revisions).1]
  rfl

/-- A complete JSON text without its newline still counts as the last line. -/
theorem from_jsonl_unterminated (reader : RecordReader) (revisions : List AuditRecord) (next : AuditRecord) :
    AuditTrail.from_jsonl reader (log_bytes revisions ++ Utf8.encode next.to_json) =
      .ok ⟨replay (revisions ++ [next])⟩ := by
  have hlast := replay_insert (revisions ++ [next])
  rw [AuditTrail.from_jsonl, replay_log, Lines.split_unterminated (encode_json_ne_nil next)
    (newline_not_mem_json next),
    List.foldlM_cons, read_json, ← hlast.1, List.foldl_append]
  rfl

/-- Any other cut inside a line makes the whole log unreadable. -/
theorem from_jsonl_truncated (reader : RecordReader) (revisions : List AuditRecord) {next : AuditRecord}
    {left : List UInt8} (hpre : left <+: Utf8.encode next.to_json) (hne : left ≠ [])
    (hcut : left ≠ Utf8.encode next.to_json) :
    ∃ e, AuditTrail.from_jsonl reader (log_bytes revisions ++ left) = .error e := by
  have hline : Lines.newline ∉ left := fun hmem => newline_not_mem_json next (hpre.subset hmem)
  obtain ⟨e, he⟩ := read_truncated reader (revisions.foldl Replay.insert Replay.start) hpre hne hcut
  refine ⟨e, ?_⟩
  rw [AuditTrail.from_jsonl, replay_log, Lines.split_unterminated hne hline, List.foldlM_cons, he]
  rfl

/-- A revision appended to an unterminated text shares its line, and the log no
longer loads. -/
theorem from_jsonl_concatenated (reader : RecordReader) (revisions : List AuditRecord)
    (next later : AuditRecord) :
    ∃ e, AuditTrail.from_jsonl reader
      (log_bytes revisions ++ Utf8.encode next.to_json ++ record_line later) = .error e := by
  have hline : log_bytes revisions ++ Utf8.encode next.to_json ++ record_line later =
      log_bytes revisions ++ (Utf8.encode (next.to_json ++ later.to_json) ++ Lines.newline :: []) := by
    simp [record_line, Utf8.encode_append]
  have hnewline : Lines.newline ∉ Utf8.encode (next.to_json ++ later.to_json) := by
    apply Utf8.newline_not_mem_encode
    rw [List.mem_append, not_or]
    exact ⟨to_json_no_newline next, to_json_no_newline later⟩
  have hreturn : (Utf8.encode (next.to_json ++ later.to_json)).getLast? ≠ some Lines.carriageReturn := by
    rw [Utf8.encode_append, List.getLast?_append_of_ne_nil _ (encode_json_ne_nil later)]
    exact json_last_ne_return later
  obtain ⟨e, he⟩ := read_concatenated reader (revisions.foldl Replay.insert Replay.start) next later
  refine ⟨e, ?_⟩
  rw [hline, AuditTrail.from_jsonl, replay_log, Lines.split_terminated _ hnewline hreturn, List.foldlM_cons, he]
  rfl

end asmodeus.telemetry
