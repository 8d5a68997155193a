import Asmodeus.Lib.Sql
import Asmodeus.Telemetry.Record

namespace asmodeus.telemetry

/-- Escape a character for ClickHouse SQL literal values. -/
def escape_sql_char (c : Char) : List Char :=
  if c = '\'' then ['\'', '\'']
  else if c = '\\' then ['\\', '\\']
  else if c = '\n' then ['\\', 'n']
  else if c = '\r' then ['\\', 'r']
  else if c = '\t' then ['\\', 't']
  else [c]

def escape_sql_string (input : List Char) : List Char := input.flatMap escape_sql_char

/-- `serde_json::to_string` of evidence that may be absent. -/
def evidence_json : Option RunEvidence → String
  | none => "null"
  | some evidence => String.ofList evidence.to_json

/-- The columns of a record, in the order of the table. -/
def AuditRecord.sql_values (r : AuditRecord) : List Sql.Value :=
  [.string r.run_id, .string r.scenario_id, .string r.scenario_name, .string r.category, .string r.mitre_technique,
    .string r.mitre_tactic, .string r.severity, .string r.tag, .string r.initiator, .string r.runner_id,
    .string r.status, .number r.measurements.mttd_ms.toNat, .number r.measurements.mttr_ms.toNat,
    .number (if r.measurements.blue_team_detected then 1 else 0), .string r.detection_source,
    .string r.containment_action, .string r.cleanup_status, .string r.timestamp_utc, .string r.signature_hex,
    .string r.public_key_hex, .string (evidence_json r.evidence)]

/-- A piece of the row template: a text in quotes or a bare number. -/
def sql_string (text : String) : List Char := '\'' :: (escape_sql_string text.toList ++ ['\''])

def sql_number (n : Nat) : List Char := Nat.toDigits 10 n

/-- Format a single record as a ClickHouse SQL VALUES row tuple. -/
def record_to_sql_row (r : AuditRecord) : List Char :=
  '(' :: (List.intercalate [',', ' ']
    [sql_string r.run_id, sql_string r.scenario_id, sql_string r.scenario_name, sql_string r.category,
      sql_string r.mitre_technique, sql_string r.mitre_tactic, sql_string r.severity, sql_string r.tag,
      sql_string r.initiator, sql_string r.runner_id, sql_string r.status, sql_number r.measurements.mttd_ms.toNat,
      sql_number r.measurements.mttr_ms.toNat, sql_number (if r.measurements.blue_team_detected then 1 else 0),
      sql_string r.detection_source, sql_string r.containment_action, sql_string r.cleanup_status,
      sql_string r.timestamp_utc, sql_string r.signature_hex, sql_string r.public_key_hex,
      sql_string (evidence_json r.evidence)] ++ [')'])

/-- The statement up to its values. -/
def INSERT_HEAD : String :=
  "INSERT INTO apex.asmodeus_runs (\n" ++
    "    run_id, scenario_id, scenario_name, category, mitre_technique, mitre_tactic,\n" ++
    "    severity, tag, initiator, runner_id, status, mttd_ms, mttr_ms, blue_team_detected,\n" ++
    "    detection_source, containment_action, cleanup_status, timestamp, signature_hex, " ++
    "public_key_hex, evidence_json\n" ++
    ") VALUES\n"

/-- Format records into a complete ClickHouse batch `INSERT` statement. -/
def records_to_clickhouse_sql (records : List AuditRecord) : List Char :=
  if records = [] then []
  else INSERT_HEAD.toList ++ (List.intercalate [',', '\n'] (records.map record_to_sql_row) ++ [';', '\n'])

theorem escape_sql_char_escapes : Sql.Escapes escape_sql_char := by
  intro text c rest
  by_cases hquote : c = '\''
  · subst hquote
    exact (Sql.scan_silent rfl).trans (Sql.scan_silent rfl)
  by_cases hbackslash : c = '\\'
  · subst hbackslash
    exact (Sql.scan_silent rfl).trans (Sql.scan_silent rfl)
  by_cases hnewline : c = '\n'
  · subst hnewline
    exact (Sql.scan_silent rfl).trans (Sql.scan_silent rfl)
  by_cases hreturn : c = '\r'
  · subst hreturn
    exact (Sql.scan_silent rfl).trans (Sql.scan_silent rfl)
  by_cases htab : c = '\t'
  · subst htab
    exact (Sql.scan_silent rfl).trans (Sql.scan_silent rfl)
  have hplain : escape_sql_char c = [c] := by
    simp [escape_sql_char, hquote, hbackslash, hnewline, hreturn, htab]
  have hnext : Sql.next (.literal text) c = some ([], .literal (text ++ [c])) := by
    simp [Sql.next, hquote, hbackslash]
  rw [hplain, List.singleton_append, Sql.scan_silent hnext]

theorem record_to_sql_row_eq (r : AuditRecord) : record_to_sql_row r = Sql.row escape_sql_char r.sql_values := rfl

theorem AuditRecord.sql_values_ne_nil (r : AuditRecord) : r.sql_values ≠ [] := List.cons_ne_nil _ _

/-- Behind its head a batch statement holds one tuple of 21 values for each record,
in order, and every value is read as it stands in the record. -/
theorem clickhouse_sql_read (records : List AuditRecord) :
    (∀ r ∈ records, r.sql_values.length = 21) ∧
      ((records = [] ∧ records_to_clickhouse_sql records = []) ∨
        ∃ values, records_to_clickhouse_sql records = INSERT_HEAD.toList ++ values ∧
          Sql.read values = some (records.map AuditRecord.sql_values)) := by
  refine ⟨fun r _ => rfl, ?_⟩
  cases records with
  | nil => exact Or.inl ⟨rfl, rfl⟩
  | cons first more =>
    refine Or.inr ⟨Sql.rows ((first :: more).map record_to_sql_row), if_neg (List.cons_ne_nil first more), ?_⟩
    have hrows : (first :: more).map record_to_sql_row =
        ((first :: more).map AuditRecord.sql_values).map (Sql.row escape_sql_char) := by
      rw [List.map_map]
      exact List.map_congr_left fun r _ => record_to_sql_row_eq r
    have hvalues : ∀ values ∈ (first :: more).map AuditRecord.sql_values, values ≠ [] := by
      intro values hmem
      obtain ⟨r, -, rfl⟩ := List.mem_map.mp hmem
      exact r.sql_values_ne_nil
    rw [hrows]
    exact Sql.read_rows escape_sql_char_escapes hvalues

end asmodeus.telemetry
