import Asmodeus.Common.Io
import Asmodeus.Lib.Json.Reader
import Asmodeus.Lib.Utf8

open asmodeus.common

namespace asmodeus.telemetry

/-- Detection and containment timings for one run. -/
structure Measurements where
  mttd_ms : UInt64
  mttr_ms : UInt64
  blue_team_detected : Bool
  deriving DecidableEq, Inhabited

def Measurements.default : Measurements := ⟨0, 0, false⟩

/-- Evidence is explicitly separate from scenario execution. -/
structure RunEvidence where
  execution_mode : String
  feedback_received : Bool
  contained : Bool
  cleanup_confirmed : Bool
  failure_reason : Option String
  deriving DecidableEq, Inhabited

def RunEvidence.default : RunEvidence := ⟨"", false, false, false, none⟩

/-- Single immutable audit log record of a red team or chaos run. -/
structure AuditRecord where
  run_id : String
  scenario_id : String
  scenario_name : String
  category : String
  mitre_technique : String
  mitre_tactic : String
  severity : String
  tag : String
  initiator : String
  runner_id : String
  status : String
  measurements : Measurements
  detection_source : String
  containment_action : String
  cleanup_status : String
  timestamp_utc : String
  signature_hex : String
  public_key_hex : String
  evidence : Option RunEvidence
  deriving DecidableEq, Inhabited

def Measurements.json_fields (m : Measurements) : List (String × Json) :=
  [("mttd_ms", .num m.mttd_ms.toNat), ("mttr_ms", .num m.mttr_ms.toNat),
    ("blue_team_detected", .bool m.blue_team_detected)]

def optional_string : Option String → Json
  | none => .null
  | some s => .str s

def RunEvidence.json_fields (e : RunEvidence) : List (String × Json) :=
  [("execution_mode", .str e.execution_mode), ("feedback_received", .bool e.feedback_received),
    ("contained", .bool e.contained), ("cleanup_confirmed", .bool e.cleanup_confirmed),
    ("failure_reason", optional_string e.failure_reason)]

/-- The derived `Serialize`: fields in declaration order, absent evidence is
skipped. -/
def AuditRecord.json_fields (r : AuditRecord) : List (String × Json) :=
  [("run_id", .str r.run_id), ("scenario_id", .str r.scenario_id), ("scenario_name", .str r.scenario_name),
    ("category", .str r.category), ("mitre_technique", .str r.mitre_technique),
    ("mitre_tactic", .str r.mitre_tactic), ("severity", .str r.severity), ("tag", .str r.tag),
    ("initiator", .str r.initiator), ("runner_id", .str r.runner_id), ("status", .str r.status),
    ("measurements", .obj r.measurements.json_fields), ("detection_source", .str r.detection_source),
    ("containment_action", .str r.containment_action), ("cleanup_status", .str r.cleanup_status),
    ("timestamp_utc", .str r.timestamp_utc), ("signature_hex", .str r.signature_hex),
    ("public_key_hex", .str r.public_key_hex)] ++
  match r.evidence with
  | none => []
  | some evidence => [("evidence", .obj evidence.json_fields)]

/-- `serde_json::to_string` of a record. -/
def AuditRecord.to_json (r : AuditRecord) : List Char := Json.render Json.compact 0 (.obj r.json_fields)

/-- `serde_json::to_string` of the evidence alone, as the signature covers it. -/
def RunEvidence.to_json (e : RunEvidence) : List Char := Json.render Json.compact 0 (.obj e.json_fields)

/-- One length-prefixed field of the signing preimage. -/
def canonical_field (value : List Char) : List UInt8 :=
  let bytes := Utf8.encode value
  Utf8.encode (Nat.toDigits 10 bytes.length) ++ Utf8.encode [':'] ++ bytes ++ Utf8.encode ['|']

def bool_text : Bool → List Char
  | true => ['t', 'r', 'u', 'e']
  | false => ['f', 'a', 'l', 's', 'e']

/-- Deterministic canonical byte representation for Ed25519 signing. Covers
every field except the signature and the public key themselves. -/
def AuditRecord.canonical_bytes (r : AuditRecord) : List UInt8 :=
  canonical_field r.run_id.toList ++ canonical_field r.scenario_id.toList ++
  canonical_field r.scenario_name.toList ++ canonical_field r.category.toList ++
  canonical_field r.mitre_technique.toList ++ canonical_field r.mitre_tactic.toList ++
  canonical_field r.severity.toList ++ canonical_field r.tag.toList ++
  canonical_field r.initiator.toList ++ canonical_field r.runner_id.toList ++
  canonical_field r.status.toList ++
  canonical_field (Nat.toDigits 10 r.measurements.mttd_ms.toNat) ++
  canonical_field (Nat.toDigits 10 r.measurements.mttr_ms.toNat) ++
  canonical_field (bool_text r.measurements.blue_team_detected) ++
  canonical_field r.detection_source.toList ++ canonical_field r.containment_action.toList ++
  canonical_field r.cleanup_status.toList ++ canonical_field r.timestamp_utc.toList ++
  match r.evidence with
  | none => []
  | some evidence => canonical_field "evidence-v1".toList ++ canonical_field evidence.to_json

def AuditRecord.has_confirmed_feedback (r : AuditRecord) : Bool :=
  r.evidence.any fun e => e.execution_mode == "runner" && e.feedback_received

def AuditRecord.is_terminal (r : AuditRecord) : Bool :=
  !(r.status == "QUEUED" || r.status == "RUNNING" || r.status == "CANCELLING")

/-- Lower-case hexadecimal text of a byte string. -/
def to_hex (bytes : List UInt8) : String :=
  String.ofList (bytes.flatMap fun b => [Nat.digitChar (b.toNat / 16), Nat.digitChar (b.toNat % 16)])

/-- The Ed25519 primitives, which live outside this repository. A failing call
carries the text of its error. -/
structure Crypto where
  sign_message : List UInt8 → List UInt8 → Except String (List UInt8)
  public_key_from_secret_key : List UInt8 → Except String (List UInt8)

/-- Sign the record with the operator's private key. -/
def AuditRecord.sign (crypto : Crypto) (secret_key : List UInt8) (r : AuditRecord) :
    Except String AuditRecord := do
  let sig ← crypto.sign_message r.canonical_bytes secret_key
  let pk ← crypto.public_key_from_secret_key secret_key
  return { r with signature_hex := to_hex sig, public_key_hex := to_hex pk }

/-- Signing fills in the signature and the public key and nothing else. -/
theorem AuditRecord.sign_eq {crypto : Crypto} {secret_key : List UInt8} {r signed : AuditRecord}
    (h : r.sign crypto secret_key = .ok signed) :
    ∃ sig pk, signed = { r with signature_hex := sig, public_key_hex := pk } := by
  unfold AuditRecord.sign at h
  cases hsig : crypto.sign_message r.canonical_bytes secret_key with
  | error e => rw [hsig] at h; cases h
  | ok sig =>
    cases hpk : crypto.public_key_from_secret_key secret_key with
    | error e => rw [hsig, hpk] at h; cases h
    | ok pk =>
      rw [hsig, hpk] at h
      exact ⟨to_hex sig, to_hex pk, (Except.ok.inj h).symm⟩

theorem optional_string_injective : Function.Injective optional_string := by
  intro a b h
  cases a <;> cases b <;> simp_all [optional_string]

theorem Measurements.json_fields_injective : Function.Injective Measurements.json_fields := by
  intro a b h
  obtain ⟨mttd, mttr, detected⟩ := a
  obtain ⟨mttd', mttr', detected'⟩ := b
  simpa [Measurements.json_fields, UInt64.toNat_inj] using h

theorem RunEvidence.json_fields_injective : Function.Injective RunEvidence.json_fields := by
  intro a b h
  obtain ⟨mode, feedback, contained, cleanup, reason⟩ := a
  obtain ⟨mode', feedback', contained', cleanup', reason'⟩ := b
  simpa [RunEvidence.json_fields, optional_string_injective.eq_iff] using h

/-- The serialized fields determine the record, whether or not it carries
evidence. -/
theorem AuditRecord.json_fields_injective : Function.Injective AuditRecord.json_fields := by
  intro a b h
  cases ha : a.evidence with
  | none =>
    cases hb : b.evidence with
    | none =>
      obtain ⟨⟩ := a
      obtain ⟨⟩ := b
      simp_all [AuditRecord.json_fields, Measurements.json_fields_injective.eq_iff]
    | some e => simp [AuditRecord.json_fields, ha, hb] at h
  | some e =>
    cases hb : b.evidence with
    | none => simp [AuditRecord.json_fields, ha, hb] at h
    | some e' =>
      obtain ⟨⟩ := a
      obtain ⟨⟩ := b
      simp_all [AuditRecord.json_fields, Measurements.json_fields_injective.eq_iff,
        RunEvidence.json_fields_injective.eq_iff]

theorem AuditRecord.to_json_unambiguous : PrefixCode.Unambiguous AuditRecord.to_json :=
  Json.render_obj_unambiguous Json.compact AuditRecord.json_fields_injective

/-- Ed25519 lengths without its arithmetic, for runs on fixed inputs. -/
def blank_crypto : Crypto where
  sign_message _ _ := .ok (List.replicate 64 0)
  public_key_from_secret_key _ := .ok (List.replicate 32 0)

/-- An admitted record, for runs on fixed inputs. -/
def runner_record (run_id status : String) : AuditRecord where
  run_id := run_id
  scenario_id := "SCN-RT-001"
  scenario_name := "Credential Access Canary"
  category := "red_team"
  mitre_technique := "T1003.008"
  mitre_tactic := "Credential Access"
  severity := "high"
  tag := "ASMODEUS_CANARY_EXERCISE"
  initiator := "admin"
  runner_id := "runner-default"
  status := status
  measurements := .default
  detection_source := ""
  containment_action := ""
  cleanup_status := "PENDING"
  timestamp_utc := "2026-09-22T00:00:00Z"
  signature_hex := ""
  public_key_hex := ""
  evidence := some ⟨"runner", false, false, false, none⟩

end asmodeus.telemetry
