import Asmodeus.Telemetry.Record

open PrefixCode

namespace asmodeus.telemetry

/-- The characters of one field of the signing preimage. -/
def field_text (value : List Char) : List Char :=
  Json.digits (Utf8.encode value).length ++ ':' :: (value ++ ['|'])

/-- The fields of a record that its signature covers, in their order. -/
def AuditRecord.signed_fields (r : AuditRecord) : List (List Char) :=
  [r.run_id.toList, r.scenario_id.toList, r.scenario_name.toList, r.category.toList, r.mitre_technique.toList,
    r.mitre_tactic.toList, r.severity.toList, r.tag.toList, r.initiator.toList, r.runner_id.toList, r.status.toList,
    Json.digits r.measurements.mttd_ms.toNat, Json.digits r.measurements.mttr_ms.toNat,
    bool_text r.measurements.blue_team_detected, r.detection_source.toList, r.containment_action.toList,
    r.cleanup_status.toList, r.timestamp_utc.toList] ++
  match r.evidence with
  | none => []
  | some evidence => ["evidence-v1".toList, evidence.to_json]

/-- A record without its signature and public key. -/
def AuditRecord.unsigned (r : AuditRecord) : AuditRecord := { r with signature_hex := "", public_key_hex := "" }

theorem canonical_field_eq (value : List Char) : canonical_field value = Utf8.encode (field_text value) := by
  simp [canonical_field, field_text, Json.digits]

theorem AuditRecord.canonical_bytes_eq (r : AuditRecord) :
    r.canonical_bytes = Utf8.encode (r.signed_fields.flatMap field_text) := by
  unfold canonical_bytes signed_fields
  cases r.evidence with
  | none => simp [canonical_field_eq, Json.digits]
  | some evidence => simp [canonical_field_eq, Json.digits]

/-- A text that only adds characters adds bytes. -/
theorem encode_grows (word more : List Char) (h : (Utf8.encode (word ++ more)).length = (Utf8.encode word).length) :
    more = [] := by
  rw [Utf8.encode_append, List.length_append] at h
  have hempty : (Utf8.encode more).length = 0 := by omega
  exact Utf8.encode_injective (List.length_eq_zero_iff.mp hempty)

theorem field_text_unambiguous : Unambiguous field_text := by
  have hcolon : ¬ Char.isDigit ':' = true := by decide
  exact Json.digits_unambiguous.measured hcolon encode_grows ['|']

theorem field_text_ne_nil (value : List Char) : field_text value ≠ [] :=
  List.append_ne_nil_of_right_ne_nil _ (List.cons_ne_nil _ _)

theorem bool_text_injective : Function.Injective bool_text := by
  intro a b h
  cases a <;> cases b
  all_goals first | rfl | cases h

theorem RunEvidence.to_json_injective : Function.Injective RunEvidence.to_json :=
  have hjson := Json.render_obj_unambiguous Json.compact RunEvidence.json_fields_injective
  (hjson.before fun _ => False).injective

theorem digits_inj {a b : Nat} : Json.digits a = Json.digits b ↔ a = b := Json.digits_unambiguous.injective.eq_iff

theorem Measurements.eq_iff (m m' : Measurements) :
    m = m' ↔ m.mttd_ms = m'.mttd_ms ∧ m.mttr_ms = m'.mttr_ms ∧ m.blue_team_detected = m'.blue_team_detected := by
  cases m
  cases m'
  simp

/-- The covered fields are all there is to an unsigned record. A record with
evidence has two fields more than one without. -/
theorem AuditRecord.signed_fields_eq_iff (a b : AuditRecord) :
    a.signed_fields = b.signed_fields ↔ a.unsigned = b.unsigned := by
  obtain ha | ⟨e, ha⟩ := Option.eq_none_or_eq_some a.evidence
  · obtain hb | ⟨e', hb⟩ := Option.eq_none_or_eq_some b.evidence
    · simp [signed_fields, unsigned, ha, hb, String.toList_inj, digits_inj, UInt64.toNat_inj,
        bool_text_injective.eq_iff, Measurements.eq_iff, and_assoc]
    · simp [signed_fields, unsigned, ha, hb]
  · obtain hb | ⟨e', hb⟩ := Option.eq_none_or_eq_some b.evidence
    · simp [signed_fields, unsigned, ha, hb]
    · simp [signed_fields, unsigned, ha, hb, String.toList_inj, digits_inj, UInt64.toNat_inj,
        bool_text_injective.eq_iff, Measurements.eq_iff, RunEvidence.to_json_injective.eq_iff, and_assoc]

/-- No two records share a signing preimage that differ in a field which the
signature covers. -/
theorem AuditRecord.canonical_bytes_eq_iff (a b : AuditRecord) :
    a.canonical_bytes = b.canonical_bytes ↔ a.unsigned = b.unsigned := by
  rw [canonical_bytes_eq, canonical_bytes_eq, Utf8.encode_injective.eq_iff, ← signed_fields_eq_iff]
  exact (field_text_unambiguous.flatMap_injective field_text_ne_nil).eq_iff

end asmodeus.telemetry
