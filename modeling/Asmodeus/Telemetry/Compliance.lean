import Asmodeus.Telemetry.Metrics

namespace asmodeus.telemetry

/-- One technique a scenario references, with the fidelity it is exercised at. -/
structure ScenarioTechniqueFidelity where
  technique_id : String
  fidelity : String
  deriving DecidableEq

/-- Minimal scenario metadata needed for compliance evaluation. -/
structure ScenarioMeta where
  id : String
  name : String
  category : String
  mitre_technique : String
  fidelity : String
  technique_refs : List ScenarioTechniqueFidelity
  deriving DecidableEq

namespace ScenarioMeta

/-- The scenario's ceiling fidelity is behavioral. -/
def is_behavioral (self : ScenarioMeta) : Bool := decide (self.fidelity = "behavioral")

/-- The scenario references any of the techniques at all. -/
def matches_any (self : ScenarioMeta) (techniques : List String) : Bool :=
  (self.technique_refs.any fun r => techniques.contains r.technique_id) || techniques.contains self.mitre_technique

/-- The scenario exercises at least one of the techniques at behavioral fidelity. -/
def is_behavioral_for_any (self : ScenarioMeta) (techniques : List String) : Bool :=
  if !self.technique_refs.isEmpty then
    self.technique_refs.any fun r => decide (r.fidelity = "behavioral") && techniques.contains r.technique_id
  else self.is_behavioral && techniques.contains self.mitre_technique

end ScenarioMeta

/-- Regulatory framework or standard. -/
inductive Standard
  | NistCsf2
  | PciDss4
  deriving DecidableEq

def Standard.as_str : Standard → String
  | .NistCsf2 => "NIST CSF 2.0"
  | .PciDss4 => "PCI-DSS v4.0"

/-- The definition of one control. -/
structure ControlDef where
  control_id : String
  standard : Standard
  title : String
  description : String
  techniques : List String

def controls_defs : List ControlDef :=
  [⟨"NIST-DE.CM-01", .NistCsf2, "Continuous Monitoring & Event Detection",
      "Networks and computing environments are continuously monitored to detect potential cybersecurity events.",
      ["T1071", "T1568", "T1041"]⟩,
    ⟨"NIST-PR.DS-01", .NistCsf2, "Data-at-Rest Protection",
      "Data-at-rest is protected against unauthorized modification or destruction (e.g. ransomware canary validation).",
      ["T1486"]⟩,
    ⟨"NIST-PR.AC-04", .NistCsf2, "Credential & Access Protection",
      "Access permissions and authentication credentials are managed and guarded (e.g. honeytoken access canary).",
      ["T1003"]⟩,
    ⟨"NIST-RS.RP-01", .NistCsf2, "Incident Response Plan Execution",
      "Response processes and procedures are executed and maintained to contain incidents within target MTTR.",
      ["T1486", "T1611", "T1053", "T1562.001"]⟩,
    ⟨"PCI-DSS-11.4", .PciDss4, "Breach & Attack Simulation / Penetration Testing",
      "External and internal penetration testing and attack simulation methodologies are actively validated.",
      ["T1486", "T1611", "T1071", "T1003", "T1041"]⟩,
    ⟨"PCI-DSS-11.5", .PciDss4, "Intrusion Detection / Prevention System Validation",
      "Network and host intrusion-detection and/or intrusion-prevention techniques are actively verified.",
      ["T1070", "T1053", "T1562.001"]⟩]

/-- Individual compliance control assessment. -/
structure ComplianceControl where
  control_id : String
  standard : String
  title : String
  description : String
  mapped_techniques : List String
  matching_scenarios : List String
  behavioral_scenarios : List String
  marker_only_scenarios : List String
  prevention_eligible : Bool
  coverage_note : Option String
  total_runs : Nat
  detected_runs : Nat
  detection_rate_pct : Float32
  status : String

/-- Aggregated compliance audit report. -/
structure ComplianceReport where
  generated_at_utc : String
  total_controls : Nat
  compliant_controls : Nat
  partial_controls : Nat
  non_compliant_controls : Nat
  overall_compliance_score : UInt8
  controls : List ComplianceControl

def coverage_limitation : String :=
  "marker-only coverage: matched scenarios prove indicator detection only, " ++
    "not behavioural execution or prevention of the mapped technique(s)"

/-- The confirmed runs a control is judged on. -/
def matching_runs (techniques : List String) (records : List AuditRecord) : List AuditRecord :=
  records.filter fun r => r.has_confirmed_feedback && techniques.any fun t => decide (r.mitre_technique = t)

def control_status (tested : Bool) (total_runs : Nat) (detection_rate_pct : Float32) : String :=
  if !tested then "NOT_TESTED"
  else if total_runs = 0 then "NO_EVIDENCE"
  else if 80 ≤ detection_rate_pct then "COMPLIANT"
  else if 40 ≤ detection_rate_pct then "PARTIAL"
  else "NON_COMPLIANT"

/-- Evaluate one control. -/
def ControlDef.evaluate (self : ControlDef) (scenarios : List ScenarioMeta) (records : List AuditRecord) :
    ComplianceControl :=
  let matched := scenarios.filter fun s => s.matches_any self.techniques
  let behavioral := matched.filter fun s => s.is_behavioral_for_any self.techniques
  let marker_only := matched.filter fun s => !s.is_behavioral_for_any self.techniques
  let prevention_eligible := !behavioral.isEmpty
  let runs := matching_runs self.techniques records
  let detected := runs.filter fun r => r.measurements.blue_team_detected
  let rate := if 0 < runs.length then as_f32 detected.length / as_f32 runs.length * 100 else 0
  { control_id := self.control_id
    standard := self.standard.as_str
    title := self.title
    description := self.description
    mapped_techniques := self.techniques
    matching_scenarios := matched.map ScenarioMeta.id
    behavioral_scenarios := behavioral.map ScenarioMeta.id
    marker_only_scenarios := marker_only.map ScenarioMeta.id
    prevention_eligible := prevention_eligible
    coverage_note := if !matched.isEmpty && !prevention_eligible then some coverage_limitation else none
    total_runs := runs.length
    detected_runs := detected.length
    detection_rate_pct := rate
    status := control_status (!matched.isEmpty) runs.length rate }

/-- Evaluate registered scenarios and executed audit logs. -/
def ComplianceReport.generate (now : String) (scenarios : List ScenarioMeta) (records : List AuditRecord) :
    ComplianceReport :=
  let controls := controls_defs.map fun d => d.evaluate scenarios records
  let compliant := controls.countP fun c => decide (c.status = "COMPLIANT")
  let partially := controls.countP fun c => decide (c.status = "PARTIAL")
  let neither := controls.countP fun c => decide (c.status ≠ "COMPLIANT" ∧ c.status ≠ "PARTIAL")
  let total := controls.length
  { generated_at_utc := now
    total_controls := total
    compliant_controls := compliant
    partial_controls := partially
    non_compliant_controls := neither
    overall_compliance_score :=
      if 0 < total then
        (clamp ((as_f32 compliant * 100 + as_f32 partially * 50) / as_f32 total) 0 100).toUInt8
      else 0
    controls := controls }

/-- The runs of a control are read off the confirmed records. -/
theorem matching_runs_confirmed (techniques : List String) (records : List AuditRecord) :
    matching_runs techniques (records.filter AuditRecord.has_confirmed_feedback) = matching_runs techniques
      records := by
  rw [matching_runs, matching_runs, List.filter_filter]
  congr 1
  funext r
  cases r.has_confirmed_feedback with
  | true => exact Bool.and_true _
  | false => rfl

/-- The compliance report reads confirmed records alone. -/
theorem ComplianceReport.generate_confirmed (now : String) (scenarios : List ScenarioMeta)
    (records : List AuditRecord) :
    generate now scenarios (records.filter AuditRecord.has_confirmed_feedback) = generate now scenarios records := by
  have hevaluate (d : ControlDef) : d.evaluate scenarios (records.filter AuditRecord.has_confirmed_feedback) =
      d.evaluate scenarios records := by
    simp only [ControlDef.evaluate, matching_runs_confirmed]
  simp only [generate, hevaluate]

end asmodeus.telemetry
