import Asmodeus.Common.Rbac
import Asmodeus.ControlPlane.AuditStore
import Asmodeus.ControlPlane.Execution.Settlement

open asmodeus.common asmodeus.telemetry

namespace asmodeus.control_plane

/-- The part of a catalog entry an admission records. -/
structure ScenarioEntry where
  id : String
  name : String
  category : Category
  mitre : Option (String × String)
  severity : String
  deriving DecidableEq

def selected_mode (selected : Option String) : Mode := if selected.isSome then .runner else .simulated

/-- The record a run is admitted under, before it is signed. `selected` is the
id of the runner the run was routed to. -/
def admission_record (id : String) (entry : ScenarioEntry) (role : Role) (selected : Option String)
    (now : String) : AuditRecord where
  run_id := id
  scenario_id := entry.id
  scenario_name := entry.name
  category := entry.category.as_str
  mitre_technique := (entry.mitre.map Prod.fst).getD ""
  mitre_tactic := (entry.mitre.map Prod.snd).getD ""
  severity := entry.severity
  tag := entry.category.tag
  initiator := role.as_str
  runner_id := selected.getD "in-process-sim"
  status := "QUEUED"
  measurements := .default
  detection_source := "PENDING_FEEDBACK"
  containment_action := "UNCONFIRMED"
  cleanup_status := "PENDING"
  timestamp_utc := now
  signature_hex := ""
  public_key_hex := ""
  evidence := some { RunEvidence.default with execution_mode := (selected_mode selected).as_str }

structure RunFeedbackPayload where
  detected : Bool
  mttd_ms : Option UInt64
  detection_source : Option String
  contained : Bool
  mttr_ms : Option UInt64
  containment_action : Option String
  deriving DecidableEq

/-- The payload checks of `run_feedback`, with the texts of their errors. -/
def RunFeedbackPayload.check (payload : RunFeedbackPayload) : Except String Unit :=
  if payload.contained && !payload.detected then .error "contained requires detected=true"
  else if payload.detected && payload.mttd_ms.isNone then .error "detected feedback requires mttd_ms"
  else if payload.contained && payload.mttr_ms.isNone then .error "contained feedback requires mttr_ms"
  else .ok ()

/-- The revision an accepted feedback writes, before it is signed. A record of an
earlier version may be without evidence. -/
def feedback_revision (payload : RunFeedbackPayload) (now : String) (old : AuditRecord) : AuditRecord :=
  let evidence := old.evidence.getD { RunEvidence.default with execution_mode := "legacy_unverified" }
  { old with
    measurements :=
      { mttd_ms := if payload.detected then payload.mttd_ms.getD 0 else 0
        mttr_ms := if payload.contained then payload.mttr_ms.getD 0 else 0
        blue_team_detected := payload.detected }
    evidence := some { evidence with feedback_received := true, contained := payload.contained }
    detection_source := payload.detection_source.getD "operator_feedback"
    containment_action :=
      if payload.contained then payload.containment_action.getD "operator_confirmed" else "UNCONFIRMED"
    timestamp_utc := now }

/-- The closures of `AuditStore::update` sign what they return. -/
def signed_revision (crypto : Crypto) (key : List UInt8) (revise : AuditRecord → AuditRecord)
    (record : AuditRecord) : Except IoError AuditRecord :=
  ((revise record).sign crypto key).mapError IoError.other

/-- What the execution of a run established. -/
structure ExecutionFacts where
  status : String
  cleanup_status : String
  execution_mode : Option String
  cleanup_confirmed : Option Bool
  deriving DecidableEq

def execution_facts (record : AuditRecord) : ExecutionFacts where
  status := record.status
  cleanup_status := record.cleanup_status
  execution_mode := record.evidence.map RunEvidence.execution_mode
  cleanup_confirmed := record.evidence.map RunEvidence.cleanup_confirmed

/-- What feedback makes of the facts: where a record has no evidence, that its
execution is unverified is written down. -/
def ExecutionFacts.settled (facts : ExecutionFacts) : ExecutionFacts :=
  { facts with
    execution_mode := some (facts.execution_mode.getD "legacy_unverified")
    cleanup_confirmed := some (facts.cleanup_confirmed.getD false) }

/-- Blue-team feedback is on record. -/
def has_feedback (record : AuditRecord) : Bool := record.evidence.any fun e => e.feedback_received

theorem signed_revision_eq {crypto : Crypto} {key : List UInt8} {revise : AuditRecord → AuditRecord}
    {old record : AuditRecord} (h : signed_revision crypto key revise old = .ok record) :
    ∃ sig pk, record = { revise old with signature_hex := sig, public_key_hex := pk } := by
  rw [signed_revision] at h
  cases hsign : (revise old).sign crypto key with
  | error e => rw [hsign] at h; cases h
  | ok signed =>
    rw [hsign] at h
    obtain rfl := Except.ok.inj h
    exact AuditRecord.sign_eq hsign

theorem is_terminal_of_status {r s : AuditRecord} (h : r.status = s.status) : r.is_terminal = s.is_terminal := by
  rw [AuditRecord.is_terminal, AuditRecord.is_terminal, h]

@[simp] theorem ExecutionFacts.settled_settled (facts : ExecutionFacts) : facts.settled.settled = facts.settled := rfl

theorem settled_of_evidence {record : AuditRecord} (h : record.evidence.isSome) :
    (execution_facts record).settled = execution_facts record := by
  obtain ⟨evidence, hsome⟩ := Option.isSome_iff_exists.mp h
  simp [ExecutionFacts.settled, execution_facts, hsome]

theorem is_terminal_of_settled {r s : AuditRecord} (h : execution_facts r = (execution_facts s).settled) :
    r.is_terminal = s.is_terminal := by
  have hstatus : r.status = s.status := congrArg ExecutionFacts.status h
  exact is_terminal_of_status hstatus

/-- An admitted record has not ended and carries evidence without feedback. -/
theorem admission_record_spec {crypto : Crypto} {key : List UInt8} {id : String} {entry : ScenarioEntry}
    {role : Role} {selected : Option String} {now : String} {record : AuditRecord}
    (h : (admission_record id entry role selected now).sign crypto key = .ok record) :
    record.run_id = id ∧ record.category = entry.category.as_str ∧ record.is_terminal = false ∧
      record.evidence.isSome ∧ has_feedback record = false := by
  obtain ⟨sig, pk, rfl⟩ := AuditRecord.sign_eq h
  exact ⟨rfl, rfl, rfl, rfl, rfl⟩

/-- Feedback settles the execution facts of a record. -/
theorem feedback_revision_spec {crypto : Crypto} {key : List UInt8} {payload : RunFeedbackPayload}
    {now : String} {old record : AuditRecord}
    (h : signed_revision crypto key (feedback_revision payload now) old = .ok record) :
    record.run_id = old.run_id ∧ execution_facts record = (execution_facts old).settled ∧
      has_feedback record = true ∧ record.evidence.isSome := by
  obtain ⟨sig, pk, rfl⟩ := signed_revision_eq h
  refine ⟨rfl, ?_, rfl, rfl⟩
  cases hold : old.evidence with
  | none => simp [feedback_revision, execution_facts, ExecutionFacts.settled, hold, RunEvidence.default]
  | some evidence => simp [feedback_revision, execution_facts, ExecutionFacts.settled, hold]

theorem terminal_revision_spec {crypto : Crypto} {key : List UInt8} {mode : Mode} {settlement : Settlement}
    {now : String} {old record : AuditRecord}
    (h : signed_revision crypto key (terminal_revision mode settlement now) old = .ok record) :
    record.run_id = old.run_id ∧ record.status = settlement.status ∧
      record.evidence.isSome = old.evidence.isSome ∧ has_feedback record = has_feedback old := by
  obtain ⟨sig, pk, rfl⟩ := signed_revision_eq h
  refine ⟨rfl, rfl, Option.isSome_map, ?_⟩
  cases hold : old.evidence <;> simp [terminal_revision, has_feedback, hold]

/-- A record closed at startup is interrupted, with its cleanup unconfirmed. -/
theorem interrupted_facts {crypto : Crypto} {key : List UInt8} {now : String} {old record : AuditRecord}
    (h : (interrupted now old).sign crypto key = .ok record) :
    record.run_id = old.run_id ∧ record.status = "INTERRUPTED" ∧ record.cleanup_status = "UNCONFIRMED" ∧
      record.evidence.all (fun e => !e.cleanup_confirmed) = true ∧
      record.evidence.isSome = old.evidence.isSome ∧ has_feedback record = has_feedback old := by
  obtain ⟨sig, pk, rfl⟩ := AuditRecord.sign_eq h
  refine ⟨rfl, rfl, rfl, ?_, Option.isSome_map, ?_⟩
  · cases hold : old.evidence <;> simp [interrupted, hold]
  · cases hold : old.evidence <;> simp [interrupted, has_feedback, hold]

end asmodeus.control_plane
