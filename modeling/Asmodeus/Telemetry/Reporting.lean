import Asmodeus.Lib.KeyedList
import Asmodeus.Telemetry.Metrics

namespace asmodeus.telemetry

/-- Assessment metrics for one NIST CSF 2.0 core function. -/
structure NistFunctionAssessment where
  function_name : String
  code : String
  scenarios_evaluated : Nat
  successful_detections : Nat
  score_pct : Float32
  status : String
  details : List String

/-- Aggregated statistics of one tactic. -/
structure TacticStat where
  name : String
  total_runs : Nat
  detected_runs : Nat
  mean_mttd_ms : UInt64
  mean_mttr_ms : UInt64
  deriving DecidableEq

/-- Executive report over the audit trail. -/
structure EcosystemResilienceReport where
  title : String
  generated_at_utc : String
  total_runs : Nat
  confirmed_feedback_runs : Nat
  simulated_runs : Nat
  pending_feedback_runs : Nat
  detected_runs : Nat
  contained_runs : Nat
  resilience_score : UInt8
  detection_rate_pct : Float32
  mean_mttd_ms : UInt64
  mean_mttr_ms : UInt64
  target_mttr_ms : UInt64
  mttr_sla_status : String
  nist_functions : List NistFunctionAssessment
  tactics_breakdown : List TacticStat
  executive_summary : String
  recommendations : List String

def mttr_sla_status (aggregate : Aggregate) : String :=
  if aggregate.mean_mttr_ms ≤ TARGET_MTTR_MS ∧ 0 < aggregate.contained then "COMPLIANT (≤ 300 ms)"
  else if aggregate.contained = 0 then "NO DATA"
  else "DEGRADED (> 300 ms)"

/-- A total and how many of it met the goal. -/
structure Tally where
  total : Nat
  met : Nat
  deriving DecidableEq

def Tally.zero : Tally := ⟨0, 0⟩

def Tally.count (self : Tally) (counted met : Bool) : Tally :=
  if counted then ⟨self.total + 1, self.met + if met then 1 else 0⟩ else self

/-- What the loop over the confirmed records gathers. -/
structure Evidence where
  detect : Tally
  protect : Tally
  respond : Tally
  recover : Tally
  tactics : List (String × Aggregate)

def Evidence.empty : Evidence := ⟨.zero, .zero, .zero, .zero, []⟩

def tactic_key (r : AuditRecord) : String := if r.mitre_tactic ≠ "" then r.mitre_tactic else "Infrastructure Chaos"

def contains (text part : String) : Bool := decide (part.toList <:+: text.toList)

def starts_with (text front : String) : Bool := decide (front.toList <+: text.toList)

def record_tactic (tactics : List (String × Aggregate)) (r : AuditRecord) : List (String × Aggregate) :=
  let entry := ((KeyedList.find Prod.fst (tactic_key r) tactics).map Prod.snd).getD .default
  KeyedList.upsert Prod.fst tactics (tactic_key r, entry.record_run r)

/-- One confirmed record. -/
def Evidence.add (self : Evidence) (r : AuditRecord) : Evidence :=
  let detected := r.measurements.blue_team_detected
  { detect := self.detect.count (decide (r.category = "red_team")) detected
    protect := self.protect.count
      (contains r.mitre_technique "T1003" || contains r.mitre_technique "T1053" || contains r.mitre_technique "T1562")
      detected
    respond := self.respond.count detected
      (r.evidence.any (fun e => e.contained) && decide (r.measurements.mttr_ms ≤ TARGET_MTTR_MS * 2))
    recover := self.recover.count true (starts_with r.cleanup_status "SUCCESS")
    tactics := record_tactic self.tactics r }

def gather (records : List AuditRecord) : Evidence :=
  (records.filter fun r => r.is_terminal && r.has_confirmed_feedback).foldl Evidence.add .empty

def Tally.pct (self : Tally) : Float32 := if self.total = 0 then 0 else 100 * as_f32 self.met / as_f32 self.total

/-- The status of a tally against a threshold. -/
def Tally.status (self : Tally) (threshold : Float32) (good bad : String) : String :=
  if self.total = 0 then "NO DATA" else if threshold ≤ self.pct then good else bad

/-- A core function that exercises say nothing about. -/
def not_assessed (name code detail : String) : NistFunctionAssessment := ⟨name, code, 0, 0, 0, "NOT_ASSESSED", [detail]⟩

section

-- The text of a number with one digit after the point.
variable (fixed : Float32 → String)

def nist_functions (evidence : Evidence) (aggregate : Aggregate) : List NistFunctionAssessment :=
  let assess (name code : String) (tally : Tally) (status : String) (details : List String) :
      NistFunctionAssessment :=
    ⟨name, code, tally.total, tally.met, tally.pct, status, details⟩
  [not_assessed "Govern" "GV" "Execution feedback does not assess organizational governance.",
    not_assessed "Identify" "ID" "Runner inventory is not evidence of asset-discovery coverage.",
    assess "Protect" "PR" evidence.protect (evidence.protect.status 80 "STRONG" "ATTENTION_REQUIRED")
      ["Canary filesystem sandbox strictly whitelisted to /var/tmp and /tmp (INV-0)",
        "Scores describe submitted exercise feedback, not a compliance certification",
        "Host hardening and credential protection effectiveness: " ++ fixed evidence.protect.pct ++ "%"],
    assess "Detect" "DE" evidence.detect (evidence.detect.status 90 "OPTIMAL" "IMPROVEMENT_NEEDED")
      ["Mean Time To Detect (MTTD): " ++ toString aggregate.mean_mttd_ms ++
          " ms across evaluated attack techniques",
        "Only explicit feedback for runner executions is evaluated",
        "Overall detection efficiency: " ++ fixed evidence.detect.pct ++ "%"],
    assess "Respond" "RS" evidence.respond (evidence.respond.status 80 "AGILE" "LATENCY_RISK")
      ["Mean Time To Remediate (MTTR): " ++ toString aggregate.mean_mttr_ms ++ " ms (target: " ++
          toString TARGET_MTTR_MS ++ " ms)",
        "Containment must be explicitly confirmed by the feedback submitter"],
    assess "Recover" "RC" evidence.recover
      (if evidence.recover.total = 0 then "NO DATA"
        else if evidence.recover.total = evidence.recover.met then "VERIFIED"
        else "CLEANUP_UNCONFIRMED")
      ["Self-cleaning rollback success: " ++ fixed evidence.recover.pct ++ "% (zero residual artifacts)",
        "Cleanup requires a terminal runner confirmation"]]

def tactics_breakdown (tactics : List (String × Aggregate)) : List TacticStat :=
  (tactics.map fun (name, agg) =>
    ⟨name, agg.scenarios_executed, agg.detected, agg.mean_mttd_ms, agg.mean_mttr_ms⟩).mergeSort
      fun a b => decide (a.name ≤ b.name)

def recommendations (aggregate : Aggregate) : List String :=
  let slow := if TARGET_MTTR_MS < aggregate.mean_mttr_ms then
      ["Tune SOAR automated playbooks: average MTTR (" ++ toString aggregate.mean_mttr_ms ++
        " ms) exceeds target SLA (" ++ toString TARGET_MTTR_MS ++ " ms)."]
    else []
  let blind := if aggregate.detection_rate_pct < 90 ∧ 0 < aggregate.feedback_received then
      ["Enhance eBPF sensor heuristic rules for low-visibility TTPs (e.g. credential honeytokens)."]
    else []
  let silent := if aggregate.feedback_received = 0 then
      ["Collect Blue Team feedback for live runner executions before assessing defense effectiveness."]
    else []
  let found := slow ++ blind ++ silent
  if found.isEmpty then ["Continue scheduled recurring automated campaigns to sustain peak cyber-readiness."]
  else found

def executive_summary (aggregate : Aggregate) (score : UInt8) : String :=
  if aggregate.feedback_received = 0 then
    "Завершено " ++ toString aggregate.scenarios_executed ++
      " прогонов. Подтверждённых результатов Blue Team нет; MTTD, MTTR и оценка защиты не определены."
  else
    "Платформа Asmodeus провела " ++ toString aggregate.feedback_received ++
      " контрольных упражнений кибер-учений и стресс-тестов. " ++
      "Интегральный индекс устойчивости инфраструктуры составляет " ++ toString score ++
      "/100 при показателе детекции " ++ fixed aggregate.detection_rate_pct ++ "%. " ++
      "Среднее время обнаружения (MTTD) зафиксировано на уровне " ++ toString aggregate.mean_mttd_ms ++
      " мс, среднее время сдерживания (MTTR) — " ++ toString aggregate.mean_mttr_ms ++ " мс."

/-- Build an executive report from the audit trail and the rolling aggregate. -/
def EcosystemResilienceReport.build (now : String) (records : List AuditRecord) (aggregate : Aggregate) :
    EcosystemResilienceReport :=
  let evidence := gather records
  let score := telemetry.resilience_score aggregate.detection_rate_pct aggregate.recovery_speed_pct
  { title := "ASMODEUS — Отчёт об Устойчивости Инфраструктуры (NIST CSF 2.0 & BAS)"
    generated_at_utc := now
    total_runs := aggregate.scenarios_executed
    confirmed_feedback_runs := aggregate.feedback_received
    simulated_runs := aggregate.simulated_runs
    pending_feedback_runs := aggregate.pending_feedback
    detected_runs := aggregate.detected
    contained_runs := aggregate.contained
    resilience_score := score
    detection_rate_pct := aggregate.detection_rate_pct
    mean_mttd_ms := aggregate.mean_mttd_ms
    mean_mttr_ms := aggregate.mean_mttr_ms
    target_mttr_ms := TARGET_MTTR_MS
    mttr_sla_status := telemetry.mttr_sla_status aggregate
    nist_functions := telemetry.nist_functions fixed evidence aggregate
    tactics_breakdown := telemetry.tactics_breakdown evidence.tactics
    executive_summary := telemetry.executive_summary fixed aggregate score
    recommendations := telemetry.recommendations aggregate }

end

/-- The loop reads confirmed records alone. -/
theorem gather_confirmed (records : List AuditRecord) :
    gather (records.filter AuditRecord.has_confirmed_feedback) = gather records := by
  rw [gather, gather, List.filter_filter]
  congr 2
  funext r
  cases r.has_confirmed_feedback with
  | true => exact Bool.and_true _
  | false => rw [Bool.and_false, Bool.and_false]

end asmodeus.telemetry
