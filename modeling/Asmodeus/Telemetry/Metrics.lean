import Asmodeus.Telemetry.Aggregate

namespace asmodeus.telemetry

/-- Containment within this time counts as full recovery. -/
def TARGET_MTTR_MS : UInt64 := 300

/-- A counter in single precision. -/
def as_f32 (n : Nat) : Float32 := (UInt64.ofNat n).toFloat32

def clamp (x low high : Float32) : Float32 := if x < low then low else if high < x then high else x

namespace Aggregate

def mean_mttd_ms (self : Aggregate) : UInt64 :=
  if self.detection_samples = 0 then 0 else UInt64.ofNat (self.sum_mttd_ms / self.detection_samples)

def mean_mttr_ms (self : Aggregate) : UInt64 :=
  if self.containment_samples = 0 then 0 else UInt64.ofNat (self.sum_mttr_ms / self.containment_samples)

/-- Percentage of runs the defenders detected. -/
def detection_rate_pct (self : Aggregate) : Float32 :=
  if self.feedback_received = 0 then 0 else 100 * as_f32 self.detected / as_f32 self.feedback_received

/-- Recovery speed as a percentage of the containment target. -/
def recovery_speed_pct (self : Aggregate) : Float32 :=
  if self.containment_samples = 0 then 0
  else if self.mean_mttr_ms = 0 then 100
  else clamp (100 * TARGET_MTTR_MS.toFloat32 / self.mean_mttr_ms.toFloat32) 0 100

end Aggregate

/-- Integral cyber-resilience index. -/
def resilience_score (attacks_repelled_pct recovery_speed_pct : Float32) : UInt8 :=
  (clamp (0.5 * attacks_repelled_pct + 0.5 * recovery_speed_pct) 0 100).toUInt8

namespace Aggregate

/-- The counters about confirmed feedback. -/
def defence (self : Aggregate) : Aggregate :=
  { self with scenarios_executed := 0, simulated_runs := 0, pending_feedback := 0 }

theorem defence_add (a b : Aggregate) : (a + b).defence = a.defence + b.defence := rfl

/-- A record without confirmed feedback counts for none of them. -/
theorem contribution_defence {record : AuditRecord} (hunconfirmed : record.has_confirmed_feedback = false) :
    (contribution record).defence = 0 := by
  unfold contribution
  split
  · rfl
  · split
    · rfl
    · rw [hunconfirmed]
      rfl

/-- Records without confirmed feedback do not move the counters about it. -/
theorem from_records_defence (records : List AuditRecord) :
    (from_records records).defence = (from_records (records.filter AuditRecord.has_confirmed_feedback)).defence := by
  rw [from_records_eq_sum, from_records_eq_sum]
  induction records with
  | nil => rfl
  | cons record records ih =>
    rw [List.map_cons, List.sum_cons, defence_add, ih]
    cases hconfirmed : record.has_confirmed_feedback with
    | true => rw [List.filter_cons_of_pos hconfirmed, List.map_cons, List.sum_cons, defence_add]
    | false =>
      rw [List.filter_cons_of_neg (by rw [hconfirmed]; exact Bool.false_ne_true), contribution_defence hconfirmed,
        zero_add]

/-- A metric that reads these counters alone. -/
theorem eq_of_defence {α : Type} (metric : Aggregate → α) (hmetric : ∀ a, metric (defence a) = metric a)
    {a b : Aggregate} (h : a.defence = b.defence) : metric a = metric b := by
  rw [← hmetric a, h, hmetric b]

/-- Trails with the same confirmed records agree on them. -/
theorem defence_of_confirmed {records records' : List AuditRecord}
    (hsame : records.filter AuditRecord.has_confirmed_feedback = records'.filter AuditRecord.has_confirmed_feedback) :
    (from_records records).defence = (from_records records').defence := by
  rw [from_records_defence records, hsame, ← from_records_defence records']

end Aggregate

end asmodeus.telemetry
