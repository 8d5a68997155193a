import Asmodeus.Telemetry.Record
import Mathlib.Algebra.BigOperators.Group.List.Lemmas

namespace asmodeus.telemetry

/-- Rolling aggregate over completed runs. The counters count the runs of one
trail, so they are kept as natural numbers. -/
@[ext] structure Aggregate where
  scenarios_executed : Nat
  detected : Nat
  feedback_received : Nat
  simulated_runs : Nat
  pending_feedback : Nat
  contained : Nat
  detection_samples : Nat
  containment_samples : Nat
  sum_mttd_ms : Nat
  sum_mttr_ms : Nat
  deriving DecidableEq

def Aggregate.default : Aggregate := ⟨0, 0, 0, 0, 0, 0, 0, 0, 0, 0⟩

/-- One counter of `combine`: added, or subtracted with saturation at zero. -/
def update_field (add : Bool) (current other : Nat) : Nat :=
  if add then current + other else current - other

def Aggregate.combine (self other : Aggregate) (add : Bool) : Aggregate where
  scenarios_executed := update_field add self.scenarios_executed other.scenarios_executed
  detected := update_field add self.detected other.detected
  feedback_received := update_field add self.feedback_received other.feedback_received
  simulated_runs := update_field add self.simulated_runs other.simulated_runs
  pending_feedback := update_field add self.pending_feedback other.pending_feedback
  contained := update_field add self.contained other.contained
  detection_samples := update_field add self.detection_samples other.detection_samples
  containment_samples := update_field add self.containment_samples other.containment_samples
  sum_mttd_ms := update_field add self.sum_mttd_ms other.sum_mttd_ms
  sum_mttr_ms := update_field add self.sum_mttr_ms other.sum_mttr_ms

/-- What one record counts for. A run that has not ended counts for nothing;
an ended one is simulated, confirmed by feedback, or still waiting for it. -/
def Aggregate.contribution (record : AuditRecord) : Aggregate :=
  if !record.is_terminal then .default
  else if record.evidence.any fun e => e.execution_mode == "simulated" then
    { Aggregate.default with scenarios_executed := 1, simulated_runs := 1 }
  else if record.has_confirmed_feedback then
    let detected := record.measurements.blue_team_detected
    let contained := record.evidence.any fun e => e.contained
    { Aggregate.default with
      scenarios_executed := 1
      feedback_received := 1
      detected := if detected then 1 else 0
      detection_samples := if detected then 1 else 0
      sum_mttd_ms := if detected then record.measurements.mttd_ms.toNat else 0
      contained := if contained then 1 else 0
      containment_samples := if contained then 1 else 0
      sum_mttr_ms := if contained then record.measurements.mttr_ms.toNat else 0 }
  else { Aggregate.default with scenarios_executed := 1, pending_feedback := 1 }

def Aggregate.record_run (self : Aggregate) (record : AuditRecord) : Aggregate :=
  self.combine (contribution record) true

def Aggregate.update_run (self : Aggregate) (old new : AuditRecord) : Aggregate :=
  (self.combine (contribution old) false).record_run new

/-- Rebuild the aggregate from persisted records. -/
def Aggregate.from_records (records : List AuditRecord) : Aggregate :=
  records.foldl Aggregate.record_run .default

instance : Zero Aggregate := ⟨Aggregate.default⟩
instance : Add Aggregate := ⟨fun a b => a.combine b true⟩
instance : Sub Aggregate := ⟨fun a b => a.combine b false⟩

theorem Aggregate.add_def (a b : Aggregate) : a + b = a.combine b true := rfl
theorem Aggregate.sub_def (a b : Aggregate) : a - b = a.combine b false := rfl
/-- Aggregates add up counter by counter. -/
instance : AddCommMonoid Aggregate where
  add_assoc a b c := by ext <;> exact Nat.add_assoc _ _ _
  zero_add a := by ext <;> exact Nat.zero_add _
  add_zero a := by ext <;> exact Nat.add_zero _
  add_comm a b := by ext <;> exact Nat.add_comm _ _
  nsmul := nsmulRec

/-- Every counter of the first is at most its counterpart: subtracting it
truncates nothing. -/
structure Aggregate.Covers (part whole : Aggregate) : Prop where
  scenarios_executed : part.scenarios_executed ≤ whole.scenarios_executed
  detected : part.detected ≤ whole.detected
  feedback_received : part.feedback_received ≤ whole.feedback_received
  simulated_runs : part.simulated_runs ≤ whole.simulated_runs
  pending_feedback : part.pending_feedback ≤ whole.pending_feedback
  contained : part.contained ≤ whole.contained
  detection_samples : part.detection_samples ≤ whole.detection_samples
  containment_samples : part.containment_samples ≤ whole.containment_samples
  sum_mttd_ms : part.sum_mttd_ms ≤ whole.sum_mttd_ms
  sum_mttr_ms : part.sum_mttr_ms ≤ whole.sum_mttr_ms

theorem Aggregate.covers_add (part rest : Aggregate) : part.Covers (part + rest) := by
  constructor <;> exact Nat.le_add_right _ _

theorem Aggregate.add_sub_cancel_left (part rest : Aggregate) : part + rest - part = rest := by
  ext <;> exact Nat.add_sub_cancel_left _ _

/-- The rolling aggregate of a trail is the sum of what its records count for. -/
theorem Aggregate.from_records_eq_sum (records : List AuditRecord) :
    from_records records = (records.map contribution).sum := by
  have hfold : ∀ start : Aggregate,
      records.foldl record_run start = start + (records.map contribution).sum := by
    induction records with
    | nil => intro start; exact (add_zero start).symm
    | cons record records ih =>
      intro start
      rw [List.foldl_cons, ih, List.map_cons, List.sum_cons, ← add_assoc]
      rfl
  rw [from_records, hfold]
  exact zero_add _

theorem Aggregate.from_records_perm {records records' : List AuditRecord} (hperm : records.Perm records') :
    from_records records = from_records records' := by
  rw [from_records_eq_sum, from_records_eq_sum, (hperm.map contribution).sum_eq]

theorem Aggregate.from_records_append (records : List AuditRecord) (record : AuditRecord) :
    from_records (records ++ [record]) = (from_records records).record_run record := by
  rw [from_records, List.foldl_append]
  rfl

theorem Aggregate.from_records_split (before after : List AuditRecord) (record : AuditRecord) :
    from_records (before ++ record :: after) = contribution record + from_records (before ++ after) := by
  rw [from_records_perm List.perm_middle, from_records_eq_sum, from_records_eq_sum, List.map_cons,
    List.sum_cons]

/-- Subtracting a revision and adding its successor recounts the trail. -/
theorem Aggregate.update_run_spec (before after : List AuditRecord) (old new : AuditRecord) :
    (from_records (before ++ old :: after)).update_run old new = from_records (before ++ new :: after) := by
  rw [from_records_split, from_records_split, update_run, ← sub_def, add_sub_cancel_left, record_run,
    ← add_def, add_comm]

/-- No record of the trail counts for more than the whole trail. -/
theorem Aggregate.contribution_covers {records : List AuditRecord} {record : AuditRecord}
    (hmem : record ∈ records) : (contribution record).Covers (from_records records) := by
  obtain ⟨before, after, rfl⟩ := List.append_of_mem hmem
  rw [from_records_split]
  exact covers_add _ _

/-- Every counted run is in exactly one class, and detection is only ever
counted for runs with feedback. -/
structure Aggregate.Balanced (a : Aggregate) : Prop where
  classes : a.scenarios_executed = a.simulated_runs + a.feedback_received + a.pending_feedback
  detected_le : a.detected ≤ a.feedback_received

theorem Aggregate.Balanced.zero : Aggregate.Balanced 0 := ⟨rfl, Nat.le_refl 0⟩

theorem Aggregate.Balanced.add {a b : Aggregate} (ha : a.Balanced) (hb : b.Balanced) : (a + b).Balanced := by
  obtain ⟨haclasses, hadetected⟩ := ha
  obtain ⟨hbclasses, hbdetected⟩ := hb
  constructor
  · change a.scenarios_executed + b.scenarios_executed = a.simulated_runs + b.simulated_runs +
      (a.feedback_received + b.feedback_received) + (a.pending_feedback + b.pending_feedback)
    omega
  · change a.detected + b.detected ≤ a.feedback_received + b.feedback_received
    omega

theorem Aggregate.contribution_balanced (record : AuditRecord) : (contribution record).Balanced := by
  unfold contribution
  split
  · exact .zero
  · split
    · exact ⟨rfl, Nat.le_refl 0⟩
    · split
      · refine ⟨rfl, ?_⟩
        dsimp only
        split <;> omega
      · exact ⟨rfl, Nat.le_refl 0⟩

theorem Aggregate.from_records_balanced (records : List AuditRecord) : (from_records records).Balanced := by
  rw [from_records_eq_sum]
  induction records with
  | nil => exact .zero
  | cons record records ih =>
    rw [List.map_cons, List.sum_cons]
    exact (contribution_balanced record).add ih

end asmodeus.telemetry
