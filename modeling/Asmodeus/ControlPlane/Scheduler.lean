import Asmodeus.Common.Rbac
import Asmodeus.Lib.KeyedList
import Asmodeus.Telemetry.Record
import Mathlib.Data.List.Sort
import Mathlib.Data.String.Basic

open asmodeus.common asmodeus.telemetry

namespace asmodeus.control_plane

def MAX_HISTORY_PER_JOB : Nat := 50
def MAX_ALERTS : Nat := 200

/-- The floating-point arithmetic of the drift factor: the ratio of an observed
time to a baseline, and whether it reaches the threshold. -/
structure DriftArithmetic (F : Type) where
  ratio : UInt64 → UInt64 → F
  degraded : F → Bool
  default : F

/-- Whole numbers in place of the drift factors, for runs on fixed inputs. -/
def whole_drift : DriftArithmetic Nat :=
    ⟨fun observed baseline => observed.toNat / baseline.toNat, fun f => decide (2 ≤ f), 0⟩

structure ScheduledRunSample (F : Type) where
  run_id : Option String
  feedback_received : Bool
  detected : Option Bool
  timestamp_utc : String
  status : String
  mttd_ms : UInt64
  drift_detected : Bool
  drift_factor : Option F

structure DriftAlert (F : Type) where
  detection_missed : Bool
  seq : Nat
  job_id : String
  scenario_id : String
  baseline_mttd_ms : Option UInt64
  observed_mttd_ms : UInt64
  drift_factor : F
  timestamp_utc : String

structure ScheduledJob (F : Type) where
  generation : String
  id : String
  name : String
  scenario_id : String
  interval_sec : UInt64
  role : Role
  target_override : Option String
  enabled : Bool
  created_at_utc : String
  last_run_utc : Option String
  last_run_epoch_secs : Option UInt64
  last_status : Option String
  last_run_id : Option String
  last_mttd_ms : Option UInt64
  baseline_mttd_ms : Option UInt64
  drift_detected : Bool
  detection_missed : Bool
  drift_factor : Option F
  run_history : List (ScheduledRunSample F)

/-- The jobs in some order, each under its id, and the alert ring. -/
structure ScheduleCatalog (F : Type) where
  jobs : List (ScheduledJob F)
  alerts : List (DriftAlert F)
  alert_seq : Nat

variable {F : Type}

/-- Drop the oldest entries beyond a bound. -/
def bounded {α : Type} (bound : Nat) (entries : List α) : List α := entries.drop (entries.length - bound)

/-- A job as it is created: it has never run. -/
def ScheduledJob.create (generation id name scenario_id : String) (interval_sec : UInt64) (role : Role)
    (target_override : Option String) (baseline_mttd_ms : Option UInt64) (enabled : Bool) (created_at_utc : String) :
    ScheduledJob F where
  generation := generation
  id := id
  name := name
  scenario_id := scenario_id
  interval_sec := interval_sec
  role := role
  target_override := target_override
  enabled := enabled
  created_at_utc := created_at_utc
  last_run_utc := none
  last_run_epoch_secs := none
  last_status := none
  last_run_id := none
  last_mttd_ms := none
  baseline_mttd_ms := baseline_mttd_ms
  drift_detected := false
  detection_missed := false
  drift_factor := none
  run_history := []

def ScheduleCatalog.seeded : ScheduleCatalog F where
  jobs :=
    [.create "" "SCHED-BASE-RANSOMWARE" "Continuous Ransomware Canary Baseline" "RANSOMWARE_CANARY_SPIKE" 120
        .RedTeam none (some 200) false "2026-09-09T00:00:00Z",
      .create "" "SCHED-BASE-C2-BEACON" "Continuous C2 Beaconing Baseline" "C2_BEACONING_SIMULATION" 180
        .RedTeam none (some 150) false "2026-09-09T00:00:00Z"]
  alerts := []
  alert_seq := 0

def ScheduleCatalog.get (self : ScheduleCatalog F) (id : String) : Option (ScheduledJob F) :=
  KeyedList.find ScheduledJob.id id self.jobs

def ScheduleCatalog.register (self : ScheduleCatalog F) (job : ScheduledJob F) : ScheduleCatalog F :=
  { self with jobs := KeyedList.upsert ScheduledJob.id self.jobs job }

def ScheduleCatalog.deregister (self : ScheduleCatalog F) (id : String) : ScheduleCatalog F :=
  { self with jobs := self.jobs.filter fun job => decide (job.id ≠ id) }

def ScheduleCatalog.set_enabled (self : ScheduleCatalog F) (id : String) (enabled : Bool) : ScheduleCatalog F :=
  match self.get id with
  | some job => { self with jobs := KeyedList.replace ScheduledJob.id id { job with enabled := enabled } self.jobs }
  | none => self

/-- `now >= last.saturating_add(interval_sec)`. -/
def elapsed (now last interval_sec : UInt64) : Bool :=
  decide (min (last.toNat + interval_sec.toNat) (2 ^ 64 - 1) ≤ now.toNat)

def ScheduledJob.is_due (self : ScheduledJob F) (now : UInt64) : Bool :=
  self.enabled && decide (self.last_status ≠ some "RUNNING") &&
    self.last_run_epoch_secs.all fun last => elapsed now last self.interval_sec

def ScheduledJob.claim (self : ScheduledJob F) (now : UInt64) (now_utc : String) : ScheduledJob F :=
  { self with
    last_run_epoch_secs := some now
    last_status := some "RUNNING"
    last_run_utc := some now_utc }

/-- The jobs that are due, in the order of their ids, and the catalog that has
them running. -/
def ScheduleCatalog.claim_due (self : ScheduleCatalog F) (now : UInt64) (now_utc : String) :
    List (ScheduledJob F) × ScheduleCatalog F :=
  let due := (self.jobs.filter fun job => job.is_due now).map fun job => job.claim now now_utc
  (due.insertionSort fun a b => a.id ≤ b.id,
    { self with jobs := self.jobs.map fun job => if job.is_due now then job.claim now now_utc else job })

def ScheduleCatalog.recover_interrupted (self : ScheduleCatalog F) : ScheduleCatalog F :=
  { self with
    jobs := self.jobs.map fun job =>
      if job.last_status = some "RUNNING" then { job with last_status := some "INTERRUPTED" } else job }

/-- The feedback of an audit record on the sample of its run. The second part is
the alert this raises, up to its sequence number. -/
def ScheduledJob.record_feedback (drift : DriftArithmetic F) (record : AuditRecord) (self : ScheduledJob F) :
    ScheduledJob F × Option (Nat → DriftAlert F) :=
  match KeyedList.find ScheduledRunSample.run_id (some record.run_id) self.run_history with
  | none => (self, none)
  | some sample =>
    let detected := record.measurements.blue_team_detected
    let mttd := if detected then record.measurements.mttd_ms else 0
    if sample.feedback_received = true ∧ sample.mttd_ms = mttd ∧ sample.detected = some detected then (self, none)
    else
      let sample := { sample with feedback_received := true, detected := some detected, mttd_ms := mttd }
      let revise := fun sample =>
        KeyedList.replace ScheduledRunSample.run_id (some record.run_id) sample self.run_history
      -- Old feedback stays attached to its run: the drift state is the last run's.
      if self.last_run_id ≠ some record.run_id then ({ self with run_history := revise sample }, none)
      else
        let baseline := if self.baseline_mttd_ms.isNone ∧ 0 < mttd then some mttd else self.baseline_mttd_ms
        let factor := (baseline.filter fun base => decide (0 < base)).map fun base => drift.ratio mttd base
        let missed := !detected
        let drifting := missed || factor.any drift.degraded
        let shown := if detected then factor else none
        let job := { self with
          last_mttd_ms := if detected then some mttd else none
          baseline_mttd_ms := baseline
          detection_missed := missed
          drift_detected := drifting
          drift_factor := shown
          run_history := revise { sample with drift_detected := drifting, drift_factor := shown } }
        let alert := fun seq =>
          ⟨missed, seq, self.id, self.scenario_id, baseline, mttd, factor.getD drift.default, record.timestamp_utc⟩
        (job, if drifting && (!self.drift_detected || (missed && !self.detection_missed)) then some alert else none)

/-- The loop over the jobs, with the alert ring and its sequence number. -/
def record_feedback_jobs (drift : DriftArithmetic F) (record : AuditRecord) :
    List (ScheduledJob F) → List (DriftAlert F) → Nat → ScheduleCatalog F
  | [], alerts, alert_seq => ⟨[], alerts, alert_seq⟩
  | job :: jobs, alerts, alert_seq =>
    match job.record_feedback drift record with
    | (job, none) =>
      let catalog := record_feedback_jobs drift record jobs alerts alert_seq
      { catalog with jobs := job :: catalog.jobs }
    | (job, some alert) =>
      let alerts := bounded MAX_ALERTS (alerts ++ [alert (alert_seq + 1)])
      let catalog := record_feedback_jobs drift record jobs alerts (alert_seq + 1)
      { catalog with jobs := job :: catalog.jobs }

def ScheduleCatalog.record_feedback (drift : DriftArithmetic F) (self : ScheduleCatalog F) (record : AuditRecord) :
    ScheduleCatalog F :=
  if !record.is_terminal || !record.has_confirmed_feedback then self
  else record_feedback_jobs drift record self.jobs self.alerts self.alert_seq

/-- A completed outcome, kept until its snapshot commits. -/
structure PendingOutcome where
  job_id : String
  generation : String
  run_id : Option String
  status : String
  timestamp_utc : String

def ScheduledJob.record_outcome (self : ScheduledJob F) (outcome : PendingOutcome) : ScheduledJob F :=
  if outcome.status = "SKIPPED" then { self with last_status := some outcome.status }
  else
    let sample := ⟨outcome.run_id, false, none, outcome.timestamp_utc, outcome.status, 0, self.drift_detected, none⟩
    { self with
      last_status := some outcome.status
      last_run_id := outcome.run_id
      last_run_utc := some outcome.timestamp_utc
      last_mttd_ms := none
      run_history := bounded MAX_HISTORY_PER_JOB (self.run_history ++ [sample]) }

def PendingOutcome.apply (self : PendingOutcome) (catalog : ScheduleCatalog F) : ScheduleCatalog F :=
  match catalog.get self.job_id with
  | none => catalog
  | some current =>
    if current.generation ≠ self.generation then catalog
    else { catalog with
      jobs := KeyedList.replace ScheduledJob.id self.job_id (current.record_outcome self) catalog.jobs }

end asmodeus.control_plane
