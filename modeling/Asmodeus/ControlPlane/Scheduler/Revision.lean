import Asmodeus.ControlPlane.Scheduler.Samples

open asmodeus.telemetry

namespace asmodeus.control_plane

variable {F : Type}

/-- The detection time an audit record reports: none is counted on a miss. -/
def confirmed_mttd (record : AuditRecord) : UInt64 :=
  if record.measurements.blue_team_detected then record.measurements.mttd_ms else 0

/-- The sample with the feedback of a record on it. -/
def ScheduledRunSample.revised (sample : ScheduledRunSample F) (record : AuditRecord) : ScheduledRunSample F :=
  { sample with
    feedback_received := true
    detected := some record.measurements.blue_team_detected
    mttd_ms := confirmed_mttd record }

/-- Two samples of one run, whatever feedback they show. -/
structure ScheduledRunSample.SameRun (before after : ScheduledRunSample F) : Prop where
  run_id : after.run_id = before.run_id
  timestamp_utc : after.timestamp_utc = before.timestamp_utc
  status : after.status = before.status

/-- What feedback may do to a job. -/
structure ScheduledJob.Confined (record : AuditRecord) (before after : ScheduledJob F) : Prop where
  id : after.id = before.id
  last_run_epoch_secs : after.last_run_epoch_secs = before.last_run_epoch_secs
  last_status : after.last_status = before.last_status
  enabled : after.enabled = before.enabled
  samples : List.Forall₂ ScheduledRunSample.SameRun before.run_history after.run_history
  untouched : some record.run_id ∉ before.run_history.map ScheduledRunSample.run_id → after = before
  /-- Feedback on an earlier run shows on the sample of that run only. -/
  overtaken : before.last_run_id ≠ some record.run_id → after = before ∨
    ∃ earlier sample later, before.run_history = earlier ++ sample :: later ∧ sample.run_id = some record.run_id ∧
      after = { before with run_history := earlier ++ sample.revised record :: later }

/-- The sample already shows the feedback of the record. -/
def ScheduledRunSample.Shows (sample : ScheduledRunSample F) (record : AuditRecord) : Prop :=
  sample.feedback_received = true ∧ sample.mttd_ms = confirmed_mttd record ∧
    sample.detected = some record.measurements.blue_team_detected

/-- What the feedback of a record does to a job that has a sample of its run. -/
structure ScheduledJob.RevisedBy (drift : DriftArithmetic F) (record : AuditRecord) (before : ScheduledJob F)
    (sample : ScheduledRunSample F) (after : ScheduledJob F) (alert : Option (Nat → DriftAlert F)) : Prop where
  run_history : ∃ factor drifting, after.run_history =
    KeyedList.replace ScheduledRunSample.run_id (some record.run_id)
      { sample.revised record with drift_detected := drifting, drift_factor := factor } before.run_history
  frame : after = { before with
    last_mttd_ms := after.last_mttd_ms
    baseline_mttd_ms := after.baseline_mttd_ms
    detection_missed := after.detection_missed
    drift_detected := after.drift_detected
    drift_factor := after.drift_factor
    run_history := after.run_history }
  overtaken : before.last_run_id ≠ some record.run_id → alert = none ∧ after = { before with
    run_history := KeyedList.replace ScheduledRunSample.run_id (some record.run_id) (sample.revised record)
      before.run_history }
  alert : ∀ raised, alert = some raised → ∀ seq, (raised seq).job_id = before.id

section

variable {drift : DriftArithmetic F} {record : AuditRecord} {job : ScheduledJob F}

theorem ScheduledJob.record_feedback_of_none
    (hnone : KeyedList.find ScheduledRunSample.run_id (some record.run_id) job.run_history = none) :
    job.record_feedback drift record = (job, none) := by
  unfold ScheduledJob.record_feedback
  rw [hnone]

theorem ScheduledJob.record_feedback_of_shows {sample : ScheduledRunSample F}
    (hsample : KeyedList.find ScheduledRunSample.run_id (some record.run_id) job.run_history = some sample)
    (hshows : sample.Shows record) : job.record_feedback drift record = (job, none) := by
  unfold ScheduledJob.record_feedback
  rw [hsample]
  exact if_pos hshows

theorem ScheduledJob.record_feedback_of_not_shows {sample : ScheduledRunSample F}
    (hsample : KeyedList.find ScheduledRunSample.run_id (some record.run_id) job.run_history = some sample)
    (hshows : ¬ sample.Shows record) :
    job.RevisedBy drift record sample (job.record_feedback drift record).1 (job.record_feedback drift record).2 := by
  rw [ScheduledRunSample.Shows, confirmed_mttd] at hshows
  unfold ScheduledJob.record_feedback
  rw [hsample]
  dsimp only
  rw [if_neg hshows]
  by_cases hlast : job.last_run_id = some record.run_id
  · rw [if_neg (not_not.mpr hlast)]
    refine ⟨⟨_, _, rfl⟩, rfl, fun h => absurd hlast h, fun raised hraised seq => ?_⟩
    obtain ⟨-, hsome⟩ := Option.ite_none_right_eq_some.mp hraised
    obtain rfl := Option.some.inj hsome
    rfl
  · rw [if_pos hlast]
    exact ⟨⟨_, _, rfl⟩, rfl, fun _ => ⟨rfl, rfl⟩, fun _ h => by cases h⟩

/-- Feedback leaves the job as it is, or revises the sample of its run. -/
theorem ScheduledJob.record_feedback_cases (drift : DriftArithmetic F) (record : AuditRecord) (job : ScheduledJob F) :
    job.record_feedback drift record = (job, none) ∨ ∃ sample,
      KeyedList.find ScheduledRunSample.run_id (some record.run_id) job.run_history = some sample ∧
        job.RevisedBy drift record sample (job.record_feedback drift record).1
          (job.record_feedback drift record).2 := by
  cases hsample : KeyedList.find ScheduledRunSample.run_id (some record.run_id) job.run_history with
  | none => exact Or.inl (record_feedback_of_none hsample)
  | some sample =>
    by_cases hshows : sample.Shows record
    · exact Or.inl (record_feedback_of_shows hsample hshows)
    · exact Or.inr ⟨sample, rfl, record_feedback_of_not_shows hsample hshows⟩

/-- A second application finds the feedback on its sample. -/
theorem ScheduledJob.record_feedback_again (drift : DriftArithmetic F) (record : AuditRecord) (job : ScheduledJob F) :
    (job.record_feedback drift record).1.record_feedback drift record =
    ((job.record_feedback drift record).1, none) := by
  obtain hsame | ⟨sample, hsample, hrevised⟩ := job.record_feedback_cases drift record
  · rw [hsame, hsame]
  · obtain ⟨factor, drifting, hhistory⟩ := hrevised.run_history
    have hid := (KeyedList.find_some hsample).2
    have hfound : KeyedList.find ScheduledRunSample.run_id (some record.run_id)
        (KeyedList.replace ScheduledRunSample.run_id (some record.run_id)
          { sample.revised record with drift_detected := drifting, drift_factor := factor } job.run_history) = some _ :=
      KeyedList.find_replace_self hid hsample
    rw [← hhistory] at hfound
    exact record_feedback_of_shows hfound ⟨rfl, rfl, rfl⟩

theorem ScheduledRunSample.SameRun.refl (sample : ScheduledRunSample F) : sample.SameRun sample := ⟨rfl, rfl, rfl⟩

theorem ScheduledJob.Confined.refl (record : AuditRecord) (job : ScheduledJob F) : job.Confined record job where
  id := rfl
  last_run_epoch_secs := rfl
  last_status := rfl
  enabled := rfl
  samples := List.forall₂_same.mpr fun sample _ => .refl sample
  untouched := fun _ => rfl
  overtaken := fun _ => Or.inl rfl

/-- The rewritten sample stands where the old one stood. -/
theorem sameRun_replace {run_id : Option String} {samples : List (ScheduledRunSample F)}
    {old new : ScheduledRunSample F} (hold : KeyedList.find ScheduledRunSample.run_id run_id samples = some old)
    (hsame : old.SameRun new) :
    List.Forall₂ ScheduledRunSample.SameRun samples
      (KeyedList.replace ScheduledRunSample.run_id run_id new samples) := by
  obtain ⟨earlier, later, hsplit, -, -, hreplace⟩ := KeyedList.find_split hold
  rw [hreplace, hsplit]
  have hkept : ∀ kept : List (ScheduledRunSample F), List.Forall₂ ScheduledRunSample.SameRun kept kept :=
    fun kept => List.forall₂_same.mpr fun sample _ => .refl sample
  exact List.rel_append (hkept earlier) (.cons hsame (hkept later))

theorem ScheduledJob.record_feedback_confined (drift : DriftArithmetic F) (record : AuditRecord)
    (job : ScheduledJob F) :
    job.Confined record (job.record_feedback drift record).1 := by
  obtain hsame | ⟨sample, hsample, hrevised⟩ := job.record_feedback_cases drift record
  · rw [hsame]
    exact .refl record job
  · obtain ⟨factor, drifting, hhistory⟩ := hrevised.run_history
    have hframe := hrevised.frame
    constructor
    · rw [hframe]
    · rw [hframe]
    · rw [hframe]
    · rw [hframe]
    · rw [hhistory]
      exact sameRun_replace hsample ⟨rfl, rfl, rfl⟩
    · intro habsent
      obtain ⟨hmem, hid⟩ := KeyedList.find_some hsample
      exact absurd (hid ▸ List.mem_map_of_mem hmem) habsent
    · intro hother
      obtain ⟨earlier, later, hsplit, -, hid, hreplace⟩ := KeyedList.find_split hsample
      refine Or.inr ⟨earlier, sample, later, hsplit, hid, ?_⟩
      rw [← hreplace]
      exact (hrevised.overtaken hother).2

/-- Only the last run of a job raises an alert, and the alert names the job. -/
theorem ScheduledJob.record_feedback_alert {alert : Nat → DriftAlert F}
    (halert : (job.record_feedback drift record).2 = some alert) :
    job.last_run_id = some record.run_id ∧ ∀ seq, (alert seq).job_id = job.id := by
  obtain hsame | ⟨sample, -, hrevised⟩ := job.record_feedback_cases drift record
  · rw [hsame] at halert
    cases halert
  · refine ⟨?_, hrevised.alert alert halert⟩
    by_contra hother
    rw [(hrevised.overtaken hother).1] at halert
    cases halert

/-- Nothing happens to a catalog whose jobs all show the feedback already. -/
theorem record_feedback_jobs_of_steady {jobs : List (ScheduledJob F)} (alerts : List (DriftAlert F)) (alert_seq : Nat)
    (hsteady : ∀ job ∈ jobs, job.record_feedback drift record = (job, none)) :
    record_feedback_jobs drift record jobs alerts alert_seq = ⟨jobs, alerts, alert_seq⟩ := by
  induction jobs generalizing alerts alert_seq with
  | nil => rfl
  | cons job jobs ih =>
    unfold record_feedback_jobs
    rw [hsteady job List.mem_cons_self, ih alerts alert_seq fun other hother =>
      hsteady other (List.mem_cons_of_mem job hother)]

theorem bounded_append {α : Type} (bound : Nat) (entries first second : List α) :
    bounded bound (bounded bound (entries ++ first) ++ second) = bounded bound (entries ++ first ++ second) := by
  unfold bounded
  rw [← List.drop_append_of_le_length (Nat.sub_le _ _), List.drop_drop]
  congr 1
  simp only [List.length_drop, List.length_append]
  omega

/-- The ring after some alerts: unchanged if there are none. -/
def ring_after {α : Type} (bound : Nat) (entries added : List α) : List α :=
  if added = [] then entries else bounded bound (entries ++ added)

theorem ring_after_nil {α : Type} (bound : Nat) (entries : List α) : ring_after bound entries [] = entries := if_pos rfl

theorem ring_after_append {α : Type} (bound : Nat) (entries first second : List α) :
    ring_after bound entries (first ++ second) = ring_after bound (ring_after bound entries first) second := by
  by_cases hsecond : second = []
  · rw [hsecond, List.append_nil, ring_after_nil]
  · by_cases hfirst : first = []
    · rw [hfirst, List.nil_append, ring_after_nil]
    · rw [ring_after, ring_after, ring_after, if_neg hfirst, if_neg hsecond,
        if_neg fun h => hfirst (List.append_eq_nil_iff.mp h).1, bounded_append, List.append_assoc]

theorem ring_after_singleton {α : Type} (bound : Nat) (entries : List α) (entry : α) :
    ring_after bound entries [entry] = bounded bound (entries ++ [entry]) := if_neg (List.cons_ne_nil entry [])

theorem ring_after_cons {α : Type} (bound : Nat) (entries added : List α) (entry : α) :
    ring_after bound entries (entry :: added) = ring_after bound (bounded bound (entries ++ [entry])) added := by
  rw [← List.singleton_append, ring_after_append, ring_after_singleton]

/-- The alerts the loop raises, each by a job whose last run is the record's. -/
theorem record_feedback_jobs_alerts (drift : DriftArithmetic F) (record : AuditRecord)
    (jobs : List (ScheduledJob F)) (alerts : List (DriftAlert F)) (alert_seq : Nat) :
    ∃ added, (record_feedback_jobs drift record jobs alerts alert_seq).alerts = ring_after MAX_ALERTS alerts added ∧
      ∀ alert ∈ added, ∃ job ∈ jobs, job.id = alert.job_id ∧ job.last_run_id = some record.run_id := by
  induction jobs generalizing alerts alert_seq with
  | nil => exact ⟨[], (ring_after_nil _ _).symm, nofun⟩
  | cons job jobs ih =>
    have hlater : ∀ {alert : DriftAlert F}, (∃ job ∈ jobs, job.id = alert.job_id ∧
        job.last_run_id = some record.run_id) →
        ∃ other ∈ job :: jobs, other.id = alert.job_id ∧ other.last_run_id = some record.run_id := by
      rintro alert ⟨other, hother, hnamed⟩
      exact ⟨other, List.mem_cons_of_mem job hother, hnamed⟩
    unfold record_feedback_jobs
    split
    · obtain ⟨added, hring, hadded⟩ := ih alerts alert_seq
      exact ⟨added, hring, fun alert halert => hlater (hadded alert halert)⟩
    · rename_i revised alert hjob
      obtain ⟨hlast, hnamed⟩ := job.record_feedback_alert (congrArg Prod.snd hjob)
      obtain ⟨added, hring, hadded⟩ := ih (bounded MAX_ALERTS (alerts ++ [alert (alert_seq + 1)])) (alert_seq + 1)
      refine ⟨alert (alert_seq + 1) :: added, hring.trans (ring_after_cons _ _ _ _).symm, ?_⟩
      intro raised hraised
      rcases List.mem_cons.mp hraised with rfl | hraised
      · exact ⟨job, List.mem_cons_self, (hnamed _).symm, hlast⟩
      · exact hlater (hadded raised hraised)

end

/-- Feedback applied again changes nothing, and feedback changes no more than it
is about: a job without a sample of the run not at all, and a job that has run
since only in what the sample of the run shows. Every alert it adds is that of a
job whose last run is the run. -/
theorem ScheduleCatalog.record_feedback_idempotent_confined (drift : DriftArithmetic F) (catalog : ScheduleCatalog F)
    (record : AuditRecord) (hunique : KeyedList.Unique ScheduledJob.id catalog.jobs) :
    (catalog.record_feedback drift record).record_feedback drift record = catalog.record_feedback drift record ∧
      List.Forall₂ (ScheduledJob.Confined record) catalog.jobs (catalog.record_feedback drift record).jobs ∧
      ∃ added, (catalog.record_feedback drift record).alerts = ring_after MAX_ALERTS catalog.alerts added ∧
        ∀ job ∈ catalog.jobs, job.last_run_id ≠ some record.run_id → ∀ alert ∈ added, alert.job_id ≠ job.id := by
  unfold ScheduleCatalog.record_feedback
  split
  · exact ⟨rfl, List.forall₂_same.mpr fun job _ => .refl record job, [], (ring_after_nil _ _).symm,
      fun _ _ _ _ h => absurd h List.not_mem_nil⟩
  · refine ⟨?_, ?_, ?_⟩
    · refine record_feedback_jobs_of_steady _ _ fun job hjob => ?_
      rw [record_feedback_jobs_jobs] at hjob
      obtain ⟨before, -, rfl⟩ := List.mem_map.mp hjob
      exact before.record_feedback_again drift record
    · rw [record_feedback_jobs_jobs, List.forall₂_map_right_iff]
      exact List.forall₂_same.mpr fun job _ => job.record_feedback_confined drift record
    · obtain ⟨added, hring, hadded⟩ := record_feedback_jobs_alerts drift record catalog.jobs catalog.alerts
        catalog.alert_seq
      refine ⟨added, hring, fun job hjob hother alert halert hnamed => ?_⟩
      obtain ⟨raised, hraised, hid, hlast⟩ := hadded alert halert
      obtain rfl := List.inj_on_of_nodup_map hunique hraised hjob (hid.trans hnamed)
      exact hother hlast

/-- Two runs of a seeded job. -/
def twice_run_catalog : ScheduleCatalog Nat :=
  PendingOutcome.apply ⟨"SCHED-BASE-RANSOMWARE", "", some "run-2", "COMPLETED", "2026-09-22T00:02:00Z"⟩
    (PendingOutcome.apply ⟨"SCHED-BASE-RANSOMWARE", "", some "run-1", "COMPLETED", "2026-09-22T00:00:00Z"⟩ .seeded)

def late_record : AuditRecord :=
  { runner_record "run-1" "COMPLETED" with
    measurements := ⟨900, 0, true⟩
    evidence := some ⟨"runner", true, false, true, none⟩ }

/-- Feedback on the first of the two runs shows on its sample, and the drift
state of the job stays that of the second. -/
theorem late_record_confined :
    (twice_run_catalog.record_feedback whole_drift late_record).record_feedback whole_drift late_record =
        twice_run_catalog.record_feedback whole_drift late_record ∧
      ((twice_run_catalog.record_feedback whole_drift late_record).jobs.map fun job =>
        (job.run_history.map ScheduledRunSample.mttd_ms, job.last_mttd_ms, job.drift_detected)) =
          [([900, 0], none, false), ([], none, false)] := by
  have hunique : KeyedList.Unique ScheduledJob.id twice_run_catalog.jobs := by
    change ["SCHED-BASE-RANSOMWARE", "SCHED-BASE-C2-BEACON"].Nodup
    decide
  exact ⟨(ScheduleCatalog.record_feedback_idempotent_confined whole_drift twice_run_catalog late_record hunique).1, rfl⟩

end asmodeus.control_plane
