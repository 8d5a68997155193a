import Asmodeus.ControlPlane.Scheduler.System

open asmodeus.common asmodeus.telemetry

namespace asmodeus.control_plane

/-- Blue-team feedback as the sample of a run shows it. -/
structure ShownFeedback where
  feedback_received : Bool
  detected : Option Bool
  mttd_ms : UInt64
  deriving DecidableEq

def ShownFeedback.pending : ShownFeedback := ⟨false, none, 0⟩

/-- What an audit record has to show: its feedback, once it is confirmed. -/
def confirmed_feedback (record : AuditRecord) : ShownFeedback :=
  if record.has_confirmed_feedback then
    ⟨true, some record.measurements.blue_team_detected,
      if record.measurements.blue_team_detected then record.measurements.mttd_ms else 0⟩
  else .pending

variable {F : Type}

def ScheduledRunSample.shown (sample : ScheduledRunSample F) : Option String × ShownFeedback :=
  (sample.run_id, ⟨sample.feedback_received, sample.detected, sample.mttd_ms⟩)

def ScheduledJob.shown (job : ScheduledJob F) : List (Option String × ShownFeedback) :=
  job.run_history.map ScheduledRunSample.shown

/-- The runs of all samples with the feedback they show. -/
def ScheduleCatalog.shown (catalog : ScheduleCatalog F) : List (Option String × ShownFeedback) :=
  catalog.jobs.flatMap ScheduledJob.shown

/-- What the feedback of a record does to a shown sample. -/
def show_feedback (record : AuditRecord) (entry : Option String × ShownFeedback) : Option String × ShownFeedback :=
  if entry.1 = some record.run_id then (entry.1, confirmed_feedback record) else entry

section

variable {catalog : ScheduleCatalog F} {drift : DriftArithmetic F} {record : AuditRecord}

/-- A change of the jobs that keeps their histories does not show. -/
theorem shown_map {jobs : List (ScheduledJob F)} {f : ScheduledJob F → ScheduledJob F}
    (hf : ∀ job, (f job).run_history = job.run_history) :
    (jobs.map f).flatMap ScheduledJob.shown = jobs.flatMap ScheduledJob.shown := by
  rw [List.flatMap_map]
  congr 1
  funext job
  rw [ScheduledJob.shown, ScheduledJob.shown, hf]

theorem claim_due_shown (catalog : ScheduleCatalog F) (now : UInt64) (now_utc : String) :
    (catalog.claim_due now now_utc).2.shown = catalog.shown := by
  refine shown_map fun job => ?_
  split <;> rfl

/-- No edit of the catalog adds a sample. -/
theorem edit_shown (edit : CatalogEdit) (catalog : ScheduleCatalog F) :
    (edit.apply catalog).shown.Sublist catalog.shown := by
  cases edit with
  | create generation id name scenario_id interval_sec role target_override baseline_mttd_ms enabled created_at_utc =>
    simp only [CatalogEdit.apply]
    split
    · exact .refl _
    · rename_i hfresh
      have hnone : KeyedList.find ScheduledJob.id id catalog.jobs = none := Option.not_isSome_iff_eq_none.mp hfresh
      rw [ScheduleCatalog.register, KeyedList.upsert_of_find_none hnone, ScheduleCatalog.shown, List.flatMap_append]
      exact (List.append_nil _).symm ▸ .refl _
  | delete id => exact List.Sublist.flatMap List.filter_sublist _
  | toggle id enabled =>
    simp only [CatalogEdit.apply, ScheduleCatalog.set_enabled]
    split
    · rename_i job hjob
      obtain ⟨before, after, hsplit, -, -, hreplace⟩ := KeyedList.find_split hjob
      rw [ScheduleCatalog.shown, ScheduleCatalog.shown, hreplace, hsplit, List.flatMap_append, List.flatMap_append]
      exact .refl _
    · exact .refl _
  | recover_interrupted =>
    have hkept : (catalog.recover_interrupted).shown = catalog.shown := by
      refine shown_map fun job => ?_
      split <;> rfl
    exact hkept ▸ .refl _

theorem bounded_sublist {α : Type} (bound : Nat) (entries : List α) : (bounded bound entries).Sublist entries :=
  List.drop_sublist _ _

/-- The outcome becomes a sample of its job. -/
def PendingOutcome.adds_sample (self : PendingOutcome) (catalog : ScheduleCatalog F) : Bool :=
  decide (self.status ≠ "SKIPPED") &&
    (catalog.get self.job_id).any fun job => decide (job.generation = self.generation)

/-- An outcome adds at most the sample of its own run, which shows nothing. -/
theorem record_outcome_shown (job : ScheduledJob F) (outcome : PendingOutcome) :
    (job.record_outcome outcome).shown.Sublist (job.shown ++ [(outcome.run_id, .pending)]) := by
  unfold ScheduledJob.record_outcome
  split
  · exact List.sublist_append_left _ _
  · have hlast := (bounded_sublist MAX_HISTORY_PER_JOB (job.run_history ++ [⟨outcome.run_id, false, none,
      outcome.timestamp_utc, outcome.status, 0, job.drift_detected, none⟩])).map ScheduledRunSample.shown
    rw [List.map_append] at hlast
    exact hlast

/-- The samples after an outcome: those from before, and that of its run. -/
theorem apply_shown (outcome : PendingOutcome) (catalog : ScheduleCatalog F) :
    (outcome.apply catalog).shown.Subperm (catalog.shown ++ [(outcome.run_id, .pending)]) := by
  have hskip : catalog.shown.Subperm (catalog.shown ++ [(outcome.run_id, .pending)]) :=
    (List.sublist_append_left _ _).subperm
  unfold PendingOutcome.apply
  split
  · exact hskip
  · rename_i job hjob
    split
    · exact hskip
    · obtain ⟨before, after, hsplit, -, -, hreplace⟩ := KeyedList.find_split hjob
      rw [ScheduleCatalog.shown, ScheduleCatalog.shown, hreplace, hsplit]
      simp only [List.flatMap_append, List.flatMap_cons, List.append_assoc]
      refine (List.Sublist.append (.refl _)
        ((record_outcome_shown job outcome).append (.refl _))).subperm.trans (List.Perm.subperm ?_)
      rw [List.append_assoc]
      exact (List.perm_append_comm.append_left _).append_left _

theorem apply_shown_of_not_adds {outcome : PendingOutcome} (hadds : outcome.adds_sample catalog = false) :
    (outcome.apply catalog).shown = catalog.shown := by
  unfold PendingOutcome.apply
  split
  · rfl
  · rename_i job hjob
    split
    · rfl
    · rename_i hgeneration
      rw [not_not] at hgeneration
      rw [PendingOutcome.adds_sample, hjob, Option.any_some, decide_eq_true hgeneration, Bool.and_true,
        decide_eq_false_iff_not, not_not] at hadds
      obtain ⟨before, after, hsplit, -, -, hreplace⟩ := KeyedList.find_split hjob
      rw [ScheduleCatalog.shown, ScheduleCatalog.shown, hreplace, hsplit, ScheduledJob.record_outcome, if_pos hadds,
        List.flatMap_append, List.flatMap_append]
      rfl

/-- Feedback keeps the runs of a history and shows on the sample of its own
run. -/
theorem record_feedback_job_shown (job : ScheduledJob F) (hconfirmed : record.has_confirmed_feedback = true)
    (hcount : (job.shown.map Prod.fst).count (some record.run_id) ≤ 1) :
    (job.record_feedback drift record).1.shown = job.shown.map (show_feedback record) := by
  have hunique : (job.run_history.map ScheduledRunSample.run_id).count (some record.run_id) ≤ 1 := by
    rw [ScheduledJob.shown, List.map_map] at hcount
    exact hcount
  have hrevise : ∀ sample : ScheduledRunSample F, sample.shown = (some record.run_id, confirmed_feedback record) →
      (KeyedList.replace ScheduledRunSample.run_id (some record.run_id) sample job.run_history).map
        ScheduledRunSample.shown = job.shown.map (show_feedback record) := by
    intro sample hshown
    rw [KeyedList.replace_eq_map hunique, ScheduledJob.shown, List.map_map, List.map_map]
    refine List.map_congr_left fun e _ => ?_
    simp only [Function.comp_apply, show_feedback]
    change ScheduledRunSample.shown (if e.run_id = some record.run_id then sample else e) =
      if e.run_id = some record.run_id then (e.run_id, confirmed_feedback record) else e.shown
    split
    · rename_i hid
      rw [hshown, hid]
    · rfl
  have hview : confirmed_feedback record = ⟨true, some record.measurements.blue_team_detected,
      if record.measurements.blue_team_detected then record.measurements.mttd_ms else 0⟩ := if_pos hconfirmed
  unfold ScheduledJob.record_feedback
  split
  · rename_i hnone
    rw [KeyedList.find_eq_none] at hnone
    symm
    rw [ScheduledJob.shown, List.map_map]
    refine List.map_congr_left fun e he => ?_
    exact if_neg (hnone e he)
  · rename_i sample hsample
    have hid := (KeyedList.find_some hsample).2
    dsimp only
    generalize (if record.measurements.blue_team_detected then record.measurements.mttd_ms else 0) = mttd at hview ⊢
    split
    · rename_i hsame
      obtain ⟨hreceived, hmttd, hdetected⟩ := hsame
      have hself := hrevise sample (by
        rw [ScheduledRunSample.shown, hview, hid, hreceived, hmttd, hdetected])
      rw [KeyedList.replace_find_self hsample] at hself
      exact hself
    · split
      · exact hrevise _ (by rw [ScheduledRunSample.shown, hview, hid])
      · exact hrevise _ (by rw [ScheduledRunSample.shown, hview, hid])

theorem record_feedback_jobs_jobs (jobs : List (ScheduledJob F)) (alerts : List (DriftAlert F)) (alert_seq : Nat) :
    (record_feedback_jobs drift record jobs alerts alert_seq).jobs =
      jobs.map fun job => (job.record_feedback drift record).1 := by
  induction jobs generalizing alerts alert_seq with
  | nil => rfl
  | cons job jobs ih =>
    unfold record_feedback_jobs
    rw [List.map_cons]
    split
    · rename_i revised hjob
      rw [hjob, ← ih]
    · rename_i revised alert hjob
      rw [hjob, ← ih]

theorem record_feedback_jobs_shown (hconfirmed : record.has_confirmed_feedback = true)
    {jobs : List (ScheduledJob F)}
    (hcount : ((jobs.flatMap ScheduledJob.shown).map Prod.fst).count (some record.run_id) ≤ 1) :
    (jobs.map fun job => (job.record_feedback drift record).1).flatMap ScheduledJob.shown =
      (jobs.flatMap ScheduledJob.shown).map (show_feedback record) := by
  induction jobs with
  | nil => rfl
  | cons job jobs ih =>
    rw [List.flatMap_cons, List.map_append, List.count_append] at hcount
    rw [List.map_cons, List.flatMap_cons, List.flatMap_cons, List.map_append,
      record_feedback_job_shown job hconfirmed (by omega), ih (by omega)]

/-- The feedback of a record shows on the sample of its run, if the record has
ended with confirmed feedback. -/
theorem record_feedback_shown (hcount : (catalog.shown.map Prod.fst).count (some record.run_id) ≤ 1) :
    (catalog.record_feedback drift record).shown =
      if record.is_terminal && record.has_confirmed_feedback then catalog.shown.map (show_feedback record)
      else catalog.shown := by
  unfold ScheduleCatalog.record_feedback
  cases hterminal : record.is_terminal with
  | false => rfl
  | true => cases hconfirmed : record.has_confirmed_feedback with
    | false => rfl
    | true =>
      change ScheduleCatalog.shown (record_feedback_jobs drift record catalog.jobs catalog.alerts catalog.alert_seq) = _
      rw [ScheduleCatalog.shown, record_feedback_jobs_jobs, record_feedback_jobs_shown hconfirmed hcount]
      rfl

/-- Feedback keeps the runs of all samples. -/
theorem map_show_feedback (entries : List (Option String × ShownFeedback)) :
    (entries.map (show_feedback record)).map Prod.fst = entries.map Prod.fst := by
  rw [List.map_map]
  refine List.map_congr_left fun e _ => ?_
  rw [Function.comp_apply, show_feedback]
  split <;> rfl

end

end asmodeus.control_plane
