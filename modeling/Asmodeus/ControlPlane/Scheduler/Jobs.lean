import Asmodeus.ControlPlane.Scheduler.Revision

open asmodeus.common asmodeus.telemetry

namespace asmodeus.control_plane

variable {F : Type}

/-- Every job after a change of the catalog is one from before, rewritten under
its id. Jobs may be dropped. -/
structure ScheduleCatalog.Rewrites (R : ScheduledJob F → ScheduledJob F → Prop)
    (before after : ScheduleCatalog F) : Prop where
  unique : KeyedList.Unique ScheduledJob.id before.jobs → KeyedList.Unique ScheduledJob.id after.jobs
  jobs : ∀ job ∈ after.jobs, ∃ old ∈ before.jobs, R old job

theorem ScheduleCatalog.seeded_unique : KeyedList.Unique ScheduledJob.id
    (ScheduleCatalog.seeded : ScheduleCatalog F).jobs := by
  change ["SCHED-BASE-RANSOMWARE", "SCHED-BASE-C2-BEACON"].Nodup
  decide

section

variable {R : ScheduledJob F → ScheduledJob F → Prop} {catalog next : ScheduleCatalog F}

theorem ScheduleCatalog.Rewrites.refl (hrefl : ∀ job, R job job) (catalog : ScheduleCatalog F) :
    catalog.Rewrites R catalog :=
  ⟨id, fun job hjob => ⟨job, hjob, hrefl job⟩⟩

/-- One job is rewritten. -/
theorem ScheduleCatalog.Rewrites.of_replace (hrefl : ∀ job, R job job) {id : String} {old new : ScheduledJob F}
    (hold : catalog.get id = some old) (hid : new.id = old.id) (hnew : R old new) :
    catalog.Rewrites R { catalog with jobs := KeyedList.replace ScheduledJob.id id new catalog.jobs } := by
  obtain ⟨hmem, hkey⟩ := KeyedList.find_some hold
  obtain ⟨before, after, hsplit, -, -, hreplace⟩ := KeyedList.find_split hold
  refine ⟨fun hunique => hunique.replace (hid.trans hkey), fun job hjob => ?_⟩
  change job ∈ KeyedList.replace ScheduledJob.id id new catalog.jobs at hjob
  rw [hreplace] at hjob
  rcases List.mem_append.mp hjob with hbefore | hrest
  · exact ⟨job, hsplit ▸ List.mem_append_left _ hbefore, hrefl job⟩
  · rcases List.mem_cons.mp hrest with rfl | hafter
    · exact ⟨old, hmem, hnew⟩
    · exact ⟨job, hsplit ▸ List.mem_append_right _ (List.mem_cons_of_mem old hafter), hrefl job⟩

/-- Every job is rewritten. -/
theorem ScheduleCatalog.Rewrites.of_map {f : ScheduledJob F → ScheduledJob F} (hjobs : next.jobs = catalog.jobs.map f)
    (hid : ∀ job, (f job).id = job.id) (hf : ∀ job, R job (f job)) : catalog.Rewrites R next := by
  refine ⟨fun hunique => hjobs ▸ hunique.map_entries hid, fun job hjob => ?_⟩
  rw [hjobs] at hjob
  obtain ⟨old, hold, rfl⟩ := List.mem_map.mp hjob
  exact ⟨old, hold, hf old⟩

theorem ScheduleCatalog.Rewrites.trans {S T : ScheduledJob F → ScheduledJob F → Prop} {last : ScheduleCatalog F}
    (hfirst : catalog.Rewrites R next) (hsecond : next.Rewrites S last) (hboth : ∀ a b c, R a b → S b c → T a c) :
    catalog.Rewrites T last := by
  refine ⟨fun hunique => hsecond.unique (hfirst.unique hunique), fun job hjob => ?_⟩
  obtain ⟨middle, hmiddle, hlast⟩ := hsecond.jobs job hjob
  obtain ⟨old, hold, hbefore⟩ := hfirst.jobs middle hmiddle
  exact ⟨old, hold, hboth old middle job hbefore hlast⟩

theorem ScheduleCatalog.deregister_rewrites (hrefl : ∀ job, R job job) (catalog : ScheduleCatalog F) (id : String) :
    catalog.Rewrites R (catalog.deregister id) :=
  ⟨fun hunique => hunique.filter _, fun job hjob => ⟨job, List.mem_of_mem_filter hjob, hrefl job⟩⟩

theorem ScheduleCatalog.set_enabled_rewrites (hrefl : ∀ job, R job job)
    (htoggle : ∀ (job : ScheduledJob F) (enabled : Bool), R job { job with enabled := enabled })
    (catalog : ScheduleCatalog F) (id : String) (enabled : Bool) :
    catalog.Rewrites R (catalog.set_enabled id enabled) := by
  unfold ScheduleCatalog.set_enabled
  split
  · rename_i job hjob
    exact .of_replace hrefl hjob rfl (htoggle job enabled)
  · exact .refl hrefl catalog

theorem ScheduleCatalog.recover_interrupted_rewrites (hrefl : ∀ job, R job job)
    (hrecover : ∀ job : ScheduledJob F, R job { job with last_status := some "INTERRUPTED" })
    (catalog : ScheduleCatalog F) : catalog.Rewrites R catalog.recover_interrupted := by
  refine .of_map rfl (fun job => ?_) fun job => ?_
  · split <;> rfl
  · split
    · exact hrecover job
    · exact hrefl job

theorem ScheduleCatalog.claim_due_rewrites (hrefl : ∀ job, R job job) {now : UInt64} {now_utc : String}
    (hclaim : ∀ job : ScheduledJob F, job.is_due now = true → R job (job.claim now now_utc))
    (catalog : ScheduleCatalog F) :
    catalog.Rewrites R (catalog.claim_due now now_utc).2 := by
  refine .of_map rfl (fun job => ?_) fun job => ?_
  · split <;> rfl
  · split
    · rename_i hdue
      exact hclaim job hdue
    · exact hrefl job

theorem ScheduleCatalog.record_feedback_rewrites (hrefl : ∀ job, R job job) {drift : DriftArithmetic F}
    {record : AuditRecord} (hfeedback : ∀ job : ScheduledJob F, R job (job.record_feedback drift record).1)
    (catalog : ScheduleCatalog F) : catalog.Rewrites R (catalog.record_feedback drift record) := by
  unfold ScheduleCatalog.record_feedback
  split
  · exact .refl hrefl catalog
  · exact .of_map (record_feedback_jobs_jobs _ _ _) (fun job => (job.record_feedback_confined drift record).id)
      hfeedback

theorem PendingOutcome.apply_rewrites (hrefl : ∀ job, R job job) {outcome : PendingOutcome}
    (hrecord : ∀ job : ScheduledJob F, job.id = outcome.job_id → job.generation = outcome.generation →
      R job (job.record_outcome outcome)) (catalog : ScheduleCatalog F) :
    catalog.Rewrites R (outcome.apply catalog) := by
  unfold PendingOutcome.apply
  split
  · exact .refl hrefl catalog
  · rename_i current hcurrent
    split
    · exact .refl hrefl catalog
    · rename_i hgeneration
      refine .of_replace hrefl hcurrent ?_ (hrecord current (KeyedList.find_some hcurrent).2 (not_not.mp hgeneration))
      unfold ScheduledJob.record_outcome
      split <;> rfl

/-- An outcome of another generation, or of a deleted job, is dropped. -/
theorem PendingOutcome.apply_of_gone {outcome : PendingOutcome}
    (hgone : ∀ job ∈ catalog.jobs, ¬(job.id = outcome.job_id ∧ job.generation = outcome.generation)) :
    outcome.apply catalog = catalog := by
  unfold PendingOutcome.apply
  split
  · rfl
  · rename_i current hcurrent
    obtain ⟨hmem, hid⟩ := KeyedList.find_some hcurrent
    exact if_pos fun hgeneration => hgone current hmem ⟨hid, hgeneration⟩

/-- An outcome is recorded by the job of its id and generation. -/
theorem PendingOutcome.apply_jobs (outcome : PendingOutcome)
    (hunique : KeyedList.Unique ScheduledJob.id catalog.jobs) :
    (outcome.apply catalog).jobs = catalog.jobs.map fun job =>
      if job.id = outcome.job_id ∧ job.generation = outcome.generation then job.record_outcome outcome else job := by
  by_cases hgone : ∀ job ∈ catalog.jobs, ¬(job.id = outcome.job_id ∧ job.generation = outcome.generation)
  · rw [apply_of_gone hgone]
    refine ((List.map_congr_left fun job hjob => ?_).trans (List.map_id _)).symm
    exact if_neg (hgone job hjob)
  · push Not at hgone
    obtain ⟨current, hcurrent, hid, hgeneration⟩ := hgone
    have hget : catalog.get outcome.job_id = some current := hid ▸ hunique.find_of_mem hcurrent
    unfold PendingOutcome.apply
    rw [hget]
    dsimp only
    rw [if_neg (not_not.mpr hgeneration)]
    dsimp only
    rw [KeyedList.replace_eq_map (List.nodup_iff_count_le_one.mp hunique _)]
    refine List.map_congr_left fun job hjob => ?_
    by_cases hsame : job.id = outcome.job_id
    · obtain rfl := List.inj_on_of_nodup_map hunique hjob hcurrent (hsame.trans hid.symm)
      rw [if_pos hsame, if_pos ⟨hsame, hgeneration⟩]
    · rw [if_neg hsame, if_neg fun h => hsame h.1]

/-- A creation finds the id taken, or adds a job that has never run. -/
theorem CatalogEdit.create_cases (generation id name scenario_id : String) (interval_sec : UInt64) (role : Role)
    (target_override : Option String) (baseline_mttd_ms : Option UInt64) (enabled : Bool) (created_at_utc : String)
    (catalog : ScheduleCatalog F) :
    CatalogEdit.apply (.create generation id name scenario_id interval_sec role target_override baseline_mttd_ms enabled
        created_at_utc) catalog = catalog ∨
      ∃ job : ScheduledJob F, job.generation = generation ∧ job.run_history = [] ∧ catalog.get job.id = none ∧
        CatalogEdit.apply (.create generation id name scenario_id interval_sec role target_override baseline_mttd_ms
          enabled created_at_utc) catalog = { catalog with jobs := catalog.jobs ++ [job] } := by
  simp only [CatalogEdit.apply]
  split
  · exact Or.inl rfl
  · rename_i htaken
    have hnone : KeyedList.find ScheduledJob.id id catalog.jobs = none := Option.not_isSome_iff_eq_none.mp htaken
    refine Or.inr ⟨.create generation id name scenario_id interval_sec role target_override baseline_mttd_ms enabled
      created_at_utc, rfl, rfl, hnone, ?_⟩
    rw [ScheduleCatalog.register, KeyedList.upsert_of_find_none hnone]

/-- The jobs a claim returns are the due ones, each as it is from now on. -/
theorem ScheduleCatalog.mem_claim_due {now : UInt64} {now_utc : String} {job : ScheduledJob F} :
    job ∈ (catalog.claim_due now now_utc).1 ↔
      ∃ old ∈ catalog.jobs, old.is_due now = true ∧ job = old.claim now now_utc := by
  rw [ScheduleCatalog.claim_due, List.mem_insertionSort, List.mem_map]
  simp only [List.mem_filter, and_assoc, eq_comm]

end

end asmodeus.control_plane
