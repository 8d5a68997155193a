import Asmodeus.ControlPlane.Scheduler.Jobs
import Asmodeus.Lib.Transition

open asmodeus.common asmodeus.telemetry

namespace asmodeus.control_plane

variable {F : Type}

/-- A job as it was claimed: when, and what its status had been. `resolved` tells
whether an outcome or a restart has ended the claim since. -/
structure ScheduleClaim where
  job_id : String
  generation : String
  interval_sec : UInt64
  claimed_at : UInt64
  status : Option String
  resolved : Bool

/-- The schedule catalog with every claim made on it, oldest first, and the
generations given out. -/
structure ClaimHistory (F : Type) where
  schedules : Persistent (ScheduleCatalog F)
  issued : List String
  claims : List ScheduleClaim

/-- A catalog nothing has been claimed of. -/
def ClaimHistory.start (schedules : Persistent (ScheduleCatalog F)) : ClaimHistory F where
  schedules := schedules
  issued := schedules.value.jobs.map ScheduledJob.generation
  claims := []

def ScheduleClaim.resolve (resolves : ScheduleClaim → Bool) (claim : ScheduleClaim) : ScheduleClaim :=
  { claim with resolved := claim.resolved || resolves claim }

/-- A transaction on the catalog, and the claims it ends if it commits. -/
def ClaimHistory.transact (self : ClaimHistory F) (disk : Disk) (resolves : ScheduleClaim → Bool)
    (transaction : ScheduleCatalog F → ScheduleCatalog F) : ClaimHistory F :=
  match self.schedules.update disk fun catalog => .ok ((), transaction catalog) with
  | (.error _, schedules) => { self with schedules := schedules }
  | (.ok (), schedules) => { self with
      schedules := schedules
      claims := self.claims.map (ScheduleClaim.resolve resolves) }

def ClaimHistory.claim (self : ClaimHistory F) (now : UInt64) (now_utc : String) (disk : Disk) : ClaimHistory F :=
  match self.schedules.update disk fun catalog => .ok (catalog.claim_due now now_utc) with
  | (.error _, schedules) => { self with schedules := schedules }
  | (.ok due, schedules) => { self with
      schedules := schedules
      claims := self.claims ++ due.map fun job =>
        ⟨job.id, job.generation, job.interval_sec, now, (self.schedules.value.get job.id).bind ScheduledJob.last_status,
          false⟩ }

/-- The claims an edit ends: all of them, if it recovers from an interruption. -/
def CatalogEdit.resolves (self : CatalogEdit) (_ : ScheduleClaim) : Bool :=
  match self with
  | .recover_interrupted => true
  | _ => false

/-- A generation is never given out twice. -/
def ClaimHistory.edit (self : ClaimHistory F) (edit : CatalogEdit) (disk : Disk) : Option (ClaimHistory F) :=
  match edit with
  | .create generation .. =>
    if generation ∈ self.issued then none
    else some { self.transact disk edit.resolves edit.apply with issued := generation :: self.issued }
  | _ => some (self.transact disk edit.resolves edit.apply)

/-- The claims an outcome ends: those of its own job and generation. -/
def PendingOutcome.resolves (self : PendingOutcome) (claim : ScheduleClaim) : Bool :=
  decide (claim.job_id = self.job_id ∧ claim.generation = self.generation)

inductive ClaimLabel
  | claim (now : UInt64) (now_utc : String) (disk : Disk)
  | outcome (outcome : PendingOutcome) (disk : Disk)
  | feedback (record : AuditRecord) (disk : Disk)
  | edit (edit : CatalogEdit) (disk : Disk)
  | restart (disk : Disk)

/-- A catalog without a snapshot ends with its process, so that there is nothing
to restart. -/
def ClaimHistory.step (drift : DriftArithmetic F) (self : ClaimHistory F) (label : ClaimLabel) :
    Option (ClaimHistory F) :=
  match label with
  | .claim now now_utc disk => some (self.claim now now_utc disk)
  | .outcome outcome disk => some (self.transact disk outcome.resolves outcome.apply)
  | .feedback record disk => some (self.transact disk (fun _ => false) (ScheduleCatalog.record_feedback drift · record))
  | .edit edit disk => self.edit edit disk
  | .restart disk =>
    if self.schedules.path then
      { self with schedules := self.schedules.reload .seeded }.edit .recover_interrupted disk
    else none

/-- The claim is one of the job. -/
def ScheduleClaim.Of (claim : ScheduleClaim) (job : ScheduledJob F) : Prop :=
  claim.job_id = job.id ∧ claim.generation = job.generation

/-- A job that is claimed again has waited for its interval, and its earlier
claim has ended. -/
structure ScheduleClaim.Spaced (earlier later : ScheduleClaim) : Prop where
  interval : min (earlier.claimed_at.toNat + earlier.interval_sec.toNat) (2 ^ 64 - 1) ≤ later.claimed_at.toNat
  resolved : earlier.resolved = true
  status : later.status ≠ some "RUNNING"

/-- Every two claims of one generation of a job are spaced. -/
def ClaimHistory.Spaced (self : ClaimHistory F) : Prop :=
  self.claims.Pairwise fun earlier later =>
    earlier.job_id = later.job_id → earlier.generation = later.generation → earlier.Spaced later

/-- A transaction keeps what gates the next claim of a job. -/
structure ScheduledJob.SameSchedule (before after : ScheduledJob F) : Prop where
  id : after.id = before.id
  generation : after.generation = before.generation
  interval_sec : after.interval_sec = before.interval_sec
  last_run_epoch_secs : after.last_run_epoch_secs = before.last_run_epoch_secs

theorem ScheduledJob.SameSchedule.refl (job : ScheduledJob F) : job.SameSchedule job := ⟨rfl, rfl, rfl, rfl⟩

/-- A transaction that is no claim changes the status of a job only with the
claims it ends. -/
def SameGates (resolves : ScheduleClaim → Bool) (before after : ScheduledJob F) : Prop :=
  before.SameSchedule after ∧
    ∀ claim : ScheduleClaim, claim.Of before → resolves claim = false → after.last_status = before.last_status

theorem SameGates.refl (resolves : ScheduleClaim → Bool) (job : ScheduledJob F) : SameGates resolves job job :=
  ⟨.refl job, fun _ _ _ => rfl⟩

section

variable {catalog : ScheduleCatalog F}

theorem PendingOutcome.apply_same_gates (outcome : PendingOutcome) (catalog : ScheduleCatalog F) :
    catalog.Rewrites (SameGates outcome.resolves) (outcome.apply catalog) := by
  refine outcome.apply_rewrites (.refl _) (fun job hid hgeneration => ⟨?_, ?_⟩) catalog
  · unfold ScheduledJob.record_outcome
    split <;> exact ⟨rfl, rfl, rfl, rfl⟩
  · -- a claim of this very job is one the outcome ends
    rintro claim ⟨hjob, hsame⟩ hkept
    rw [PendingOutcome.resolves, decide_eq_false_iff_not] at hkept
    exact absurd ⟨hjob.trans hid, hsame.trans hgeneration⟩ hkept

theorem ScheduledJob.record_feedback_same_gates (drift : DriftArithmetic F) (record : AuditRecord)
    (job : ScheduledJob F) : SameGates (fun _ => false) job (job.record_feedback drift record).1 := by
  obtain hsame | ⟨sample, -, hrevised⟩ := job.record_feedback_cases drift record
  · rw [hsame]
    exact .refl _ job
  · rw [hrevised.frame]
    exact ⟨⟨rfl, rfl, rfl, rfl⟩, fun _ _ _ => rfl⟩

theorem ScheduledJob.is_due_iff {job : ScheduledJob F} {now : UInt64} :
    job.is_due now = true ↔ job.enabled = true ∧ job.last_status ≠ some "RUNNING" ∧
      ∀ last, job.last_run_epoch_secs = some last →
        min (last.toNat + job.interval_sec.toNat) (2 ^ 64 - 1) ≤ now.toNat := by
  rw [ScheduledJob.is_due, Bool.and_eq_true, Bool.and_eq_true, decide_eq_true_iff, and_assoc, Option.all_eq_true]
  simp only [elapsed, decide_eq_true_iff]

end

/-- What one step can do. -/
inductive ClaimHistory.Moves (s : ClaimHistory F) : ClaimHistory F → Prop
  | transact {resolves : ScheduleClaim → Bool} {catalog : ScheduleCatalog F} {issued : List String}
      (htransaction : s.schedules.value.Rewrites (SameGates resolves) catalog) (hissued : s.issued ⊆ issued) :
      Moves s ⟨{ s.schedules with value := catalog }, issued, s.claims.map (ScheduleClaim.resolve resolves)⟩
  | create (job : ScheduledJob F) (hfresh : job.generation ∉ s.issued) (hnone : s.schedules.value.get job.id = none) :
      Moves s ⟨{ s.schedules with value := { s.schedules.value with jobs := s.schedules.value.jobs ++ [job] } },
        job.generation :: s.issued, s.claims⟩
  | claim (now : UInt64) (now_utc : String) :
      Moves s ⟨{ s.schedules with value := (s.schedules.value.claim_due now now_utc).2 }, s.issued,
        s.claims ++ (s.schedules.value.claim_due now now_utc).1.map fun job =>
          ⟨job.id, job.generation, job.interval_sec, now, (s.schedules.value.get job.id).bind ScheduledJob.last_status,
            false⟩⟩

section

variable {drift : DriftArithmetic F} {s next : ClaimHistory F}

/-- A transaction that ends no claim. -/
theorem ScheduleClaim.map_resolve_none (claims : List ScheduleClaim) :
    claims.map (ScheduleClaim.resolve fun _ => false) = claims := by
  rw [List.map_congr_left (g := id) fun claim _ => ?_, List.map_id]
  rw [ScheduleClaim.resolve, Bool.or_false]
  rfl

theorem ClaimHistory.Moves.unsaved {issued : List String} (hissued : s.issued ⊆ issued) :
    s.Moves { s with issued := issued } := by
  have hmoves : s.Moves ⟨_, issued, s.claims.map (ScheduleClaim.resolve fun _ => false)⟩ :=
    .transact (.refl (.refl _) s.schedules.value) hissued
  rw [ScheduleClaim.map_resolve_none] at hmoves
  exact hmoves

theorem ClaimHistory.transact_moves {disk : Disk} {resolves : ScheduleClaim → Bool}
    {transaction : ScheduleCatalog F → ScheduleCatalog F}
    (htransaction : s.schedules.value.Rewrites (SameGates resolves) (transaction s.schedules.value)) :
    s.Moves (s.transact disk resolves transaction) := by
  unfold ClaimHistory.transact
  cases hupdate : s.schedules.update disk fun catalog => .ok ((), transaction catalog) with
  | mk result schedules =>
    obtain ⟨e, rfl, rfl⟩ | ⟨rfl, rfl, -⟩ := Persistent.update_ok_cases hupdate
    · exact .unsaved (List.Subset.refl _)
    · exact .transact htransaction (List.Subset.refl _)

theorem ClaimHistory.edit_moves {edit : CatalogEdit} {disk : Disk} (h : s.edit edit disk = some next) :
    s.Moves next := by
  cases edit with
  | create generation id name scenario_id interval_sec role target_override baseline_mttd_ms enabled created_at_utc =>
    unfold ClaimHistory.edit at h
    dsimp only at h
    split at h
    · cases h
    · rename_i hfresh
      obtain rfl := Option.some.inj h
      unfold ClaimHistory.transact
      cases hupdate : s.schedules.update disk fun catalog => .ok ((), CatalogEdit.apply (.create generation id name
        scenario_id interval_sec role target_override baseline_mttd_ms enabled created_at_utc) catalog) with
      | mk result schedules =>
        obtain ⟨e, rfl, rfl⟩ | ⟨rfl, rfl, -⟩ := Persistent.update_ok_cases hupdate
        · exact .unsaved (List.subset_cons_self _ _)
        · change s.Moves ⟨_, _, s.claims.map (ScheduleClaim.resolve fun _ => false)⟩
          rw [ScheduleClaim.map_resolve_none]
          obtain hsame | ⟨job, rfl, -, hnone, hcreated⟩ := CatalogEdit.create_cases generation id name scenario_id
            interval_sec role target_override baseline_mttd_ms enabled created_at_utc s.schedules.value
          · rw [hsame]
            exact .unsaved (List.subset_cons_self _ _)
          · rw [hcreated]
            exact .create job hfresh hnone
  | delete id =>
    obtain rfl := Option.some.inj h
    exact transact_moves (ScheduleCatalog.deregister_rewrites (.refl _) _ id)
  | toggle id enabled =>
    obtain rfl := Option.some.inj h
    exact transact_moves (ScheduleCatalog.set_enabled_rewrites (.refl _)
      (fun _ _ => ⟨⟨rfl, rfl, rfl, rfl⟩, fun _ _ _ => rfl⟩) _ id enabled)
  | recover_interrupted =>
    obtain rfl := Option.some.inj h
    exact transact_moves (ScheduleCatalog.recover_interrupted_rewrites (.refl _)
      (fun _ => ⟨⟨rfl, rfl, rfl, rfl⟩, fun _ _ h => by cases h⟩) _)

theorem ClaimHistory.claim_moves {now : UInt64} {now_utc : String} {disk : Disk} :
    s.Moves (s.claim now now_utc disk) := by
  unfold ClaimHistory.claim
  cases hupdate : s.schedules.update disk fun catalog => .ok (catalog.claim_due now now_utc) with
  | mk result schedules =>
    obtain ⟨e, rfl, rfl⟩ | ⟨rfl, rfl, -⟩ := Persistent.update_ok_cases hupdate
    · exact .unsaved (List.Subset.refl _)
    · exact .claim now now_utc

theorem ClaimHistory.step_moves {label : ClaimLabel} (h : s.step drift label = some next) : s.Moves next := by
  unfold ClaimHistory.step at h
  split at h
  · exact Option.some.inj h ▸ claim_moves
  · rename_i outcome disk
    exact Option.some.inj h ▸ transact_moves (outcome.apply_same_gates _)
  · rename_i record disk
    exact Option.some.inj h ▸ transact_moves
      (ScheduleCatalog.record_feedback_rewrites (.refl _) (fun job => job.record_feedback_same_gates drift record) _)
  · exact edit_moves h
  · split at h
    · rename_i hpath
      rw [Persistent.reload, if_pos hpath] at h
      exact edit_moves h
    · cases h

end

/-- What a claim leaves behind on its job: the clock stands at this claim or a
later one, and until the claim is resolved the job is running. -/
structure ScheduleClaim.Gates (claim : ScheduleClaim) (job : ScheduledJob F) : Prop where
  interval : job.interval_sec = claim.interval_sec
  since : ∃ last, job.last_run_epoch_secs = some last ∧ claim.claimed_at.toNat ≤ last.toNat
  running : claim.resolved = false → job.last_status = some "RUNNING"

structure ClaimHistory.Lawful (s : ClaimHistory F) : Prop where
  unique : KeyedList.Unique ScheduledJob.id s.schedules.value.jobs
  generations : ∀ job ∈ s.schedules.value.jobs, job.generation ∈ s.issued
  claimed : ∀ claim ∈ s.claims, claim.generation ∈ s.issued
  gates : ∀ claim ∈ s.claims, ∀ job ∈ s.schedules.value.jobs, claim.Of job → claim.Gates job
  spaced : s.Spaced

/-- The job is not in the catalog, and its generation was given out. -/
structure ClaimHistory.Gone (s : ClaimHistory F) (job_id generation : String) : Prop where
  issued : generation ∈ s.issued
  absent : ∀ job ∈ s.schedules.value.jobs, ¬(job.id = job_id ∧ job.generation = generation)

section

variable {drift : DriftArithmetic F} {s next : ClaimHistory F} {catalog : ScheduleCatalog F} {claim : ScheduleClaim}

theorem ScheduleClaim.Gates.of_same {old new : ScheduledJob F} {resolves : ScheduleClaim → Bool}
    (hgates : claim.Gates old) (hsame : old.SameSchedule new)
    (hstatus : resolves claim = false → new.last_status = old.last_status) : (claim.resolve resolves).Gates new where
  interval := hsame.interval_sec.trans hgates.interval
  since := hsame.last_run_epoch_secs ▸ hgates.since
  running := by
    intro hopen
    obtain ⟨hbefore, hkept⟩ := Bool.or_eq_false_iff.mp hopen
    exact (hstatus hkept).trans (hgates.running hbefore)

/-- A due job has waited since its claims, and all of them have ended. -/
theorem ScheduleClaim.Gates.of_due {job : ScheduledJob F} {now : UInt64} (hgates : claim.Gates job)
    (hdue : job.is_due now = true) :
    min (claim.claimed_at.toNat + claim.interval_sec.toNat) (2 ^ 64 - 1) ≤ now.toNat ∧
      claim.claimed_at.toNat ≤ now.toNat ∧ claim.resolved = true := by
  obtain ⟨-, hstatus, helapsed⟩ := ScheduledJob.is_due_iff.mp hdue
  obtain ⟨last, hlast, hsince⟩ := hgates.since
  have hwaited := helapsed last hlast
  rw [hgates.interval] at hwaited
  have hbound := last.toNat_lt
  refine ⟨by omega, by omega, ?_⟩
  by_contra hopen
  exact hstatus (hgates.running (Bool.not_eq_true _ ▸ hopen))

theorem ClaimHistory.Lawful.transact {resolves : ScheduleClaim → Bool} {issued : List String} (hlawful : s.Lawful)
    (htransaction : s.schedules.value.Rewrites (SameGates resolves) catalog) (hissued : s.issued ⊆ issued) :
    ClaimHistory.Lawful ⟨{ s.schedules with value := catalog }, issued, s.claims.map
      (ScheduleClaim.resolve resolves)⟩ := by
  refine ⟨htransaction.unique hlawful.unique, fun job hjob => ?_, fun claim hclaim => ?_,
    fun claim hclaim job hjob hof => ?_, ?_⟩
  · obtain ⟨old, hold, hsame, -⟩ := htransaction.jobs job hjob
    exact hsame.generation ▸ hissued (hlawful.generations old hold)
  · obtain ⟨before, hbefore, rfl⟩ := List.mem_map.mp hclaim
    exact hissued (hlawful.claimed before hbefore)
  · obtain ⟨before, hbefore, rfl⟩ := List.mem_map.mp hclaim
    obtain ⟨old, hold, hsame, hstatus⟩ := htransaction.jobs job hjob
    have hofold : before.Of old := ⟨hof.1.trans hsame.id, hof.2.trans hsame.generation⟩
    exact (hlawful.gates before hbefore old hold hofold).of_same hsame (hstatus before hofold)
  · refine List.pairwise_map.mpr (hlawful.spaced.imp ?_)
    intro earlier later hspaced hid hgeneration
    obtain ⟨hinterval, hresolved, hstatus⟩ := hspaced hid hgeneration
    exact ⟨hinterval, Bool.or_eq_true_iff.mpr (Or.inl hresolved), hstatus⟩

theorem ClaimHistory.Lawful.create {job : ScheduledJob F} (hlawful : s.Lawful) (hfresh : job.generation ∉ s.issued)
    (hnone : s.schedules.value.get job.id = none) :
    ClaimHistory.Lawful ⟨{ s.schedules with value :=
      { s.schedules.value with jobs := s.schedules.value.jobs ++ [job] } },
      job.generation :: s.issued, s.claims⟩ := by
  have hmem : ∀ other ∈ s.schedules.value.jobs ++ [job], other ∈ s.schedules.value.jobs ∨ other = job := fun other h =>
    (List.mem_append.mp h).imp_right List.mem_singleton.mp
  refine ⟨hlawful.unique.append hnone, fun other hother => ?_, fun claim hclaim => ?_,
    fun claim hclaim other hother hof => ?_, hlawful.spaced⟩
  · rcases hmem other hother with hold | rfl
    · exact List.mem_cons_of_mem _ (hlawful.generations other hold)
    · exact List.mem_cons_self
  · exact List.mem_cons_of_mem _ (hlawful.claimed claim hclaim)
  · rcases hmem other hother with hold | rfl
    · exact hlawful.gates claim hclaim other hold hof
    · exact absurd (hof.2 ▸ hlawful.claimed claim hclaim) hfresh

/-- Each new claim is of a job that was due. -/
theorem ClaimHistory.Lawful.new_claim (hlawful : s.Lawful) {now : UInt64} {now_utc : String}
    (hclaim : claim ∈ (s.schedules.value.claim_due now now_utc).1.map fun job => ⟨job.id, job.generation,
      job.interval_sec, now, (s.schedules.value.get job.id).bind ScheduledJob.last_status, false⟩) :
    ∃ old ∈ s.schedules.value.jobs, old.is_due now = true ∧
      claim = ⟨old.id, old.generation, old.interval_sec, now, old.last_status, false⟩ := by
  obtain ⟨job, hjob, rfl⟩ := List.mem_map.mp hclaim
  obtain ⟨old, hold, hdue, rfl⟩ := ScheduleCatalog.mem_claim_due.mp hjob
  refine ⟨old, hold, hdue, ?_⟩
  have hget : s.schedules.value.get old.id = some old := hlawful.unique.find_of_mem hold
  change ScheduleClaim.mk old.id old.generation old.interval_sec now
    ((s.schedules.value.get old.id).bind ScheduledJob.last_status) false = _
  rw [hget, Option.bind_some]

theorem ScheduleCatalog.claim_due_ids (catalog : ScheduleCatalog F) (now : UInt64) (now_utc : String)
    (hunique : KeyedList.Unique ScheduledJob.id catalog.jobs) :
    KeyedList.Unique ScheduledJob.id (catalog.claim_due now now_utc).1 := by
  rw [KeyedList.Unique, ScheduleCatalog.claim_due, ((List.perm_insertionSort _ _).map ScheduledJob.id).nodup_iff,
    List.map_map]
  exact hunique.filter fun job => job.is_due now

theorem ClaimHistory.Lawful.claim_due (hlawful : s.Lawful) (now : UInt64) (now_utc : String) :
    ClaimHistory.Lawful ⟨{ s.schedules with value := (s.schedules.value.claim_due now now_utc).2 }, s.issued,
      s.claims ++ (s.schedules.value.claim_due now now_utc).1.map fun job => ⟨job.id, job.generation,
        job.interval_sec, now, (s.schedules.value.get job.id).bind ScheduledJob.last_status, false⟩⟩ := by
  have hjobs : ∀ job ∈ (s.schedules.value.claim_due now now_utc).2.jobs, ∃ old ∈ s.schedules.value.jobs,
      job = if old.is_due now then old.claim now now_utc else old := by
    intro job hjob
    obtain ⟨old, hold, rfl⟩ := List.mem_map.mp hjob
    exact ⟨old, hold, rfl⟩
  have hids : ∀ old : ScheduledJob F, (if old.is_due now then old.claim now now_utc else old).id = old.id ∧
      (if old.is_due now then old.claim now now_utc else old).generation = old.generation := by
    intro old
    split <;> exact ⟨rfl, rfl⟩
  refine ⟨?_, fun job hjob => ?_, fun claim hclaim => ?_, fun claim hclaim job hjob hof => ?_, ?_⟩
  · exact hlawful.unique.map_entries fun old => (hids old).1
  · obtain ⟨old, hold, rfl⟩ := hjobs job hjob
    rw [(hids old).2]
    exact hlawful.generations old hold
  · rcases List.mem_append.mp hclaim with hbefore | hnew
    · exact hlawful.claimed claim hbefore
    · obtain ⟨old, hold, -, rfl⟩ := hlawful.new_claim hnew
      exact hlawful.generations old hold
  · obtain ⟨old, hold, rfl⟩ := hjobs job hjob
    rw [ScheduleClaim.Of, (hids old).1, (hids old).2] at hof
    rcases List.mem_append.mp hclaim with hbefore | hnew
    · have hgates := hlawful.gates claim hbefore old hold hof
      split
      · rename_i hdue
        exact ⟨hgates.interval, ⟨now, rfl, (hgates.of_due hdue).2.1⟩, fun _ => rfl⟩
      · exact hgates
    · obtain ⟨other, hother, hdue, rfl⟩ := hlawful.new_claim hnew
      obtain rfl := List.inj_on_of_nodup_map hlawful.unique hother hold hof.1
      rw [if_pos hdue]
      exact ⟨rfl, ⟨now, rfl, le_refl _⟩, fun _ => rfl⟩
  · refine List.pairwise_append.mpr ⟨hlawful.spaced, List.pairwise_map.mpr ?_, ?_⟩
    · -- one round claims a job at most once
      have hdistinct := List.pairwise_map.mp (s.schedules.value.claim_due_ids now now_utc hlawful.unique)
      exact hdistinct.imp fun hne hid => absurd hid hne
    · intro earlier hearlier later hlater hid hgeneration
      obtain ⟨old, hold, hdue, rfl⟩ := hlawful.new_claim hlater
      obtain ⟨hinterval, -, hresolved⟩ := (hlawful.gates earlier hearlier old hold ⟨hid, hgeneration⟩).of_due hdue
      exact ⟨hinterval, hresolved, (ScheduledJob.is_due_iff.mp hdue).2.1⟩

theorem ClaimHistory.Lawful.moves (hlawful : s.Lawful) (hmoves : s.Moves next) : next.Lawful := by
  cases hmoves with
  | transact htransaction hissued => exact hlawful.transact htransaction hissued
  | create job hfresh hnone => exact hlawful.create hfresh hnone
  | claim now now_utc => exact hlawful.claim_due now now_utc

/-- A generation that is gone does not come back. -/
theorem ClaimHistory.Gone.moves {job_id generation : String} (hgone : s.Gone job_id generation)
    (hmoves : s.Moves next) :
    next.Gone job_id generation := by
  obtain ⟨hissued, habsent⟩ := hgone
  cases hmoves with
  | transact htransaction hkept =>
    refine ⟨hkept hissued, fun job hjob hsame => ?_⟩
    obtain ⟨old, hold, hschedule, -⟩ := htransaction.jobs job hjob
    exact habsent old hold ⟨hschedule.id ▸ hsame.1, hschedule.generation ▸ hsame.2⟩
  | create job hfresh hnone =>
    refine ⟨List.mem_cons_of_mem _ hissued, fun other hother hsame => ?_⟩
    rcases List.mem_append.mp hother with hold | hnew
    · exact habsent other hold hsame
    · obtain rfl := List.mem_singleton.mp hnew
      exact hfresh (hsame.2 ▸ hissued)
  | claim now now_utc =>
    refine ⟨hissued, fun job hjob hsame => ?_⟩
    obtain ⟨old, hold, rfl⟩ := List.mem_map.mp hjob
    refine habsent old hold ?_
    split at hsame <;> exact hsame

end

theorem ClaimHistory.start_lawful {schedules : Persistent (ScheduleCatalog F)}
    (hunique : KeyedList.Unique ScheduledJob.id schedules.value.jobs) : (ClaimHistory.start schedules).Lawful where
  unique := hunique
  generations := fun _ hjob => List.mem_map_of_mem hjob
  claimed := nofun
  gates := nofun
  spaced := .nil

/-- Over any claims at any clock values, outcomes, feedback, edits, failed writes
and restarts, a job is claimed again only after its interval and once its claim
has ended, and an outcome of a job that is gone changes nothing any more. -/
theorem ClaimHistory.claims_spaced (drift : DriftArithmetic F) {schedules : Persistent (ScheduleCatalog F)}
    {first second : List ClaimLabel} {s final : ClaimHistory F}
    (hunique : KeyedList.Unique ScheduledJob.id schedules.value.jobs)
    (hfirst : Transition.run (ClaimHistory.step drift) (.start schedules) first = some s)
    (hsecond : Transition.run (ClaimHistory.step drift) s second = some final) :
    final.Spaced ∧ ∀ outcome : PendingOutcome, s.Gone outcome.job_id outcome.generation →
      outcome.apply final.schedules.value = final.schedules.value := by
  have hlawful : Transition.Preserved (ClaimHistory.step drift) ClaimHistory.Lawful :=
    fun _ _ _ hlawful hstep => hlawful.moves (step_moves hstep)
  refine ⟨(hlawful.run (hlawful.run (start_lawful hunique) hfirst) hsecond).spaced, fun outcome hgone => ?_⟩
  have hstays : Transition.Preserved (ClaimHistory.step drift)
      fun state => state.Gone outcome.job_id outcome.generation := fun _ _ _ hgone hstep =>
        hgone.moves (step_moves hstep)
  exact PendingOutcome.apply_of_gone (hstays.run hgone hsecond).absent

/-- The baseline job fails right after its claim, is due again no sooner than
its interval, and is then replaced. -/
def spaced_labels : List ClaimLabel :=
  [.edit (.toggle "SCHED-BASE-RANSOMWARE" true) (.ok ()), .claim 1000 "2026-09-22T00:00:00Z" (.ok ()),
    .outcome ⟨"SCHED-BASE-RANSOMWARE", "", none, "FAILED", "2026-09-22T00:00:01Z"⟩ (.ok ()),
    .claim 1119 "2026-09-22T00:01:59Z" (.ok ()), .restart (.ok ()), .claim 1120 "2026-09-22T00:02:00Z" (.ok ()),
    .edit (.delete "SCHED-BASE-RANSOMWARE") (.ok ())]

def replaced_labels : List ClaimLabel :=
  [.edit (.create "run_2" "SCHED-BASE-RANSOMWARE" "Replacement" "RANSOMWARE_CANARY_SPIKE" 60 .RedTeam none none true
    "2026-09-22T00:03:00Z") (.ok ())]

theorem claims_spaced_at_interval : ∃ s final : ClaimHistory Nat,
    Transition.run (ClaimHistory.step whole_drift) (.start ⟨.seeded, true⟩) spaced_labels = some s ∧
      Transition.run (ClaimHistory.step whole_drift) s replaced_labels = some final ∧
        final.claims.map ScheduleClaim.claimed_at = [1000, 1120] ∧ final.Spaced ∧
          PendingOutcome.apply ⟨"SCHED-BASE-RANSOMWARE", "", none, "FAILED", "2026-09-22T00:03:01Z"⟩
            final.schedules.value = final.schedules.value := by
  have hfirst : Transition.run (ClaimHistory.step whole_drift) (.start ⟨.seeded, true⟩) spaced_labels = some _ := rfl
  have hboth : Transition.run (ClaimHistory.step whole_drift) (.start ⟨.seeded, true⟩)
    (spaced_labels ++ replaced_labels) = some _ := rfl
  obtain ⟨s, hs, hsecond⟩ := Transition.run_append_eq_some.mp hboth
  obtain rfl := Option.some.inj (hfirst.symm.trans hs)
  obtain ⟨hspaced, hgone⟩ := ClaimHistory.claims_spaced whole_drift ScheduleCatalog.seeded_unique hfirst hsecond
  refine ⟨_, _, hfirst, hsecond, rfl, hspaced, hgone _ ⟨List.mem_cons_self, ?_⟩⟩
  rintro job hjob ⟨hid, -⟩
  obtain rfl := List.mem_singleton.mp hjob
  exact absurd hid (by decide)

end asmodeus.control_plane
