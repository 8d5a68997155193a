import Asmodeus.ControlPlane.Scheduler.History
import Asmodeus.ControlPlane.Scheduler.Jobs

open asmodeus.common asmodeus.telemetry

namespace asmodeus.control_plane

variable {F : Type}

/-- A run started for a claim, by the place of the claim among all claims, and
the job as the catalog had it just before. -/
structure ScheduledStart (F : Type) where
  claim : Nat
  run_id : String
  found : Option (ScheduledJob F)

/-- What the scheduler has done: the jobs of its committed claims, the runs it has
started for them, the claims whose run was refused admission, the outcomes in the
order of their completion, and the job generations given out. -/
structure ScheduleLedger (F : Type) where
  claimed : List (ScheduledJob F)
  started : List (ScheduledStart F)
  refused : List Nat
  outcomes : List PendingOutcome
  generations : List String

/-- The ledger of a scheduler that starts on a catalog. -/
def ScheduleLedger.start (catalog : ScheduleCatalog F) : ScheduleLedger F where
  claimed := []
  started := []
  refused := []
  outcomes := []
  generations := catalog.jobs.map ScheduledJob.generation

/-- The entries of the ledger for one step. -/
def ScheduleLedger.advance (self : ScheduleLedger F) (s : SchedulerState F) (label : SchedulerLabel)
    (next : SchedulerState F) : ScheduleLedger F :=
  match label with
  | .claim now now_utc disk =>
    match (s.schedules.update disk fun catalog => .ok (catalog.claim_due now now_utc)).1 with
    | .ok due => { self with claimed := self.claimed ++ due }
    | .error _ => self
  | .start id _ _ _ =>
    let found := s.due.head?.bind fun job => s.schedules.value.get job.id
    { self with started := self.started ++ [⟨self.claimed.length - s.due.length, id, found⟩] }
  | .finish _ =>
    let refused := s.current.any fun run => s.exec.workers[run.handle]?.any fun w => decide (w.phase = .refused)
    { self with
      refused := if refused then self.outcomes.length :: self.refused else self.refused
      outcomes := self.outcomes ++ next.pending.drop s.pending.length }
  | .skip _ => { self with outcomes := self.outcomes ++ next.pending.drop s.pending.length }
  | .edit (.create generation ..) _ => { self with generations := generation :: self.generations }
  | _ => self

/-- A generation is never given out twice. -/
def ScheduleLedger.admits (self : ScheduleLedger F) : SchedulerLabel → Bool
  | .edit (.create generation ..) _ => decide (generation ∉ self.generations)
  | _ => true

/-- The steps of a process that does not crash. -/
def ScheduleLedger.step (env : SchedulerEnv F) (self : SchedulerState F × ScheduleLedger F) (label : SchedulerLabel) :
    Option (SchedulerState F × ScheduleLedger F) :=
  if self.2.admits label then
    match self.1.step env label with
    | some next => match next.exec.process with
      | .down => none
      | _ => some (next, self.2.advance self.1 label next)
    | none => none
  else none

/-- The run the outcome of a claim carries: none if no run was started for it or
its run was refused. -/
def ScheduleLedger.run_of (self : ScheduleLedger F) (claim : Nat) : Option String :=
  if claim ∈ self.refused then none
  else (self.started.find? fun entry => decide (entry.claim = claim)).map ScheduledStart.run_id

/-- What identifies a sample and the outcome it is from. -/
def ScheduledRunSample.entry (self : ScheduledRunSample F) : Option String × String × String :=
  (self.run_id, self.timestamp_utc, self.status)

def PendingOutcome.entry (self : PendingOutcome) : Option String × String × String :=
  (self.run_id, self.timestamp_utc, self.status)

def ScheduledJob.entries (self : ScheduledJob F) : List (Option String × String × String) :=
  self.run_history.map ScheduledRunSample.entry

/-- The history of a job of one generation, empty if there is no such job. -/
def ScheduleCatalog.entries_of (self : ScheduleCatalog F) (id generation : String) :
    List (Option String × String × String) :=
  (self.jobs.find? fun job => decide (job.id = id ∧ job.generation = generation)).elim [] ScheduledJob.entries

/-- The outcome becomes a sample of the job. -/
def PendingOutcome.recorded_by (self : PendingOutcome) (job : ScheduledJob F) : Bool :=
  decide (self.job_id = job.id ∧ self.generation = job.generation ∧ self.status ≠ "SKIPPED")

/-- The history of the job after some outcomes of the scheduler. -/
def ScheduleCatalog.history_after (self : ScheduleCatalog F) (outcomes : List PendingOutcome) (job : ScheduledJob F) :
    List (Option String × String × String) :=
  ring_after MAX_HISTORY_PER_JOB (self.entries_of job.id job.generation)
    ((outcomes.filter fun outcome => outcome.recorded_by job).map PendingOutcome.entry)

/-- The account of the claims while the scheduler works through them: the claims
before the due ones have their outcome or are the current run, and all outcomes
but the pending ones are in the histories. -/
structure ScheduleLedger.Kept (initial : ScheduleCatalog F) (s : SchedulerState F) (ledger : ScheduleLedger F) :
    Prop where
  unique : KeyedList.Unique ScheduledJob.id s.schedules.value.jobs
  once : (ledger.started.map ScheduledStart.claim).Nodup
  started : ∀ entry ∈ ledger.started, entry.claim < ledger.outcomes.length + s.current.toList.length ∧
    ∃ job current, ledger.claimed[entry.claim]? = some job ∧
      entry.found = some current ∧ current.id = job.id ∧ current.enabled = true ∧ current.generation = job.generation
  refused : ∀ claim ∈ ledger.refused, claim < ledger.outcomes.length
  outcomes : ∀ claim outcome, ledger.outcomes[claim]? = some outcome → ∃ job, ledger.claimed[claim]? = some job ∧
    outcome.job_id = job.id ∧ outcome.generation = job.generation ∧ outcome.run_id = ledger.run_of claim
  dispatched : ∃ dispatched, ledger.claimed = dispatched ++ s.due ∧
    dispatched.length = ledger.outcomes.length + s.current.toList.length
  current : ∀ run, s.current = some run → ledger.claimed[ledger.outcomes.length]? = some run.job ∧
    ledger.run_of ledger.outcomes.length = some run.run_id
  flushed : ∃ flushed, ledger.outcomes = flushed ++ s.pending ∧
    ∀ job ∈ s.schedules.value.jobs, job.entries = initial.history_after flushed job
  initial : ∀ job ∈ initial.jobs, job.generation ∈ ledger.generations
  generations : ∀ job ∈ s.schedules.value.jobs, job.generation ∈ ledger.generations
  claimed : ∀ job ∈ ledger.claimed, job.generation ∈ ledger.generations

/-- A change of the catalog that leaves the histories. -/
structure ScheduledJob.SameEntries (before after : ScheduledJob F) : Prop where
  id : after.id = before.id
  generation : after.generation = before.generation
  entries : after.entries = before.entries

theorem ScheduledJob.SameEntries.refl (job : ScheduledJob F) : job.SameEntries job := ⟨rfl, rfl, rfl⟩

section

variable {catalog : ScheduleCatalog F} {initial : ScheduleCatalog F}

theorem ScheduledJob.record_feedback_same_entries (drift : DriftArithmetic F) (record : AuditRecord)
    (job : ScheduledJob F) : job.SameEntries (job.record_feedback drift record).1 := by
  have hentries : ∀ {before after : List (ScheduledRunSample F)}, List.Forall₂ ScheduledRunSample.SameRun before after →
      after.map ScheduledRunSample.entry = before.map ScheduledRunSample.entry := by
    intro before after hsame
    induction hsame with
    | nil => rfl
    | cons hrun _ ih =>
      rw [List.map_cons, List.map_cons, ih, ScheduledRunSample.entry, ScheduledRunSample.entry, hrun.run_id,
        hrun.timestamp_utc, hrun.status]
  have hconfined := job.record_feedback_confined drift record
  refine ⟨hconfined.id, ?_, hentries hconfined.samples⟩
  obtain hsame | ⟨sample, -, hrevised⟩ := job.record_feedback_cases drift record
  · rw [hsame]
  · rw [hrevised.frame]

theorem map_bounded {α β : Type} (f : α → β) (bound : Nat) (entries : List α) :
    (bounded bound entries).map f = bounded bound (entries.map f) := by
  rw [bounded, bounded, List.map_drop, List.length_map]

/-- The outcome of a job becomes the last entry of its history, unless it was
skipped. -/
theorem ScheduledJob.record_outcome_entries {job : ScheduledJob F} {outcome : PendingOutcome}
    (hid : job.id = outcome.job_id) (hgeneration : job.generation = outcome.generation) :
    (job.record_outcome outcome).id = job.id ∧ (job.record_outcome outcome).generation = job.generation ∧
      (job.record_outcome outcome).entries = ring_after MAX_HISTORY_PER_JOB job.entries
        (([outcome].filter fun outcome => outcome.recorded_by job).map PendingOutcome.entry) := by
  by_cases hskipped : outcome.status = "SKIPPED"
  · have hfilter : ([outcome].filter fun outcome => outcome.recorded_by job) = [] := by
      simp [PendingOutcome.recorded_by, hskipped]
    rw [ScheduledJob.record_outcome, if_pos hskipped, hfilter]
    exact ⟨rfl, rfl, (ring_after_nil _ _).symm⟩
  · have hfilter : ([outcome].filter fun outcome => outcome.recorded_by job) = [outcome] := by
      simp [PendingOutcome.recorded_by, hskipped, hid, hgeneration]
    rw [ScheduledJob.record_outcome, if_neg hskipped, hfilter, List.map_singleton, ring_after_singleton]
    refine ⟨rfl, rfl, ?_⟩
    rw [ScheduledJob.entries, map_bounded, List.map_append]
    rfl

theorem PendingOutcome.recorded_by_congr {outcome : PendingOutcome} {old job : ScheduledJob F} (hid : job.id = old.id)
    (hgeneration : job.generation = old.generation) : outcome.recorded_by job = outcome.recorded_by old := by
  rw [PendingOutcome.recorded_by, PendingOutcome.recorded_by, hid, hgeneration]

theorem ScheduleCatalog.history_after_congr {outcomes : List PendingOutcome} {old job : ScheduledJob F}
    (hid : job.id = old.id) (hgeneration : job.generation = old.generation) :
    initial.history_after outcomes job = initial.history_after outcomes old := by
  rw [ScheduleCatalog.history_after, ScheduleCatalog.history_after, hid, hgeneration]
  simp only [PendingOutcome.recorded_by_congr hid hgeneration]

/-- One more outcome. -/
theorem ScheduleCatalog.history_after_snoc (initial : ScheduleCatalog F) (outcomes : List PendingOutcome)
    (outcome : PendingOutcome) (job : ScheduledJob F) :
    initial.history_after (outcomes ++ [outcome]) job =
      ring_after MAX_HISTORY_PER_JOB (initial.history_after outcomes job)
        (([outcome].filter fun outcome => outcome.recorded_by job).map PendingOutcome.entry) := by
  rw [ScheduleCatalog.history_after, List.filter_append, List.map_append, ring_after_append]
  rfl

/-- Nothing is known of a generation nobody has had. -/
theorem ScheduleCatalog.history_after_of_fresh {outcomes : List PendingOutcome} {job : ScheduledJob F}
    (hinitial : ∀ old ∈ initial.jobs, old.generation ≠ job.generation)
    (houtcomes : ∀ outcome ∈ outcomes, outcome.generation ≠ job.generation) :
    initial.history_after outcomes job = [] := by
  have hnone : initial.jobs.find? (fun old => decide (old.id = job.id ∧ old.generation = job.generation)) = none := by
    rw [List.find?_eq_none]
    intro old hold
    simp [hinitial old hold]
  have hempty : outcomes.filter (fun outcome => outcome.recorded_by job) = [] := by
    rw [List.filter_eq_nil_iff]
    intro outcome houtcome
    simp [PendingOutcome.recorded_by, houtcomes outcome houtcome]
  rw [ScheduleCatalog.history_after, ScheduleCatalog.entries_of, hnone, hempty]
  exact ring_after_nil _ _

end

section

variable {env : SchedulerEnv F} {initial : ScheduleCatalog F} {s next : SchedulerState F} {ledger : ScheduleLedger F}

/-- The catalog changes without a change of a history, and nothing else does. -/
theorem ScheduleLedger.Kept.of_rewrites (hkept : ledger.Kept initial s)
    (hrewrites : s.schedules.value.Rewrites ScheduledJob.SameEntries next.schedules.value) (hdue : next.due = s.due)
    (hcurrent : next.current = s.current) (hpending : next.pending = s.pending) : ledger.Kept initial next where
  unique := hrewrites.unique hkept.unique
  once := hkept.once
  started := hcurrent ▸ hkept.started
  refused := hkept.refused
  outcomes := hkept.outcomes
  dispatched := by rw [hdue, hcurrent]; exact hkept.dispatched
  current := hcurrent ▸ hkept.current
  flushed := by
    obtain ⟨flushed, houtcomes, hhistory⟩ := hkept.flushed
    refine ⟨flushed, hpending ▸ houtcomes, fun job hjob => ?_⟩
    obtain ⟨old, hold, hsame⟩ := hrewrites.jobs job hjob
    rw [hsame.entries, hhistory old hold, ScheduleCatalog.history_after_congr hsame.id hsame.generation]
  initial := hkept.initial
  generations := by
    intro job hjob
    obtain ⟨old, hold, hsame⟩ := hrewrites.jobs job hjob
    exact hsame.generation ▸ hkept.generations old hold
  claimed := hkept.claimed

theorem ScheduleLedger.Kept.of_same (hkept : ledger.Kept initial s) (hschedules : next.schedules = s.schedules)
    (hdue : next.due = s.due) (hcurrent : next.current = s.current) (hpending : next.pending = s.pending) :
    ledger.Kept initial next :=
  hkept.of_rewrites (hschedules ▸ .refl .refl _) hdue hcurrent hpending

/-- A generation is given out. -/
theorem ScheduleLedger.Kept.issue (hkept : ledger.Kept initial s) (generation : String) :
    ScheduleLedger.Kept initial s { ledger with generations := generation :: ledger.generations } :=
  { hkept with
    initial := fun job hjob => List.mem_cons_of_mem _ (hkept.initial job hjob)
    generations := fun job hjob => List.mem_cons_of_mem _ (hkept.generations job hjob)
    claimed := fun job hjob => List.mem_cons_of_mem _ (hkept.claimed job hjob) }

/-- An outcome is of a generation that was given out. -/
theorem ScheduleLedger.Kept.outcome_generation (hkept : ledger.Kept initial s) {outcome : PendingOutcome}
    (houtcome : outcome ∈ ledger.outcomes) : outcome.generation ∈ ledger.generations := by
  obtain ⟨claim, hclaim⟩ := List.mem_iff_getElem?.mp houtcome
  obtain ⟨job, hjob, -, hgeneration, -⟩ := hkept.outcomes claim outcome hclaim
  exact hgeneration ▸ hkept.claimed job (List.mem_of_getElem? hjob)

theorem ScheduleLedger.Kept.create (hkept : ledger.Kept initial s) {job : ScheduledJob F}
    (hfresh : job.generation ∉ ledger.generations) (hhistory : job.run_history = [])
    (hnone : s.schedules.value.get job.id = none) :
    ScheduleLedger.Kept initial
      (s.published { s.schedules.value with jobs := s.schedules.value.jobs ++ [job] })
      { ledger with generations := job.generation :: ledger.generations } := by
  obtain ⟨flushed, houtcomes, hentries⟩ := hkept.flushed
  have hmem : ∀ other ∈ s.schedules.value.jobs ++ [job], other ∈ s.schedules.value.jobs ∨ other = job := fun other h =>
    (List.mem_append.mp h).imp_right List.mem_singleton.mp
  refine { hkept.issue job.generation with
    unique := hkept.unique.append hnone
    flushed := ⟨flushed, houtcomes, fun other hother => ?_⟩
    generations := fun other hother => ?_ }
  · obtain hold | rfl := hmem other hother
    · exact hentries other hold
    · rw [ScheduledJob.entries, hhistory, ScheduleCatalog.history_after_of_fresh]
      · rfl
      · exact fun old hold hsame => hfresh (hsame ▸ hkept.initial old hold)
      · intro outcome houtcome hsame
        exact hfresh (hsame ▸ hkept.outcome_generation (houtcomes ▸ List.mem_append_left _ houtcome))
  · obtain hold | rfl := hmem other hother
    · exact List.mem_cons_of_mem _ (hkept.generations other hold)
    · exact List.mem_cons_self

theorem getElem?_append_of_some {α : Type} {entries : List α} {i : Nat} {entry : α} (h : entries[i]? = some entry)
    (more : List α) : (entries ++ more)[i]? = some entry := by
  obtain ⟨hlt, -⟩ := List.getElem?_eq_some_iff.mp h
  rw [List.getElem?_append_left hlt, h]

/-- A claim is committed. -/
theorem ScheduleLedger.Kept.claim (hkept : ledger.Kept initial s) (hdue : s.due = []) (now : UInt64)
    (now_utc : String) :
    ScheduleLedger.Kept initial
      { s.published (s.schedules.value.claim_due now now_utc).2 with
        due := (s.schedules.value.claim_due now now_utc).1 }
      { ledger with claimed := ledger.claimed ++ (s.schedules.value.claim_due now now_utc).1 } := by
  have hrewrites : s.schedules.value.Rewrites ScheduledJob.SameEntries (s.schedules.value.claim_due now now_utc).2 :=
    ScheduleCatalog.claim_due_rewrites .refl (fun _ _ => ⟨rfl, rfl, rfl⟩) _
  have hcatalog : ledger.Kept initial (s.published (s.schedules.value.claim_due now now_utc).2) :=
    hkept.of_rewrites hrewrites rfl rfl rfl
  obtain ⟨dispatched, hclaimed, hlength⟩ := hkept.dispatched
  rw [hdue, List.append_nil] at hclaimed
  refine { hcatalog with
    started := fun entry hentry => ?_
    outcomes := fun claim outcome houtcome => ?_
    dispatched := ⟨dispatched, hclaimed ▸ rfl, hlength⟩
    current := fun run hrun => ?_
    claimed := fun job hjob => ?_ }
  · obtain ⟨hlt, job, current, hjob, hfound⟩ := hkept.started entry hentry
    exact ⟨hlt, job, current, getElem?_append_of_some hjob _, hfound⟩
  · obtain ⟨job, hjob, hof⟩ := hkept.outcomes claim outcome houtcome
    exact ⟨job, getElem?_append_of_some hjob _, hof⟩
  · obtain ⟨hjob, hrun⟩ := hkept.current run hrun
    exact ⟨getElem?_append_of_some hjob _, hrun⟩
  · obtain hold | hnew := List.mem_append.mp hjob
    · exact hkept.claimed job hold
    · obtain ⟨old, hold, -, rfl⟩ := ScheduleCatalog.mem_claim_due.mp hnew
      exact hkept.generations old hold

/-- No run is known of a claim whose turn has not come. -/
theorem ScheduleLedger.Kept.run_of_next (hkept : ledger.Kept initial s) (hcurrent : s.current = none) :
    ledger.run_of ledger.outcomes.length = none := by
  rw [ScheduleLedger.run_of, if_neg fun h => Nat.lt_irrefl _ (hkept.refused _ h), Option.map_eq_none_iff,
    List.find?_eq_none]
  intro entry hentry hclaim
  have hlt := (hkept.started entry hentry).1
  rw [hcurrent, of_decide_eq_true hclaim] at hlt
  exact Nat.lt_irrefl _ hlt

/-- A start of a later claim does not show in the run of an earlier one. -/
theorem ScheduleLedger.run_of_started (ledger : ScheduleLedger F) (entry : ScheduledStart F) {claim : Nat}
    (hne : claim ≠ entry.claim) : { ledger with started := ledger.started ++ [entry] }.run_of claim =
      ledger.run_of claim := by
  rw [ScheduleLedger.run_of, ScheduleLedger.run_of, List.find?_append, List.find?_cons_of_neg
    (by simpa using Ne.symm hne),
    List.find?_nil, Option.or_none]

theorem ScheduleLedger.run_of_refused (ledger : ScheduleLedger F) {claim other : Nat} (hne : claim ≠ other) :
    { ledger with refused := other :: ledger.refused }.run_of claim = ledger.run_of claim := by
  rw [ScheduleLedger.run_of, ScheduleLedger.run_of]
  simp only [List.mem_cons, hne, false_or]

/-- The outcome of the claim whose turn it is. -/
theorem ScheduleLedger.Kept.conclude (hkept : ledger.Kept initial s) {job : ScheduledJob F} {outcome : PendingOutcome}
    {refused : List Nat} {due : List (ScheduledJob F)} {flush : Flush}
    (hjob : ledger.claimed[ledger.outcomes.length]? = some job) (hid : outcome.job_id = job.id)
    (hgeneration : outcome.generation = job.generation)
    (hrun : outcome.run_id = { ledger with refused := refused }.run_of ledger.outcomes.length)
    (hrefused : refused = ledger.refused ∨ refused = ledger.outcomes.length :: ledger.refused)
    (hclaimed : ∃ dispatched, ledger.claimed = dispatched ++ due ∧ dispatched.length = ledger.outcomes.length + 1) :
    ScheduleLedger.Kept initial
      { s with current := none, pending := s.pending ++ [outcome], flush := flush, due := due }
      { ledger with refused := refused, outcomes := ledger.outcomes ++ [outcome] } := by
  have hkeeps : ∀ claim < ledger.outcomes.length,
      { ledger with refused := refused }.run_of claim = ledger.run_of claim := by
    intro claim hlt
    obtain rfl | rfl := hrefused
    · rfl
    · exact ledger.run_of_refused (Nat.ne_of_lt hlt)
  obtain ⟨flushed, houtcomes, hhistory⟩ := hkept.flushed
  refine { hkept with
    started := fun entry hentry => ?_
    refused := fun claim hclaim => ?_
    outcomes := fun claim recorded hrecorded => ?_
    dispatched := ?_
    current := fun run hrun => by cases hrun
    flushed := ⟨flushed, ?_, hhistory⟩ }
  · obtain ⟨hlt, hfound⟩ := hkept.started entry hentry
    refine ⟨?_, hfound⟩
    have hone : s.current.toList.length ≤ 1 := Option.length_toList_le
    rw [List.length_append, List.length_singleton, Option.toList_none, List.length_nil]
    omega
  · rw [List.length_append, List.length_singleton]
    obtain rfl | rfl := hrefused
    · exact Nat.lt_succ_of_lt (hkept.refused claim hclaim)
    · obtain rfl | hold := List.mem_cons.mp hclaim
      · exact Nat.lt_succ_self _
      · exact Nat.lt_succ_of_lt (hkept.refused claim hold)
  · obtain hlt | hge := Nat.lt_or_ge claim ledger.outcomes.length
    · rw [List.getElem?_append_left hlt] at hrecorded
      obtain ⟨old, hold, hof, hsame, hran⟩ := hkept.outcomes claim recorded hrecorded
      exact ⟨old, hold, hof, hsame, hran.trans (hkeeps claim hlt).symm⟩
    · rw [List.getElem?_append_right hge, List.getElem?_singleton] at hrecorded
      obtain ⟨hzero, hsome⟩ := Option.ite_none_right_eq_some.mp hrecorded
      obtain rfl : claim = ledger.outcomes.length := by omega
      obtain rfl := Option.some.inj hsome
      exact ⟨job, hjob, hid, hgeneration, hrun⟩
  · obtain ⟨dispatched, hsplit, hlength⟩ := hclaimed
    refine ⟨dispatched, hsplit, ?_⟩
    rw [hlength, List.length_append, List.length_singleton, Option.toList_none, List.length_nil]
  · rw [houtcomes, List.append_assoc]

/-- The due job whose turn it is stands at the next place of the claims. -/
theorem ScheduleLedger.Kept.next_claim (hkept : ledger.Kept initial s) {job : ScheduledJob F}
    {due : List (ScheduledJob F)}
    (hdue : s.due = job :: due) (hcurrent : s.current = none) :
    ledger.claimed[ledger.outcomes.length]? = some job ∧
      ledger.claimed.length - s.due.length = ledger.outcomes.length ∧
      ∃ dispatched, ledger.claimed = dispatched ++ due ∧ dispatched.length = ledger.outcomes.length + 1 := by
  obtain ⟨dispatched, hclaimed, hlength⟩ := hkept.dispatched
  rw [hcurrent, Option.toList_none, List.length_nil, Nat.add_zero] at hlength
  rw [hdue] at hclaimed
  refine ⟨?_, ?_, dispatched ++ [job], ?_, ?_⟩
  · rw [hclaimed, ← hlength, List.getElem?_append_right (le_refl _), Nat.sub_self]
    rfl
  · rw [hclaimed, hdue, List.length_append, hlength, Nat.add_sub_cancel]
  · rw [hclaimed, List.append_assoc]
    rfl
  · rw [List.length_append, hlength, List.length_singleton]

theorem ScheduleLedger.Kept.skip (hkept : ledger.Kept initial s) {now : String} (h : s.skip now = some next) :
    (ledger.advance s (.skip now) next).Kept initial next := by
  obtain ⟨job, due, hdue, hcurrent, -, rfl⟩ := SchedulerState.skip_cases h
  obtain ⟨hjob, -, hclaimed⟩ := hkept.next_claim hdue hcurrent
  change ScheduleLedger.Kept initial _ { ledger with
    outcomes := ledger.outcomes ++ (s.pending ++ [_]).drop s.pending.length }
  rw [List.drop_left]
  exact hkept.conclude hjob rfl rfl (hkept.run_of_next hcurrent).symm (Or.inl rfl) hclaimed

theorem ScheduleLedger.Kept.start (hkept : ledger.Kept initial s) {id : String} {entry : ScenarioEntry}
    {selected : Option String} {now : String} (h : s.start env id entry selected now = some next) :
    (ledger.advance s (.start id entry selected now) next).Kept initial next := by
  obtain ⟨job, due, exec, hdue, hcurrent, -, hstill, -, -, -, rfl⟩ := SchedulerState.start_cases h
  obtain ⟨hjob, hplace, hclaimed⟩ := hkept.next_claim hdue hcurrent
  obtain ⟨current, hget, hcondition⟩ := (Option.any_eq_true _ _).mp hstill
  obtain ⟨henabled, hgeneration⟩ := Bool.and_eq_true_iff.mp hcondition
  have hbefore : ∀ entry ∈ ledger.started, entry.claim < ledger.outcomes.length := by
    intro entry hentry
    have hlt := (hkept.started entry hentry).1
    rw [hcurrent] at hlt
    exact hlt
  unfold ScheduleLedger.advance
  dsimp only
  rw [hplace, hdue, List.head?_cons, Option.bind_some, hget]
  refine { hkept with
    once := ?_
    started := fun entry hentry => ?_
    outcomes := fun claim outcome houtcome => ?_
    dispatched := hclaimed
    current := fun run hrun => ?_ }
  · rw [List.map_append, List.nodup_append]
    refine ⟨hkept.once, List.nodup_singleton _, fun first hfirst second hsecond => ?_⟩
    obtain ⟨entry, hentry, rfl⟩ := List.mem_map.mp hfirst
    rw [List.map_singleton, List.mem_singleton] at hsecond
    exact hsecond ▸ Nat.ne_of_lt (hbefore entry hentry)
  · obtain hold | hnew := List.mem_append.mp hentry
    · exact ⟨Nat.lt_succ_of_lt (hbefore entry hold), (hkept.started entry hold).2⟩
    · obtain rfl := List.mem_singleton.mp hnew
      exact ⟨Nat.lt_succ_self _, job, current, hjob, rfl, (KeyedList.find_some hget).2, henabled,
        of_decide_eq_true hgeneration⟩
  · obtain ⟨old, hold, hid, hsame, hran⟩ := hkept.outcomes claim outcome houtcome
    refine ⟨old, hold, hid, hsame, hran.trans (ledger.run_of_started _ ?_).symm⟩
    obtain ⟨hlt, -⟩ := List.getElem?_eq_some_iff.mp houtcome
    exact Nat.ne_of_lt hlt
  · obtain rfl := Option.some.inj hrun
    refine ⟨hjob, ?_⟩
    rw [ScheduleLedger.run_of, if_neg fun h => Nat.lt_irrefl _ (hkept.refused _ h), List.find?_append]
    have hnone : ledger.started.find? (fun entry => decide (entry.claim = ledger.outcomes.length)) = none := by
      rw [List.find?_eq_none]
      intro entry hentry hclaim
      exact Nat.ne_of_lt (hbefore entry hentry) (of_decide_eq_true hclaim)
    rw [hnone, Option.none_or]
    simp

theorem ScheduleLedger.Kept.finish (hkept : ledger.Kept initial s) {now : String} (h : s.finish now = some next) :
    (ledger.advance s (.finish now) next).Kept initial next := by
  obtain ⟨run, w, hcurrent, hw, -, rfl⟩ := SchedulerState.finish_cases h
  obtain ⟨hjob, hrun⟩ := hkept.current run hcurrent
  have hclaimed := hkept.dispatched
  rw [hcurrent, Option.toList_some, List.length_singleton] at hclaimed
  unfold ScheduleLedger.advance ExecutionState.conclusion
  dsimp only
  rw [hcurrent, Option.any_some, hw, Option.any_some]
  change ScheduleLedger.Kept initial _ { ledger with
    refused := _
    outcomes := ledger.outcomes ++ (s.pending ++ [_]).drop s.pending.length }
  rw [List.drop_left]
  by_cases hrefused : w.phase = .refused
  · rw [if_pos hrefused, if_pos (decide_eq_true hrefused)]
    refine hkept.conclude hjob rfl rfl ?_ (Or.inr rfl) hclaimed
    rw [ScheduleLedger.run_of, if_pos List.mem_cons_self]
  · rw [if_neg hrefused, if_neg (by simpa using hrefused)]
    exact hkept.conclude hjob rfl rfl hrun.symm (Or.inl rfl) hclaimed

/-- The transaction of the front outcome. -/
theorem ScheduleLedger.Kept.flush_commit (hkept : ledger.Kept initial s) {outcome : PendingOutcome}
    {pending : List PendingOutcome} (hpending : s.pending = outcome :: pending) (drift : DriftArithmetic F)
    (feedback : Option AuditRecord) (flush : Flush) :
    ledger.Kept initial { s.published (flush_transaction drift outcome feedback s.schedules.value) with
      pending := pending
      flush := flush } := by
  obtain ⟨flushed, houtcomes, hhistory⟩ := hkept.flushed
  have happly : s.schedules.value.Rewrites (fun old job => job.id = old.id ∧ job.generation = old.generation ∧
      job.entries = ring_after MAX_HISTORY_PER_JOB old.entries
        (([outcome].filter fun outcome => outcome.recorded_by old).map PendingOutcome.entry))
      (outcome.apply s.schedules.value) := by
    refine .of_map (outcome.apply_jobs hkept.unique) (fun job => ?_) fun job => ?_
    · split
      · rename_i hof
        exact (ScheduledJob.record_outcome_entries hof.1 hof.2).1
      · rfl
    · split
      · rename_i hof
        exact ScheduledJob.record_outcome_entries hof.1 hof.2
      · rename_i hother
        have hfilter : ([outcome].filter fun outcome => outcome.recorded_by job) = [] := by
          rw [List.filter_eq_nil_iff]
          intro recorded hrecorded hby
          obtain rfl := List.mem_singleton.mp hrecorded
          obtain ⟨hid, hgeneration, -⟩ := of_decide_eq_true hby
          exact hother ⟨hid.symm, hgeneration.symm⟩
        rw [hfilter]
        exact ⟨rfl, rfl, (ring_after_nil _ _).symm⟩
  have hfeedback : (outcome.apply s.schedules.value).Rewrites ScheduledJob.SameEntries
      (flush_transaction drift outcome feedback s.schedules.value) := by
    unfold flush_transaction
    split
    · rename_i record
      exact ScheduleCatalog.record_feedback_rewrites .refl (fun job => job.record_feedback_same_entries drift record) _
    · exact .refl .refl _
  have hboth := happly.trans (T := fun old job => job.id = old.id ∧ job.generation = old.generation ∧
      job.entries = ring_after MAX_HISTORY_PER_JOB old.entries
        (([outcome].filter fun outcome => outcome.recorded_by old).map PendingOutcome.entry)) hfeedback
    fun old middle job hfirst hsecond => ⟨hsecond.id.trans hfirst.1, hsecond.generation.trans hfirst.2.1,
      hsecond.entries.trans hfirst.2.2⟩
  refine { hkept with
    unique := hboth.unique hkept.unique
    flushed := ⟨flushed ++ [outcome], ?_, fun job hjob => ?_⟩
    generations := fun job hjob => ?_ }
  · rw [houtcomes, hpending, List.append_assoc]
    rfl
  · obtain ⟨old, hold, hid, hgeneration, hentries⟩ := hboth.jobs job hjob
    rw [hentries, hhistory old hold, ScheduleCatalog.history_after_congr hid hgeneration,
      ScheduleCatalog.history_after_snoc]
  · obtain ⟨old, hold, -, hgeneration, -⟩ := hboth.jobs job hjob
    exact hgeneration ▸ hkept.generations old hold

/-- An edit of the catalog, by a generation that is new if it creates a job. -/
theorem ScheduleLedger.Kept.edit (hkept : ledger.Kept initial s) (edit : CatalogEdit) {disk : Disk}
    (hadmits : ledger.admits (.edit edit disk) = true) :
    (ledger.advance s (.edit edit disk) (s.edit edit disk)).Kept initial (s.edit edit disk) := by
  unfold SchedulerState.edit
  cases hupdate : s.schedules.update disk fun catalog => .ok ((), edit.apply catalog) with
  | mk result schedules =>
    obtain ⟨e, rfl, rfl⟩ | ⟨rfl, rfl, -⟩ := Persistent.update_ok_cases hupdate
    · cases edit with
      | create => exact hkept.issue _
      | delete | toggle | recover_interrupted => exact hkept
    · cases edit with
      | create generation id name scenario_id interval_sec role target_override baseline_mttd_ms enabled
        created_at_utc =>
        have hfresh : generation ∉ ledger.generations := of_decide_eq_true hadmits
        obtain hsame | ⟨job, rfl, hhistory, hnone, hcreated⟩ := CatalogEdit.create_cases generation id name scenario_id
          interval_sec role target_override baseline_mttd_ms enabled created_at_utc s.schedules.value
        · rw [hsame]
          exact hkept.issue generation
        · rw [hcreated]
          exact hkept.create hfresh hhistory hnone
      | delete id => exact hkept.of_rewrites (ScheduleCatalog.deregister_rewrites .refl _ id) rfl rfl rfl
      | toggle id enabled =>
        exact hkept.of_rewrites (ScheduleCatalog.set_enabled_rewrites .refl (fun _ _ => ⟨rfl, rfl, rfl⟩) _ id enabled)
          rfl rfl rfl
      | recover_interrupted =>
        exact hkept.of_rewrites (ScheduleCatalog.recover_interrupted_rewrites .refl (fun _ => ⟨rfl, rfl, rfl⟩) _)
          rfl rfl rfl

/-- Every step of a live process keeps the account. -/
theorem ScheduleLedger.Kept.moves (hkept : ledger.Kept initial s) {label : SchedulerLabel}
    (hadmits : ledger.admits label = true) (h : s.step env label = some next) (hlive : next.exec.process ≠ .down) :
    (ledger.advance s label next).Kept initial next := by
  have hmoves := SchedulerState.step_moves h
  cases label with
  | exec label =>
    cases hmoves with
    | crash exec hexec hdown => exact absurd hdown hlive
    | exec_start | exec | unsaved => exact hkept.of_same rfl rfl rfl rfl
  | retry =>
    cases hmoves with
    | unsaved | retry => exact hkept.of_same rfl rfl rfl rfl
  | flush_read =>
    cases hmoves with
    | unsaved | flush_read => exact hkept.of_same rfl rfl rfl rfl
  | flush_commit disk =>
    cases hmoves with
    | unsaved => exact hkept
    | flush_fail => exact hkept.of_same rfl rfl rfl rfl
    | flush_commit outcome pending feedback hserving hpending => exact hkept.flush_commit hpending env.drift feedback _
  | apply_feedback handler disk =>
    cases hmoves with
    | unsaved => exact hkept
    | feedback_fail => exact hkept.of_same rfl rfl rfl rfl
    | apply_feedback _ record =>
      refine hkept.of_rewrites (ScheduleCatalog.record_feedback_rewrites .refl (fun job => ?_) _) rfl rfl rfl
      exact job.record_feedback_same_entries env.drift record
  | edit edit disk =>
    obtain ⟨-, hedit⟩ := Option.ite_none_right_eq_some.mp h
    obtain rfl := Option.some.inj hedit
    exact hkept.edit edit hadmits
  | claim now now_utc disk =>
    obtain ⟨-, hclaim⟩ := Option.ite_none_right_eq_some.mp h
    obtain ⟨hdue, -, -, -, ⟨e, herror, rfl⟩ | ⟨hok, rfl⟩⟩ := SchedulerState.claim_cases hclaim
    · rw [ScheduleLedger.advance, herror]
      exact hkept
    · rw [ScheduleLedger.advance, hok]
      exact hkept.claim hdue now now_utc
  | skip now => exact hkept.skip (Option.ite_none_right_eq_some.mp h).2
  | start id entry selected now => exact hkept.start (Option.ite_none_right_eq_some.mp h).2
  | finish now => exact hkept.finish (Option.ite_none_right_eq_some.mp h).2

theorem ScheduleLedger.Kept.step {after : ScheduleLedger F} {label : SchedulerLabel} (hkept : ledger.Kept initial s)
    (h : ScheduleLedger.step env (s, ledger) label = some (next, after)) : after.Kept initial next := by
  unfold ScheduleLedger.step at h
  split at h
  · rename_i hadmits
    split at h
    · rename_i state hstep
      split at h
      · cases h
      · rename_i hlive
        obtain ⟨rfl, rfl⟩ := Prod.mk.inj (Option.some.inj h)
        exact hkept.moves hadmits hstep hlive
    · cases h
  · cases h

end

end asmodeus.control_plane
