import Asmodeus.ControlPlane.Campaign

open asmodeus.common asmodeus.telemetry

namespace asmodeus.control_plane

/-- Terminal campaign runs kept in the snapshot. -/
def MAX_TERMINAL_RUNS : Nat := 200

namespace campaign_run

def QUEUED : String := "QUEUED"
def RUNNING : String := "RUNNING"
def COMPLETED : String := "COMPLETED"
def FAILED : String := "FAILED"
def CANCELLED : String := "CANCELLED"
def INTERRUPTED : String := "INTERRUPTED"

def STATUSES : List String := [QUEUED, RUNNING, COMPLETED, FAILED, CANCELLED, INTERRUPTED]

end campaign_run

open campaign_run

structure CampaignRun where
  id : String
  campaign_id : String
  campaign_name : String
  initiator : String
  target_override : Option String
  timeout_sec : Option UInt32
  steps : List CampaignStep
  status : String
  step_results : List CampaignStepResult
  superseded_results : List CampaignStepResult
  resume_count : UInt32
  created_utc : String
  updated_utc : String
  deriving DecidableEq

namespace CampaignRun

def is_terminal (self : CampaignRun) : Bool := !([QUEUED, RUNNING].contains self.status)

/-- Index of the next stage to execute. -/
def next_step (self : CampaignRun) : Nat := self.step_results.length

/-- Only settled runs are pruned. -/
def is_settled (self : CampaignRun) : Bool := [COMPLETED, FAILED].contains self.status

def is_resumable (self : CampaignRun) : Bool := [INTERRUPTED, CANCELLED].contains self.status

end CampaignRun

inductive ResumeError
  | NotFound
  | NotResumable (status : String)
  deriving DecidableEq

structure CampaignRunStore where
  version : Nat
  runs : List CampaignRun

def snapshot_version : Nat := 1

def CampaignRunStore.default : CampaignRunStore := ⟨snapshot_version, []⟩

section

variable (invalid : String → IoError)

/-- The steps of a plan, after the one before them. -/
def validate_plan : Option CampaignStep → List CampaignStep → Except IoError Unit
  | _, [] => .ok ()
  | previous, step :: steps =>
    if step.order = 0 ∨ step.scenario_id = "" ∨ previous.any (fun p => decide (p.order ≥ step.order)) then
      .error (invalid "invalid campaign step plan")
    else validate_plan (some step) steps

/-- The results against the plan. There are no more of them than steps. -/
def validate_progress : List CampaignStep → List CampaignStepResult → Except IoError Unit
  | _, [] => .ok ()
  | [], _ :: _ => .ok ()
  | step :: steps, result :: results =>
    if step.order ≠ result.step_order ∨ step.scenario_id ≠ result.scenario_id ∨
        (results ≠ [] ∧ result.status ≠ COMPLETED) then
      .error (invalid "invalid campaign progress")
    else validate_progress steps results

def CampaignRun.validate (self : CampaignRun) (ids : List String) : Except IoError Unit :=
  if self.id = "" ∨ self.id ∈ ids ∨ self.steps = [] ∨ self.step_results.length > self.steps.length ∨
      self.status ∉ STATUSES then
    .error (invalid "invalid campaign run snapshot")
  else do
    validate_plan invalid none self.steps
    validate_progress invalid self.steps self.step_results
    if self.status = COMPLETED ∧
        (self.step_results.length ≠ self.steps.length ∨ self.step_results.any fun r => r.status ≠ COMPLETED) then
      .error (invalid "incomplete campaign marked completed")
    else .ok ()

/-- The runs of a snapshot, after those with the given ids. -/
def validate_runs : List String → List CampaignRun → Except IoError Unit
  | _, [] => .ok ()
  | ids, run :: runs => do
    run.validate invalid ids
    validate_runs (run.id :: ids) runs

end

namespace CampaignRunStore

def validate (self : CampaignRunStore) : Except IoError Unit :=
  let invalid := fun reason => (⟨.InvalidData, reason⟩ : IoError)
  if self.version ≠ snapshot_version then .error (invalid "unsupported campaign run snapshot version")
  else validate_runs invalid [] self.runs

def get (self : CampaignRunStore) (id : String) : Option CampaignRun := KeyedList.find CampaignRun.id id self.runs

/-- Write through `get_mut`. -/
def set (self : CampaignRunStore) (run : CampaignRun) : CampaignRunStore :=
  { self with runs := KeyedList.replace CampaignRun.id run.id run self.runs }

/-- Drop the oldest settled runs of an excess. -/
def retain : Nat → List CampaignRun → List CampaignRun
  | _, [] => []
  | excess, run :: runs =>
    if 0 < excess ∧ run.is_settled = true then retain (excess - 1) runs else run :: retain excess runs

def prune (self : CampaignRunStore) : CampaignRunStore :=
  let terminal := self.runs.countP CampaignRun.is_settled
  { self with runs := retain (terminal - MAX_TERMINAL_RUNS) self.runs }

def insert (self : CampaignRunStore) (run : CampaignRun) : CampaignRunStore :=
  { self with runs := self.runs ++ [run] }.prune

end CampaignRunStore

/-- Change the last result of a run. -/
def CampaignRun.set_last (self : CampaignRun) (change : CampaignStepResult → CampaignStepResult) : CampaignRun :=
  match self.step_results.getLast? with
  | some last => { self with step_results := self.step_results.dropLast ++ [change last] }
  | none => self

/-- No worker survives a restart. -/
def CampaignRun.interrupt (self : CampaignRun) (now : String) : CampaignRun :=
  let stopped := self.set_last fun last => if last.status = RUNNING then { last with status := INTERRUPTED } else last
  { stopped with status := INTERRUPTED, updated_utc := now }

/-- Every run that is not terminal becomes `INTERRUPTED`. -/
def CampaignRun.recover (now : String) (self : CampaignRun) : CampaignRun :=
  if self.is_terminal then self else self.interrupt now

/-- Back to the queue, with an unfinished attempt archived. -/
def CampaignRun.requeue (self : CampaignRun) (now : String) : CampaignRun :=
  let archived := match self.step_results.getLast? with
    | some last =>
      if last.status ≠ COMPLETED then { self with
        step_results := self.step_results.dropLast
        superseded_results := self.superseded_results ++ [last] }
      else self
    | none => self
  { archived with status := QUEUED, resume_count := self.resume_count + 1, updated_utc := now }

namespace CampaignRunStore

/-- Startup reconciliation. -/
def recover_interrupted (self : CampaignRunStore) (now : String) : CampaignRunStore :=
  { self with runs := self.runs.map (CampaignRun.recover now) }

/-- Move an interrupted or cancelled run back to `QUEUED`. -/
def begin_resume (self : CampaignRunStore) (id now : String) : Except ResumeError CampaignRun × CampaignRunStore :=
  match self.get id with
  | none => (.error .NotFound, self)
  | some run =>
    if run.is_resumable then (.ok (run.requeue now), self.set (run.requeue now))
    else (.error (.NotResumable run.status), self)

end CampaignRunStore

/-- A run whose plan and progress fit together. The names of the steps are a
matter of their own. -/
structure CampaignRun.WellFormed (run : CampaignRun) : Prop where
  id : run.id ≠ ""
  planned : Planned run.steps
  status : run.status ∈ STATUSES
  aligned : run.step_results.map CampaignStepResult.step <+: run.steps
  progress : ∀ result ∈ run.step_results.dropLast, result.status = COMPLETED
  completed : run.status = COMPLETED →
    run.step_results.length = run.steps.length ∧ ∀ result ∈ run.step_results, result.status = COMPLETED

/-- Every step names a scenario. -/
def CampaignRun.Named (run : CampaignRun) : Prop := ∀ step ∈ run.steps, step.scenario_id ≠ ""

/-- A snapshot of well-formed runs under ids of their own. -/
structure CampaignRunStore.WellFormed (store : CampaignRunStore) : Prop where
  version : store.version = snapshot_version
  unique : KeyedList.Unique CampaignRun.id store.runs
  runs : ∀ run ∈ store.runs, run.WellFormed

section

variable {invalid : String → IoError}

theorem validate_plan_ok {previous : Option CampaignStep} {steps : List CampaignStep} :
    validate_plan invalid previous steps = .ok () ↔
      (∀ step ∈ steps, step.order ≠ 0) ∧ (∀ step ∈ steps, step.scenario_id ≠ "") ∧
        (previous.toList ++ steps).IsChain fun a b => a.order < b.order := by
  induction steps generalizing previous with
  | nil =>
    refine ⟨fun _ => ⟨fun _ h => absurd h List.not_mem_nil, fun _ h => absurd h List.not_mem_nil, ?_⟩, fun _ => rfl⟩
    cases previous with
    | none => exact List.IsChain.nil
    | some step => exact List.IsChain.singleton step
  | cons step steps ih =>
    rw [validate_plan]
    have hchain : (previous.toList ++ step :: steps).IsChain (fun a b => a.order < b.order) ↔
        previous.any (fun p => decide (p.order ≥ step.order)) = false ∧
          (step :: steps).IsChain fun a b => a.order < b.order := by
      cases previous with
      | none => simp
      | some before => simp [List.isChain_cons_cons]
    rw [hchain, List.forall_mem_cons, List.forall_mem_cons]
    split
    · rename_i hbad
      refine ⟨fun h => (by cases h), fun h => ?_⟩
      obtain ⟨⟨horder, -⟩, ⟨hname, -⟩, hprevious, -⟩ := h
      rw [hprevious] at hbad
      simp [horder, hname] at hbad
    · rename_i hgood
      simp only [not_or, Bool.not_eq_true] at hgood
      obtain ⟨horder, hname, hprevious⟩ := hgood
      rw [ih]
      simp [horder, hname, hprevious]

theorem validate_progress_ok {steps : List CampaignStep} {results : List CampaignStepResult}
    (hlength : results.length ≤ steps.length) :
    validate_progress invalid steps results = .ok () ↔
      results.map CampaignStepResult.step <+: steps ∧ ∀ result ∈ results.dropLast, result.status = COMPLETED := by
  induction results generalizing steps with
  | nil => simp [validate_progress]
  | cons result results ih =>
    cases steps with
    | nil => cases hlength
    | cons step steps =>
      rw [validate_progress]
      have hstep : (result :: results).map CampaignStepResult.step <+: step :: steps ↔
          (step.order = result.step_order ∧ step.scenario_id = result.scenario_id) ∧
            results.map CampaignStepResult.step <+: steps := by
        rw [List.map_cons, List.cons_prefix_cons]
        refine and_congr_left fun _ => ?_
        cases step
        simp [CampaignStepResult.step, eq_comm]
      have hlast : (∀ r ∈ (result :: results).dropLast, r.status = COMPLETED) ↔
          (results ≠ [] → result.status = COMPLETED) ∧ ∀ r ∈ results.dropLast, r.status = COMPLETED := by
        cases results with
        | nil => simp
        | cons next rest => simp
      rw [hstep, hlast]
      have ih := ih (Nat.le_of_succ_le_succ hlength)
      split
      · rename_i hbad
        refine ⟨fun h => (by cases h), fun h => ?_⟩
        obtain ⟨⟨⟨horder, hname⟩, -⟩, hdone, -⟩ := h
        rcases hbad with hbad | hbad | ⟨hmore, hbad⟩
        · exact absurd horder hbad
        · exact absurd hname hbad
        · exact absurd (hdone hmore) hbad
      · rename_i hgood
        simp only [not_or, not_and, ne_eq, not_not] at hgood
        obtain ⟨horder, hname, hdone⟩ := hgood
        rw [ih]
        exact ⟨fun h => ⟨⟨⟨horder, hname⟩, h.1⟩, hdone, h.2⟩, fun h => ⟨h.1.2, h.2.2⟩⟩

theorem Planned.of_chain {steps : List CampaignStep} (hnonempty : steps ≠ [])
    (hpositive : ∀ step ∈ steps, step.order ≠ 0)
    (hchain : steps.IsChain fun a b => a.order < b.order) : Planned steps :=
  ⟨hnonempty, hpositive, List.isChain_iff_pairwise.mp hchain⟩

theorem CampaignRun.validate_ok {run : CampaignRun} {ids : List String} :
    run.validate invalid ids = .ok () ↔ run.id ∉ ids ∧ run.WellFormed ∧ run.Named := by
  unfold CampaignRun.validate
  split
  · rename_i hbad
    refine ⟨fun h => (by cases h), fun ⟨hfresh, hrun, _⟩ => ?_⟩
    have hlength := hrun.aligned.length_le
    rw [List.length_map] at hlength
    rcases hbad with hbad | hbad | hbad | hbad | hbad
    · exact absurd hbad hrun.id
    · exact absurd hbad hfresh
    · exact absurd hbad hrun.planned.nonempty
    · exact absurd hlength (Nat.not_le_of_gt hbad)
    · exact absurd hrun.status hbad
  · rename_i hgood
    simp only [not_or, not_not, Nat.not_lt] at hgood
    obtain ⟨hid, hfresh, hsteps, hlength, hstatus⟩ := hgood
    constructor
    · intro h
      obtain ⟨_, hplan, h⟩ := Fallible.bind_ok h
      obtain ⟨_, hprogress, h⟩ := Fallible.bind_ok h
      obtain ⟨hpositive, hnamed, hchain⟩ := validate_plan_ok.mp hplan
      obtain ⟨haligned, hdone⟩ := (validate_progress_ok hlength).mp hprogress
      refine ⟨hfresh, ⟨hid, .of_chain hsteps hpositive hchain, hstatus, haligned, hdone, fun hcompleted => ?_⟩, hnamed⟩
      split at h
      · cases h
      · rename_i hcomplete
        simpa [hcompleted] using hcomplete
    · rintro ⟨-, hrun, hnamed⟩
      have hchain := List.isChain_iff_pairwise.mpr hrun.planned.increasing
      have hplan : validate_plan invalid none run.steps = .ok () :=
        validate_plan_ok.mpr ⟨hrun.planned.positive, hnamed, hchain⟩
      have hprogress : validate_progress invalid run.steps run.step_results = .ok () :=
        (validate_progress_ok hlength).mpr ⟨hrun.aligned, hrun.progress⟩
      rw [hplan, hprogress]
      change (if _ then _ else _) = _
      rw [if_neg]
      rintro ⟨hcompleted, hincomplete⟩
      obtain ⟨hall, hdone⟩ := hrun.completed hcompleted
      rcases hincomplete with hincomplete | hincomplete
      · exact hincomplete hall
      · obtain ⟨result, hresult, hne⟩ := List.any_eq_true.mp hincomplete
        exact of_decide_eq_true hne (hdone result hresult)

theorem validate_runs_ok {ids : List String} {runs : List CampaignRun} :
    validate_runs invalid ids runs = .ok () ↔
      (∀ run ∈ runs, run.id ∉ ids) ∧ KeyedList.Unique CampaignRun.id runs ∧
        ∀ run ∈ runs, run.WellFormed ∧ run.Named := by
  induction runs generalizing ids with
  | nil => simp [validate_runs]
  | cons run runs ih =>
    have hbind : validate_runs invalid ids (run :: runs) = .ok () ↔
        run.validate invalid ids = .ok () ∧ validate_runs invalid (run.id :: ids) runs = .ok () := by
      constructor
      · intro h
        obtain ⟨_, hrun, hrest⟩ := Fallible.bind_ok h
        exact ⟨hrun, hrest⟩
      · rintro ⟨hrun, hrest⟩
        rw [validate_runs, hrun]
        exact hrest
    rw [hbind, CampaignRun.validate_ok, ih, List.forall_mem_cons, List.forall_mem_cons]
    simp only [KeyedList.Unique, List.map_cons, List.nodup_cons, List.mem_map, List.mem_cons, not_or, not_exists,
      not_and]
    constructor
    · rintro ⟨⟨hfresh, hrun⟩, hrest, hunique, hruns⟩
      exact ⟨⟨hfresh, fun other hother => (hrest other hother).2⟩,
        ⟨fun other hother => (hrest other hother).1, hunique⟩, hrun, hruns⟩
    · rintro ⟨⟨hfresh, hrest⟩, ⟨hne, hunique⟩, hrun, hruns⟩
      exact ⟨⟨hfresh, hrun⟩, fun other hother => ⟨hne other hother, hrest other hother⟩, hunique, hruns⟩

end

/-- A snapshot can be loaded exactly if it is well formed and every step of its
runs names a scenario. -/
theorem CampaignRunStore.validate_ok {store : CampaignRunStore} :
    store.validate = .ok () ↔ store.WellFormed ∧ ∀ run ∈ store.runs, run.Named := by
  unfold validate
  dsimp only
  split
  · rename_i hversion
    exact ⟨fun h => (by cases h), fun h => absurd h.1.version hversion⟩
  · rename_i hversion
    rw [validate_runs_ok]
    constructor
    · rintro ⟨-, hunique, hruns⟩
      exact ⟨⟨not_not.mp hversion, hunique, fun run hrun => (hruns run hrun).1⟩, fun run hrun => (hruns run hrun).2⟩
    · rintro ⟨hstore, hnamed⟩
      exact ⟨fun _ _ => List.not_mem_nil, hstore.unique, fun run hrun => ⟨hstore.runs run hrun, hnamed run hrun⟩⟩

section

variable {store : CampaignRunStore} {run old : CampaignRun} {id now : String}

theorem CampaignRun.set_last_id (run : CampaignRun) (change : CampaignStepResult → CampaignStepResult) :
    (run.set_last change).id = run.id := by
  unfold set_last
  split <;> rfl

theorem CampaignRun.interrupt_id (run : CampaignRun) (now : String) : (run.interrupt now).id = run.id :=
  run.set_last_id _

theorem CampaignRun.requeue_id (run : CampaignRun) (now : String) : (run.requeue now).id = run.id := by
  unfold requeue
  dsimp only
  split
  · split <;> rfl
  · rfl

theorem CampaignRun.recover_id (now : String) (run : CampaignRun) : (run.recover now).id = run.id := by
  unfold recover
  split
  · rfl
  · exact run.interrupt_id now

namespace CampaignRunStore

theorem retain_sublist (excess : Nat) (runs : List CampaignRun) : (retain excess runs).Sublist runs := by
  induction runs generalizing excess with
  | nil => exact List.Sublist.slnil
  | cons head rest ih =>
    rw [retain]
    split
    · exact (ih _).cons head
    · exact (ih excess).cons_cons head

theorem mem_retain (excess : Nat) {runs : List CampaignRun} (hrun : run ∈ runs) (hopen : run.is_settled = false) :
    run ∈ retain excess runs := by
  induction runs generalizing excess with
  | nil => cases hrun
  | cons head rest ih =>
    rw [retain]
    rcases List.mem_cons.mp hrun with rfl | hrun
    · rw [hopen, if_neg (by simp)]
      exact List.mem_cons_self
    · split
      · exact ih _ hrun
      · exact List.mem_cons_of_mem _ (ih excess hrun)

theorem get_some (h : store.get id = some run) : run ∈ store.runs ∧ run.id = id := KeyedList.find_some h

theorem WellFormed.get (hstore : store.WellFormed) (h : store.get id = some run) : run.WellFormed :=
  hstore.runs run (get_some h).1

theorem set_set {first : CampaignRun} (hid : first.id = run.id) : (store.set first).set run = store.set run := by
  unfold set
  dsimp only
  rw [hid, KeyedList.replace_replace hid]

/-- The next snapshot holds a saved run, and else only what was there. Nothing is
lost but settled runs. -/
structure Writes (store next : CampaignRunStore) (saved : CampaignRun) : Prop where
  version : next.version = store.version
  unique : KeyedList.Unique CampaignRun.id next.runs
  mem : ∀ run ∈ next.runs, run = saved ∨ run ∈ store.runs
  stored : saved.is_settled = false → next.get saved.id = some saved
  kept : ∀ id run, id ≠ saved.id → store.get id = some run → run.is_settled = false → next.get id = some run
  origin : ∀ id run, next.get id = some run → (id = saved.id ∧ run = saved) ∨ (id ≠ saved.id ∧ store.get id = some run)

theorem Writes.prune {next : CampaignRunStore} (hwrites : store.Writes next run) : store.Writes next.prune run := by
  have hsublist := retain_sublist (next.runs.countP CampaignRun.is_settled - MAX_TERMINAL_RUNS) next.runs
  have hunique : KeyedList.Unique CampaignRun.id next.prune.runs :=
    List.Nodup.sublist (hsublist.map CampaignRun.id) hwrites.unique
  have hget : ∀ id other, next.get id = some other → other.is_settled = false → next.prune.get id = some other := by
    intro id other hother hopen
    obtain ⟨hmem, rfl⟩ := get_some hother
    exact hunique.find_of_mem (mem_retain _ hmem hopen)
  refine ⟨hwrites.version, hunique, fun other hother => hwrites.mem other (hsublist.subset hother), fun hopen => ?_,
    fun id other hne hother hopen => ?_, fun id other hother => ?_⟩
  · exact hget run.id run (hwrites.stored hopen) hopen
  · exact hget id other (hwrites.kept id other hne hother hopen) hopen
  · obtain ⟨hmem, rfl⟩ := get_some hother
    exact hwrites.origin other.id other (hwrites.unique.find_of_mem (hsublist.subset hmem))

theorem writes_set (hunique : KeyedList.Unique CampaignRun.id store.runs) (hget : store.get run.id = some old) :
    store.Writes (store.set run) run := by
  have hself : (store.set run).get run.id = some run := KeyedList.find_replace_self rfl hget
  have hother : ∀ id, id ≠ run.id → (store.set run).get id = store.get id :=
    fun id hne => KeyedList.find_replace_of_ne rfl hne
  refine ⟨rfl, hunique.replace rfl, fun other hmem => KeyedList.mem_replace hmem, fun _ => hself,
    fun id other hne hget _ => (hother id hne).trans hget, fun id other hget => ?_⟩
  by_cases hid : id = run.id
  · rw [hid, hself, Option.some.injEq] at hget
    exact Or.inl ⟨hid, hget.symm⟩
  · exact Or.inr ⟨hid, (hother id hid).symm.trans hget⟩

theorem writes_insert (hunique : KeyedList.Unique CampaignRun.id store.runs) (hfresh : store.get run.id = none) :
    store.Writes (store.insert run) run := by
  refine Writes.prune ⟨rfl, hunique.append hfresh, fun other hother => ?_, fun _ => ?_, fun id other hne hget _ => ?_,
    fun id other hget => ?_⟩
  · rcases List.mem_append.mp hother with hother | hother
    · exact Or.inr hother
    · exact Or.inl (List.mem_singleton.mp hother)
  · exact KeyedList.find_append_self hfresh rfl
  · exact (KeyedList.find_append_of_ne (Ne.symm hne)).trans hget
  · by_cases hid : id = run.id
    · have hself : KeyedList.find CampaignRun.id id (store.runs ++ [run]) = some run := by
        rw [hid]
        exact KeyedList.find_append_self hfresh rfl
      exact Or.inl ⟨hid, Option.some.inj (hget.symm.trans hself)⟩
    · exact Or.inr ⟨hid, (KeyedList.find_append_of_ne (Ne.symm hid)).symm.trans hget⟩

theorem Writes.wellFormed {next : CampaignRunStore} (hwrites : store.Writes next run) (hstore : store.WellFormed)
    (hrun : run.WellFormed) : next.WellFormed where
  version := hwrites.version.trans hstore.version
  unique := hwrites.unique
  runs := fun other hother => (hwrites.mem other hother).elim (fun h => h ▸ hrun) (hstore.runs other)

end CampaignRunStore

end

end asmodeus.control_plane
