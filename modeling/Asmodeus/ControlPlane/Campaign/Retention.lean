import Asmodeus.ControlPlane.CampaignExecution
import Asmodeus.Lib.Transition

open asmodeus.common asmodeus.telemetry

namespace asmodeus.control_plane

open campaign_run

/-- What a campaign worker commits to its stored run. -/
inductive WorkerCommit
  | cancel
  | intend (stage : Stage)
  | withdraw
  | record (stage : Stage) (audit : Option AuditRecord) (outcome cancelled last : Bool)
  | complete

def WorkerCommit.change : WorkerCommit → CampaignRun → CampaignRun
  | .cancel => CampaignRun.cancel
  | .intend stage => CampaignRun.intend stage
  | .withdraw => CampaignRun.withdraw
  | .record stage audit outcome cancelled last =>
    let result := stage.result audit
    CampaignRun.record result (verdict outcome result.status cancelled last)
  | .complete => CampaignRun.complete

/-- The transactions of the control plane on its stored campaign runs. -/
inductive StoreTransaction
  | launch (id : String) (campaign : Campaign) (role : Role) (target_override : Option String)
    (timeout_sec : Option UInt32) (now : String)
  | resume (audit : AuditStore) (id now : String)
  | commit (id now : String) (work : WorkerCommit)
  | restart (now : String)

namespace CampaignRunStore

/-- A launched run has an id that no stored run has. -/
def step (self : CampaignRunStore) : StoreTransaction → Option CampaignRunStore
  | .launch id campaign role target_override timeout_sec now =>
    if self.get id = none then
      some (self.insert (.queued id campaign role target_override timeout_sec now))
    else none
  | .resume audit id now => some (prepare_resume self audit id now).2
  | .commit id now work => match self.update id now work.change with
    | .error _ => none
    | .ok (_, next) => some next
  | .restart now => some (self.recover_interrupted now)

/-- The snapshots the transactions lead to from the empty one. -/
def Reachable (store : CampaignRunStore) : Prop := Transition.Reachable step (· = .default) store

/-- The runs that stand after one, which are those created after it. -/
def later (self : CampaignRunStore) (id : String) : List CampaignRun :=
  (self.runs.dropWhile fun run => decide (run.id ≠ id)).tail

section

variable {store next : CampaignRunStore} {run old saved : CampaignRun} {id now : String}

theorem retain_zero (runs : List CampaignRun) : retain 0 runs = runs := by
  induction runs with
  | nil => rfl
  | cons head rest ih => rw [retain, if_neg (by omega), ih]

/-- The runs in front use the excess up first. -/
theorem retain_append (excess : Nat) (before after : List CampaignRun) : retain excess (before ++ after) =
    retain excess before ++ retain (excess - before.countP CampaignRun.is_settled) after := by
  induction before generalizing excess with
  | nil => rfl
  | cons head rest ih =>
    rw [List.cons_append, retain, retain, ih, ih]
    by_cases hsettled : head.is_settled = true
    · rw [List.countP_cons_of_pos hsettled]
      cases excess with
      | zero => simp
      | succ excess => simp [hsettled]
    · rw [List.countP_cons_of_neg hsettled, if_neg (fun h => hsettled h.2), if_neg (fun h => hsettled h.2)]
      rfl

theorem countP_retain (excess : Nat) (runs : List CampaignRun) :
    (retain excess runs).countP CampaignRun.is_settled = runs.countP CampaignRun.is_settled - excess := by
  induction runs generalizing excess with
  | nil => simp [retain]
  | cons head rest ih =>
    rw [retain]
    by_cases hsettled : head.is_settled = true
    · rw [List.countP_cons_of_pos hsettled]
      split
      · rw [ih]
        omega
      · rw [List.countP_cons_of_pos hsettled, ih]
        simp only [hsettled, and_true, Nat.not_lt, Nat.le_zero] at *
        omega
    · rw [if_neg (fun h => hsettled h.2), List.countP_cons_of_neg hsettled, List.countP_cons_of_neg hsettled, ih]

theorem prune_of_le (hroom : store.runs.countP CampaignRun.is_settled ≤ MAX_TERMINAL_RUNS) : store.prune = store := by
  unfold prune
  dsimp only
  rw [Nat.sub_eq_zero_of_le hroom, retain_zero]

theorem prune_bounded (store : CampaignRunStore) :
    store.prune.runs.countP CampaignRun.is_settled ≤ MAX_TERMINAL_RUNS := by
  unfold prune
  dsimp only
  rw [countP_retain]
  omega

/-- A settled run stays exactly if the excess is used up in front of it. -/
theorem mem_retain_iff {excess : Nat} {before after : List CampaignRun} (hsettled : run.is_settled = true)
    (hbefore : run ∉ before) (hafter : run ∉ after) :
    run ∈ retain excess (before ++ run :: after) ↔ excess ≤ before.countP CampaignRun.is_settled := by
  rw [retain_append, List.mem_append, retain]
  have hfront : run ∉ retain excess before := fun h => hbefore ((retain_sublist _ _).subset h)
  split
  · rename_i hexcess
    have hback : ∀ rest, run ∉ retain rest after := fun _ h => hafter ((retain_sublist _ _).subset h)
    simp only [hfront, hback, or_self, false_iff]
    omega
  · rename_i hexcess
    simp only [hsettled, and_true, Nat.not_lt] at hexcess
    simp only [hfront, false_or, List.mem_cons_self, true_iff]
    omega

/-- A found run has the runs created after it behind it. -/
theorem get_split (hget : store.get id = some old) : ∃ before, store.runs = before ++ old :: store.later id ∧
    (∀ b ∈ before, b.id ≠ id) ∧ old.id = id ∧
      ∀ run, run.id = id → (store.set run).runs = before ++ run :: store.later id := by
  obtain ⟨before, after, hsplit, hbefore, hold, hreplace⟩ := KeyedList.find_split hget
  have hlater : store.later id = after := by
    unfold later
    rw [hsplit, List.dropWhile_append_of_pos (by simpa using hbefore), List.dropWhile_cons_of_neg (by simp [hold])]
    rfl
  rw [hlater]
  exact ⟨before, hsplit, hbefore, hold, fun run hrun => by rw [set, hrun]; exact hreplace run⟩

/-- The run that has just settled outlives the pruning exactly if few settled runs
were created after it. -/
theorem get_prune_set (hunique : KeyedList.Unique CampaignRun.id store.runs) (hget : store.get saved.id = some old)
    (hsettled : saved.is_settled = true) : (store.set saved).prune.get saved.id = some saved ↔
      (store.later saved.id).countP CampaignRun.is_settled < MAX_TERMINAL_RUNS := by
  obtain ⟨before, -, hbefore, -, hset⟩ := get_split hget
  have hset := hset saved rfl
  have huniq : KeyedList.Unique CampaignRun.id (store.set saved).runs := hunique.replace rfl
  have hpruned : (store.set saved).prune.get saved.id = some saved ↔ saved ∈ (store.set saved).prune.runs := by
    refine ⟨fun h => (get_some h).1, fun h => ?_⟩
    exact KeyedList.Unique.find_of_mem (List.Nodup.sublist ((retain_sublist _ _).map CampaignRun.id) huniq) h
  have hfront : saved ∉ before := fun h => hbefore saved h rfl
  have hback : saved ∉ store.later saved.id := by
    intro h
    rw [hset] at huniq
    unfold KeyedList.Unique at huniq
    rw [List.map_append, List.map_cons] at huniq
    exact (List.nodup_cons.mp (List.nodup_append.mp huniq).2.1).1 (List.mem_map_of_mem h)
  rw [hpruned]
  unfold prune
  dsimp only
  rw [hset, mem_retain_iff hsettled hfront hback, List.countP_append, List.countP_cons_of_pos hsettled]
  unfold MAX_TERMINAL_RUNS
  omega

theorem change_id (work : WorkerCommit) (run : CampaignRun) : (work.change run).id = run.id := by
  cases work with
  | cancel | intend | complete => rfl
  | withdraw => exact CampaignRun.set_last_id _ _
  | record => exact CampaignRun.set_last_id _ _

theorem commit_ok {work : WorkerCommit} (h : store.update id now work.change = .ok (saved, next)) :
    saved.id = id ∧ (∃ run, store.get saved.id = some run) ∧ next = (store.set saved).prune := by
  unfold update at h
  split at h
  · cases h
  · rename_i run hget
    simp only [Except.ok.injEq, Prod.mk.injEq] at h
    obtain ⟨rfl, rfl⟩ := h
    have hid := (change_id work run).trans (get_some hget).2
    exact ⟨hid, ⟨run, by rw [← hget, ← hid]⟩, rfl⟩

theorem begin_resume_cases (store : CampaignRunStore) (id now : String) :
    (store.begin_resume id now).2 = store ∨ ∃ run, run.id = id ∧ (store.begin_resume id now).2 = store.set run := by
  unfold begin_resume
  split
  · exact Or.inl rfl
  · rename_i run hget
    split
    · exact Or.inr ⟨run.requeue now, (run.requeue_id now).trans (get_some hget).2, rfl⟩
    · exact Or.inl rfl

theorem prepare_resume_cases (store : CampaignRunStore) (audit : AuditStore) (id now : String) :
    (prepare_resume store audit id now).2 = store ∨
      ∃ run, run.id = id ∧ (prepare_resume store audit id now).2 = store.set run := by
  unfold prepare_resume
  split
  · exact Or.inl rfl
  · rename_i current hget
    split
    · exact Or.inl rfl
    · split
      · split
        · exact Or.inl rfl
        · rename_i stored _
          have hid : (current.set_last fun _ => stored).id = id := (current.set_last_id _).trans (get_some hget).2
          obtain hsame | ⟨run, hrun, hset⟩ := begin_resume_cases (store.set (current.set_last fun _ => stored)) id now
          · exact Or.inr ⟨_, hid, hsame⟩
          · exact Or.inr ⟨run, hrun, by rw [hset, set_set (hid.trans hrun.symm)]⟩
      · exact begin_resume_cases store id now

theorem unique_preserved : Transition.Preserved step fun store => KeyedList.Unique CampaignRun.id store.runs := by
  intro store transaction next hunique hstep
  cases transaction with
  | launch id campaign role target_override timeout_sec now =>
    obtain ⟨hfresh, hnext⟩ := Option.ite_none_right_eq_some.mp hstep
    cases hnext
    exact (writes_insert hunique hfresh).unique
  | resume audit id now =>
    obtain rfl := Option.some.inj hstep
    obtain hsame | ⟨run, -, hset⟩ := prepare_resume_cases store audit id now
    · rw [hsame]
      exact hunique
    · rw [hset]
      exact hunique.replace rfl
  | commit id now work =>
    simp only [step] at hstep
    split at hstep
    · cases hstep
    · rename_i saved _ hupdate
      cases hstep
      obtain ⟨-, ⟨run, hget⟩, rfl⟩ := commit_ok hupdate
      exact (writes_set hunique hget).prune.unique
  | restart now =>
    cases hstep
    exact hunique.map_entries (CampaignRun.recover_id now)

theorem Reachable.unique (hreach : store.Reachable) : KeyedList.Unique CampaignRun.id store.runs := by
  refine Transition.Reachable.invariant (fun start hstart => ?_) unique_preserved hreach
  subst hstart
  exact KeyedList.unique_nil

/-- What a pruning keeps of a snapshot: every run that is not settled, the order, and
no more settled runs than allowed. -/
structure Pruned (store next : CampaignRunStore) (id : String) : Prop where
  kept : ∀ run ∈ store.runs, run.id ≠ id → run.status ∈ [QUEUED, RUNNING, INTERRUPTED, CANCELLED] →
    next.get run.id = some run
  ordered : (next.runs.map CampaignRun.id).Sublist (store.runs.map CampaignRun.id)
  bounded : next.runs.countP CampaignRun.is_settled ≤ MAX_TERMINAL_RUNS

theorem not_settled (hstatus : run.status ∈ [QUEUED, RUNNING, INTERRUPTED, CANCELLED]) : run.is_settled = false := by
  unfold CampaignRun.is_settled
  simp only [List.mem_cons, List.not_mem_nil, or_false] at hstatus
  obtain h | h | h | h := hstatus <;> rw [h] <;> decide

theorem pruned_set (hunique : KeyedList.Unique CampaignRun.id store.runs) (hget : store.get saved.id = some old) :
    store.Pruned (store.set saved).prune saved.id where
  kept := fun run hrun hne hstatus =>
    ((writes_set hunique hget).prune).kept run.id run hne (hunique.find_of_mem hrun) (not_settled hstatus)
  ordered := by
    have hids : (store.set saved).runs.map CampaignRun.id = store.runs.map CampaignRun.id :=
      KeyedList.map_replace rfl
    rw [← hids]
    exact (retain_sublist _ _).map CampaignRun.id
  bounded := prune_bounded _

end

/-- A snapshot with some runs. -/
def holding (runs : List CampaignRun) : CampaignRunStore := ⟨snapshot_version, runs⟩

section

variable (before : List CampaignRun) {after : List CampaignRun} {run : CampaignRun} {now : String}

theorem update_middle {change : CampaignRun → CampaignRun} (hid : (change run).id = run.id)
    (hbefore : ∀ b ∈ before, b.id ≠ run.id) :
    (holding (before ++ run :: after)).update run.id now change =
      .ok ({ change run with updated_utc := now },
        (holding (before ++ { change run with updated_utc := now } :: after)).prune) := by
  have hget : (holding (before ++ run :: after)).get run.id = some run := KeyedList.find_middle hbefore rfl
  unfold update
  rw [hget]
  unfold set
  dsimp only [holding]
  rw [hid, KeyedList.replace_middle hbefore rfl]

theorem Reachable.commit (work : WorkerCommit) (hreach : (holding (before ++ run :: after)).Reachable)
    (hbefore : ∀ b ∈ before, b.id ≠ run.id) (now : String)
    (hroom : (before ++ { work.change run with updated_utc := now } :: after).countP CampaignRun.is_settled ≤
      MAX_TERMINAL_RUNS) :
    (holding (before ++ { work.change run with updated_utc := now } :: after)).Reachable := by
  have hstep : (holding (before ++ run :: after)).step (.commit run.id now work) =
      some (holding (before ++ { work.change run with updated_utc := now } :: after)) := by
    simp only [step]
    rw [update_middle before (change_id work run) hbefore]
    exact congrArg some (prune_of_le hroom)
  exact Transition.Reachable.step hreach hstep

end

/-- Ids for as many runs as one likes. -/
def crowd_id (n : Nat) : String := String.ofList (List.replicate n '1')

theorem crowd_id_inj {m n : Nat} (h : crowd_id m = crowd_id n) : m = n := by
  have hlength := congrArg (fun s : String => s.toList.length) h
  simpa [crowd_id] using hlength

/-- A campaign of one stage, which the executions refuse. -/
def short_campaign : Campaign := ⟨"CAMP-SHORT", "Short", "", [⟨1, "C2_BEACONING_SIMULATION"⟩]⟩

def short_stage : Stage := ⟨⟨1, "C2_BEACONING_SIMULATION"⟩, "refused"⟩

def refusal : WorkerCommit := .record short_stage none false false false

def short_run (n : Nat) : CampaignRun := .queued (crowd_id n) short_campaign .Admin none none "launched"

/-- A run whose worker is about to record the refused stage, and one whose worker has. -/
def attempted (run : CampaignRun) : CampaignRun :=
  { (WorkerCommit.intend short_stage).change run with updated_utc := "attempted" }

def refused (run : CampaignRun) : CampaignRun :=
  { refusal.change (attempted run) with updated_utc := "refused" }

section

variable {runs : List CampaignRun} {run : CampaignRun} {n : Nat}

theorem attempted_settled (run : CampaignRun) : (attempted run).is_settled = false := by
  change [COMPLETED, FAILED].contains RUNNING = false
  decide

theorem refused_status (run : CampaignRun) : (refused run).status = FAILED := by
  rfl

theorem refused_id (run : CampaignRun) : (refused run).id = run.id := by
  exact CampaignRun.set_last_id _ _

theorem Reachable.launched_run (hreach : (holding runs).Reachable) (hfresh : ∀ run ∈ runs, run.id ≠ crowd_id n)
    (hroom : runs.countP CampaignRun.is_settled ≤ MAX_TERMINAL_RUNS) :
    (holding (runs ++ [short_run n])).Reachable := by
  have hget : (holding runs).get (crowd_id n) = none := KeyedList.find_eq_none.mpr hfresh
  have hopen : (short_run n).is_settled = false := by
    change [COMPLETED, FAILED].contains QUEUED = false
    decide
  have hcount : (runs ++ [short_run n]).countP CampaignRun.is_settled ≤ MAX_TERMINAL_RUNS := by
    simpa [List.countP_append, hopen] using hroom
  have hstep : (holding runs).step (.launch (crowd_id n) short_campaign .Admin none none "launched") =
      some (holding (runs ++ [short_run n])) := by
    simp only [step, hget, if_true]
    exact congrArg some (prune_of_le hcount)
  exact Transition.Reachable.step hreach hstep

/-- A new short run that fails joins the snapshot where there is room for it. -/
theorem Reachable.refused_run (hreach : (holding runs).Reachable) (hfresh : ∀ run ∈ runs, run.id ≠ crowd_id n)
    (hroom : runs.countP CampaignRun.is_settled < MAX_TERMINAL_RUNS) :
    (holding (runs ++ [refused (short_run n)])).Reachable := by
  have hlaunched := hreach.launched_run hfresh hroom.le
  have hattempted : (holding (runs ++ [attempted (short_run n)])).Reachable := by
    refine hlaunched.commit _ (.intend short_stage) hfresh "attempted" ?_
    change (runs ++ [attempted (short_run n)]).countP _ ≤ _
    simp [List.countP_append, attempted_settled]
    omega
  refine hattempted.commit _ refusal hfresh "refused" ?_
  change (runs ++ [refused (short_run n)]).countP _ ≤ _
  rw [List.countP_append]
  have hone : [refused (short_run n)].countP CampaignRun.is_settled ≤ 1 := List.countP_le_length
  omega

/-- Any number of short runs that fail, up to the room there is. -/
theorem Reachable.crowd (hreach : (holding runs).Reachable) (hfresh : ∀ run ∈ runs, ∀ n, run.id ≠ crowd_id (n + 1))
    (hroom : runs.countP CampaignRun.is_settled + n ≤ MAX_TERMINAL_RUNS) :
    (holding (runs ++ (List.range n).map fun k => refused (short_run (k + 1)))).Reachable := by
  induction n with
  | zero => simpa using hreach
  | succ n ih =>
    rw [List.range_succ, List.map_append, ← List.append_assoc]
    refine (ih (by omega)).refused_run (fun other hother => ?_) ?_
    · obtain hother | hother := List.mem_append.mp hother
      · exact hfresh other hother n
      · obtain ⟨k, hk, rfl⟩ := List.mem_map.mp hother
        rw [refused_id]
        intro hid
        have hk := List.mem_range.mp hk
        have hsame := crowd_id_inj hid
        omega
    · rw [List.countP_append]
      have hcrowd := List.countP_le_length (p := CampaignRun.is_settled)
        (l := (List.range n).map fun k => refused (short_run (k + 1)))
      rw [List.length_map, List.length_range] at hcrowd
      omega

end

theorem no_runs (id : String) : ∀ run ∈ ([] : List CampaignRun), run.id ≠ id := fun _ h => absurd h List.not_mem_nil

theorem first_launched : (holding [short_run 0]).Reachable :=
  Reachable.launched_run (Transition.Reachable.of_init rfl) (no_runs _) (by decide)

/-- A short run that is cancelled before its stage. -/
def cancelled_run : CampaignRun := { CampaignRun.cancel (short_run 0) with updated_utc := "cancelled" }

theorem resume_cancelled (runs : List CampaignRun) : (holding (cancelled_run :: runs)).step
    (.resume ⟨.new, .default, none⟩ (crowd_id 0) "resumed") =
      some (holding (cancelled_run.requeue "resumed" :: runs)) := by
  rfl

/-- As many failed runs as a snapshot keeps. -/
def crowd : List CampaignRun := (List.range MAX_TERMINAL_RUNS).map fun k => refused (short_run (k + 1))

theorem crowd_settled : crowd.countP CampaignRun.is_settled = MAX_TERMINAL_RUNS := by
  have hall : crowd.countP CampaignRun.is_settled = crowd.length := by
    refine List.countP_eq_length.mpr fun run hrun => ?_
    obtain ⟨k, -, rfl⟩ := List.mem_map.mp hrun
    unfold CampaignRun.is_settled
    rw [refused_status]
    decide
  rw [hall, crowd, List.length_map, List.length_range]

/-- The cancelled run is resumed and at work again, with the crowd behind it. -/
def crowded : CampaignRunStore := holding (attempted (cancelled_run.requeue "resumed") :: crowd)

theorem crowded_reachable : crowded.Reachable := by
  have hcancelled : (holding [cancelled_run]).Reachable :=
    first_launched.commit [] .cancel (no_runs _) "cancelled" (by decide)
  have hnames : ∀ run ∈ [cancelled_run], ∀ n, run.id ≠ crowd_id (n + 1) := by
    intro run hrun n hid
    rw [List.mem_singleton.mp hrun] at hid
    exact absurd (crowd_id_inj hid) (by omega)
  have hcrowded : (holding (cancelled_run :: crowd)).Reachable := hcancelled.crowd hnames (by decide)
  have hresumed : (holding (cancelled_run.requeue "resumed" :: crowd)).Reachable :=
    Transition.Reachable.step hcrowded (resume_cancelled crowd)
  refine Reachable.commit [] (.intend short_stage) hresumed (no_runs _) "attempted" ?_
  change (attempted (cancelled_run.requeue "resumed") :: crowd).countP _ ≤ _
  rw [List.countP_cons_of_neg (by simp [attempted_settled]), crowd_settled]

/-- Whenever a worker settles its run, the pruning keeps all but the oldest settled
runs, and the run itself exactly if fewer settled runs than allowed were created
after it. -/
theorem settling_retention {store next : CampaignRunStore} {saved : CampaignRun} {id now : String} {work : WorkerCommit}
    (hreach : store.Reachable)
    (hupdate : store.update id now work.change = .ok (saved, next))
    (hsettled : saved.status = COMPLETED ∨ saved.status = FAILED) :
    store.Pruned next id ∧
      (next.get id = some saved ↔ (store.later id).countP CampaignRun.is_settled < MAX_TERMINAL_RUNS) := by
  obtain ⟨rfl, ⟨run, hget⟩, rfl⟩ := commit_ok hupdate
  have hsettled : saved.is_settled = true := by
    unfold CampaignRun.is_settled
    obtain h | h := hsettled <;> rw [h] <;> decide
  exact ⟨pruned_set hreach.unique hget, get_prune_set hreach.unique hget hsettled⟩

/-- The crowd with a run at work that was created after it. -/
def filled : CampaignRunStore := holding (crowd ++ [attempted (short_run 0)])

theorem crowd_fresh : ∀ run ∈ crowd, run.id ≠ crowd_id 0 := by
  intro run hrun hid
  obtain ⟨k, -, rfl⟩ := List.mem_map.mp hrun
  rw [refused_id] at hid
  exact absurd (crowd_id_inj hid) (by omega)

theorem filled_reachable : filled.Reachable := by
  have hempty : (holding []).Reachable := Transition.Reachable.of_init rfl
  have hcrowd : (holding ([] ++ crowd)).Reachable :=
    hempty.crowd (fun _ h => absurd h List.not_mem_nil) (by decide : 0 + MAX_TERMINAL_RUNS ≤ MAX_TERMINAL_RUNS)
  rw [List.nil_append] at hcrowd
  refine (hcrowd.launched_run crowd_fresh crowd_settled.le).commit crowd (.intend short_stage) crowd_fresh
    "attempted" ?_
  change (crowd ++ [attempted (short_run 0)]).countP _ ≤ _
  rw [List.countP_append, crowd_settled, List.countP_cons_of_neg (by simp [attempted_settled]), List.countP_nil,
    Nat.add_zero]

theorem crowd_eq : crowd = refused (short_run 1) :: (List.range 199).map fun k => refused (short_run (k + 2)) := by
  rw [crowd, MAX_TERMINAL_RUNS, List.range_succ_eq_map, List.map_cons, List.map_map]
  rfl

/-- The run at work fails, and the oldest of the crowd makes room for it. -/
theorem refused_run_retained : ∃ saved next,
    filled.update (crowd_id 0) "refused" refusal.change = .ok (saved, next) ∧ filled.Pruned next (crowd_id 0) ∧
      next.get (crowd_id 0) = some saved ∧ (filled.get (crowd_id 1)).isSome = true ∧ next.get (crowd_id 1) = none := by
  have hupdate : filled.update (crowd_id 0) "refused" refusal.change =
      .ok (refused (short_run 0), (holding (crowd ++ [refused (short_run 0)])).prune) :=
    update_middle crowd (change_id refusal (attempted (short_run 0))) crowd_fresh
  obtain ⟨hpruned, hkept⟩ := settling_retention filled_reachable hupdate (Or.inr rfl)
  have holdest : (refused (short_run 1)).id = crowd_id 1 := refused_id _
  have hsettled : (refused (short_run 1)).is_settled = true := by
    unfold CampaignRun.is_settled
    rw [refused_status]
    decide
  have hlater : filled.later (crowd_id 0) = [] := by
    rw [later, filled, holding, List.dropWhile_append_of_pos (by simpa using crowd_fresh)]
    rfl
  refine ⟨_, _, hupdate, hpruned, hkept.mpr (by rw [hlater]; decide), ?_, ?_⟩
  · rw [filled, crowd_eq]
    exact KeyedList.find_isSome.mpr (holdest ▸ List.mem_map_of_mem List.mem_cons_self)
  · have hcount : (crowd ++ [refused (short_run 0)]).countP CampaignRun.is_settled = MAX_TERMINAL_RUNS + 1 := by
      rw [List.countP_append, crowd_settled]
      rfl
    have hruns : (holding (crowd ++ [refused (short_run 0)])).prune.runs =
        ((List.range 199).map fun k => refused (short_run (k + 2))) ++ [refused (short_run 0)] := by
      unfold prune
      dsimp only [holding]
      rw [hcount, Nat.add_sub_cancel_left, crowd_eq, List.cons_append, retain, if_pos ⟨Nat.one_pos, hsettled⟩,
        retain_zero]
    refine KeyedList.find_eq_none.mpr fun run hrun hid => ?_
    rw [hruns] at hrun
    rcases List.mem_append.mp hrun with hrun | hrun
    · obtain ⟨k, -, rfl⟩ := List.mem_map.mp hrun
      rw [refused_id] at hid
      exact absurd (crowd_id_inj hid) (by omega)
    · obtain rfl := List.mem_singleton.mp hrun
      rw [refused_id] at hid
      exact absurd (crowd_id_inj hid) (by omega)

/-- The run at work fails behind the crowd, and nothing of it is left. -/
theorem resumed_run_forgotten : crowded.Reachable ∧ ∃ saved next,
    crowded.update (crowd_id 0) "refused" refusal.change = .ok (saved, next) ∧ saved.status = FAILED ∧
      next.get (crowd_id 0) = none := by
  let saved := refused (cancelled_run.requeue "resumed")
  have hget : crowded.get saved.id = some (attempted (cancelled_run.requeue "resumed")) := rfl
  have hsettled : saved.is_settled = true := by
    unfold CampaignRun.is_settled
    rw [refused_status]
    decide
  have hlater : crowded.later saved.id = crowd := rfl
  have hlost : ¬(crowded.set saved).prune.get saved.id = some saved := by
    rw [get_prune_set crowded_reachable.unique hget hsettled, hlater, crowd_settled]
    omega
  refine ⟨crowded_reachable, saved, (crowded.set saved).prune, rfl, rfl, ?_⟩
  refine Option.eq_none_iff_forall_ne_some.mpr fun other hother => ?_
  obtain ⟨-, rfl⟩ | ⟨hne, -⟩ := (writes_set crowded_reachable.unique hget).prune.origin _ other hother
  · exact hlost hother
  · exact hne rfl

end CampaignRunStore

end asmodeus.control_plane
