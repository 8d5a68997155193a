import Asmodeus.ControlPlane.CampaignExecution

open asmodeus.common asmodeus.telemetry

namespace asmodeus.control_plane

open campaign_run

namespace CampaignRun

/-- A run between two stages. -/
structure Ready (run : CampaignRun) : Prop where
  status : run.status = QUEUED ∨ run.status = RUNNING
  done : ∀ result ∈ run.step_results, result.status = COMPLETED

/-- A run whose last result is the intent of a stage. -/
structure Attempting (run : CampaignRun) (stage : Stage) : Prop where
  status : run.status = RUNNING
  results : ∃ finished, run.step_results = finished ++ [stage.pending] ∧
    ∀ result ∈ finished, result.status = COMPLETED

section

variable {run saved : CampaignRun} {stage : Stage} {now : String}

theorem Ready.open_run (h : run.Ready) : run.is_settled = false := by
  unfold is_settled
  obtain h | h := h.status <;> rw [h] <;> decide

theorem Attempting.open_run (h : run.Attempting stage) : run.is_settled = false := by
  unfold is_settled
  rw [h.status]
  decide

/-- Progress that has not been completed as a whole. -/
theorem WellFormed.of_open (h : run.WellFormed) (status : String) (hstatus : saved.status = status)
    (hmem : status ∈ STATUSES) (hopen : status ≠ COMPLETED) (hid : saved.id = run.id) (hsteps : saved.steps = run.steps)
    (haligned : saved.step_results.map CampaignStepResult.step <+: run.steps)
    (hprogress : ∀ result ∈ saved.step_results.dropLast, result.status = COMPLETED) : saved.WellFormed where
  id := hid ▸ h.id
  planned := hsteps ▸ h.planned
  status := hstatus ▸ hmem
  aligned := hsteps ▸ haligned
  progress := hprogress
  completed hcompleted := absurd (hstatus.symm.trans hcompleted) hopen

theorem dropLast_done {results : List CampaignStepResult} (hdone : ∀ result ∈ results, result.status = COMPLETED) :
    ∀ result ∈ results.dropLast, result.status = COMPLETED :=
  fun result hresult => hdone result (List.mem_of_mem_dropLast hresult)

theorem set_last_concat {finished : List CampaignStepResult} {last : CampaignStepResult}
    (h : run.step_results = finished ++ [last]) (change : CampaignStepResult → CampaignStepResult) :
    run.set_last change = { run with step_results := finished ++ [change last] } := by
  unfold set_last
  rw [h, List.getLast?_concat, List.dropLast_concat]

theorem set_last_steps (run : CampaignRun) (change : CampaignStepResult → CampaignStepResult) :
    (run.set_last change).steps = run.steps := by
  unfold CampaignRun.set_last
  split <;> rfl

theorem set_last_status (run : CampaignRun) (change : CampaignStepResult → CampaignStepResult) :
    (run.set_last change).status = run.status := by
  unfold CampaignRun.set_last
  split <;> rfl

theorem set_last_results (run other : CampaignRun) (h : run.step_results = other.step_results)
    (change : CampaignStepResult → CampaignStepResult) :
    (run.set_last change).step_results = (other.set_last change).step_results := by
  unfold CampaignRun.set_last
  rw [h]
  split
  · rfl
  · exact h

/-- A new last result about the same step. -/
theorem WellFormed.set_last (h : run.WellFormed) (status : String) (hstatus : saved.status = status)
    (hmem : status ∈ STATUSES) (hopen : status ≠ COMPLETED) (change : CampaignStepResult → CampaignStepResult)
    (hstep : ∀ last, run.step_results.getLast? = some last → (change last).step = last.step)
    (hid : saved.id = run.id) (hsteps : saved.steps = run.steps)
    (hresults : saved.step_results = (run.set_last change).step_results) : saved.WellFormed := by
  have haligned := h.aligned
  have hprogress := h.progress
  obtain hnil | ⟨finished, last, hconcat⟩ := List.eq_nil_or_concat run.step_results
  · have hkept : run.set_last change = run := by
      unfold CampaignRun.set_last
      rw [hnil]
      rfl
    rw [hkept] at hresults
    rw [← hresults] at haligned hprogress
    exact h.of_open status hstatus hmem hopen hid hsteps haligned hprogress
  · rw [List.concat_eq_append] at hconcat
    rw [set_last_concat hconcat] at hresults
    have hlast : (change last).step = last.step := hstep last (by rw [hconcat, List.getLast?_concat])
    rw [hconcat, List.map_append, List.map_singleton] at haligned
    rw [hconcat, List.dropLast_concat] at hprogress
    refine h.of_open status hstatus hmem hopen hid hsteps ?_ ?_
    · rw [hresults, List.map_append, List.map_singleton, hlast]
      exact haligned
    · rw [hresults, List.dropLast_concat]
      exact hprogress

theorem WellFormed.recover (h : run.WellFormed) (now : String) : (run.recover now).WellFormed := by
  unfold CampaignRun.recover
  split
  · exact h
  · refine h.set_last INTERRUPTED rfl (by decide) (by decide) _ (fun last _ => ?_) (run.interrupt_id now)
      (run.set_last_steps _) rfl
    split <;> rfl

theorem WellFormed.cancel (h : run.WellFormed) (hready : run.Ready) :
    ({ run.cancel with updated_utc := now } : CampaignRun).WellFormed :=
  h.of_open CANCELLED rfl (by decide) (by decide) rfl rfl h.aligned (dropLast_done hready.done)

theorem WellFormed.withdraw (h : run.WellFormed) :
    ({ run.withdraw with updated_utc := now } : CampaignRun).WellFormed :=
  h.set_last CANCELLED (set_last_status _ _) (by decide) (by decide)
    (fun last => { last with status := CANCELLED, run_id := "" }) (fun _ _ => rfl) (set_last_id _ _)
    (set_last_steps _ _) (set_last_results { run with status := CANCELLED } run rfl _)

theorem aligned_concat {steps : List CampaignStep} {results : List CampaignStepResult} {result : CampaignStepResult}
    (haligned : results.map CampaignStepResult.step <+: steps) (hnext : steps[results.length]? = some result.step) :
    (results ++ [result]).map CampaignStepResult.step <+: steps := by
  rw [List.map_append, List.map_singleton]
  obtain ⟨rest, rfl⟩ := haligned
  rw [List.getElem?_append_right (by rw [List.length_map])] at hnext
  rw [List.length_map, Nat.sub_self] at hnext
  cases rest with
  | nil => cases hnext
  | cons head rest =>
    obtain rfl := Option.some.inj hnext
    exact ⟨rest, by rw [List.append_assoc]; rfl⟩

theorem WellFormed.intend (h : run.WellFormed) (hready : run.Ready)
    (hstep : run.steps[run.next_step]? = some stage.step) :
    ({ run.intend stage with updated_utc := now } : CampaignRun).WellFormed := by
  refine h.of_open RUNNING rfl (by decide) (by decide) rfl rfl (aligned_concat h.aligned hstep) ?_
  change ∀ result ∈ (run.step_results ++ [stage.pending]).dropLast, _
  rw [List.dropLast_concat]
  exact hready.done

theorem Ready.intend (hready : run.Ready) :
    ({ run.intend stage with updated_utc := now } : CampaignRun).Attempting stage :=
  ⟨rfl, run.step_results, rfl, hready.done⟩

theorem WellFormed.complete (h : run.WellFormed) (hready : run.Ready) (hdone : run.steps[run.next_step]? = none) :
    ({ run.complete with updated_utc := now } : CampaignRun).WellFormed where
  id := h.id
  planned := h.planned
  status := by
    change COMPLETED ∈ STATUSES
    decide
  aligned := h.aligned
  progress := dropLast_done hready.done
  completed _ := by
    have hlength := h.aligned.length_le
    rw [List.length_map] at hlength
    exact ⟨Nat.le_antisymm hlength (List.getElem?_eq_none_iff.mp hdone), hready.done⟩

/-- What a verdict may rest on. -/
structure Judged (run : CampaignRun) (result : CampaignStepResult) (terminal : String) : Prop where
  status : terminal ∈ STATUSES
  passed : terminal = RUNNING ∨ terminal = COMPLETED → result.status = COMPLETED
  complete : terminal = COMPLETED → run.next_step = run.steps.length

theorem Attempting.record (h : run.Attempting stage) (now : String) (result : CampaignStepResult) (terminal : String) :
    ∃ finished, ({ run.record result terminal with updated_utc := now } : CampaignRun).step_results = finished ++
      [result] ∧
      run.step_results = finished ++ [stage.pending] ∧ ∀ r ∈ finished, r.status = COMPLETED := by
  obtain ⟨finished, hresults, hdone⟩ := h.results
  refine ⟨finished, ?_, hresults, hdone⟩
  change (run.set_last fun _ => result).step_results = _
  rw [set_last_concat hresults]

theorem WellFormed.record (h : run.WellFormed) (hattempting : run.Attempting stage) {result : CampaignStepResult}
    {terminal : String} (hstep : result.step = stage.step) (hjudged : run.Judged result terminal) :
    ({ run.record result terminal with updated_utc := now } : CampaignRun).WellFormed := by
  have hid : (run.record result terminal).id = run.id := set_last_id _ _
  have hsteps : (run.record result terminal).steps = run.steps := set_last_steps _ _
  obtain ⟨finished, hrecorded, hresults, hdone⟩ := hattempting.record now result terminal
  by_cases hterminal : terminal = COMPLETED
  · have hpassed := hjudged.passed (Or.inr hterminal)
    have hcomplete := hjudged.complete hterminal
    have haligned := h.aligned
    have hall : ∀ r ∈ finished ++ [result], r.status = COMPLETED := by
      intro r hr
      obtain hr | hr := List.mem_append.mp hr
      · exact hdone r hr
      · rw [List.mem_singleton.mp hr, hpassed]
    rw [hresults, List.map_append, List.map_singleton] at haligned
    refine ⟨hid ▸ h.id, hsteps ▸ h.planned, hjudged.status, ?_, ?_, fun _ => ⟨?_, ?_⟩⟩
    · rw [hrecorded, List.map_append, List.map_singleton, hstep]
      exact hsteps ▸ haligned
    · rw [hrecorded]
      exact dropLast_done hall
    · rw [hrecorded]
      unfold next_step at hcomplete
      rw [hresults, List.length_append, List.length_singleton] at hcomplete
      rw [List.length_append, List.length_singleton, hcomplete]
      exact congrArg List.length hsteps.symm
    · rw [hrecorded]
      exact hall
  · refine h.set_last terminal rfl hjudged.status hterminal (fun _ => result) (fun last hlast => ?_) hid hsteps rfl
    rw [hresults, List.getLast?_concat] at hlast
    rw [← Option.some.inj hlast, hstep]
    rfl

/-- After a stage that passed the run goes on. -/
theorem Ready.of_record (hattempting : run.Attempting stage) {result : CampaignStepResult}
    (hjudged : run.Judged result RUNNING) : ({ run.record result RUNNING with updated_utc := now } :
      CampaignRun).Ready := by
  obtain ⟨finished, hrecorded, -, hdone⟩ := hattempting.record now result RUNNING
  refine ⟨Or.inr rfl, fun r hr => ?_⟩
  rw [hrecorded] at hr
  obtain hr | hr := List.mem_append.mp hr
  · exact hdone r hr
  · rw [List.mem_singleton.mp hr]
    exact hjudged.passed (Or.inl rfl)

/-- The verdict keeps to the rules. -/
theorem judged_verdict (run : CampaignRun) (result : CampaignStepResult) (outcome cancelled : Bool) :
    run.Judged result (verdict outcome result.status cancelled (decide (run.next_step = run.steps.length))) := by
  unfold verdict
  split
  · exact ⟨by decide, (fun h => absurd h (by decide)), fun h => absurd h (by decide)⟩
  · split
    · exact ⟨by decide, (fun h => absurd h (by decide)), fun h => absurd h (by decide)⟩
    · split
      · exact ⟨by decide, (fun h => absurd h (by decide)), fun h => absurd h (by decide)⟩
      · rename_i hpassed
        rw [not_or, not_not] at hpassed
        split
        · exact ⟨by decide, (fun h => absurd h (by decide)), fun h => absurd h (by decide)⟩
        · split
          · exact ⟨by decide, fun _ => hpassed.1, fun _ => of_decide_eq_true ‹_›⟩
          · exact ⟨by decide, fun _ => hpassed.1, fun h => absurd h (by decide)⟩

theorem requeue_steps (run : CampaignRun) (now : String) : (run.requeue now).steps = run.steps := by
  unfold requeue
  dsimp only
  split
  · split <;> rfl
  · rfl

/-- What a resumed run starts from: an attempt that has not completed is archived. -/
theorem requeue_results (run : CampaignRun) (now : String) :
    ((run.requeue now).step_results = run.step_results ∧ (run.requeue now).superseded_results = run.superseded_results ∧
      ∀ last, run.step_results.getLast? = some last → last.status = COMPLETED) ∨
    ∃ finished last, run.step_results = finished ++ [last] ∧ last.status ≠ COMPLETED ∧
      (run.requeue now).step_results = finished ∧
      (run.requeue now).superseded_results = run.superseded_results ++ [last] := by
  obtain hnil | ⟨finished, last, hconcat⟩ := List.eq_nil_or_concat run.step_results
  · refine Or.inl ?_
    unfold requeue
    rw [hnil]
    exact ⟨hnil, rfl, fun last h => by cases h⟩
  · rw [List.concat_eq_append] at hconcat
    unfold requeue
    rw [hconcat, List.getLast?_concat, List.dropLast_concat]
    dsimp only
    split
    · exact Or.inr ⟨finished, last, rfl, ‹_›, rfl, rfl⟩
    · rename_i hdone
      refine Or.inl ⟨hconcat, rfl, fun other hother => ?_⟩
      rw [← Option.some.inj hother]
      exact not_not.mp hdone

theorem Ready.requeue (h : run.WellFormed) (now : String) : (run.requeue now).Ready := by
  refine ⟨Or.inl rfl, ?_⟩
  have hprogress := h.progress
  obtain ⟨hresults, -, hlast⟩ | ⟨finished, last, hconcat, -, hresults, -⟩ := run.requeue_results now
  · rw [hresults]
    intro result hresult
    obtain hnil | ⟨finished, last, hconcat⟩ := List.eq_nil_or_concat run.step_results
    · rw [hnil] at hresult
      cases hresult
    · rw [List.concat_eq_append] at hconcat
      rw [hconcat] at hprogress hlast hresult
      rw [List.dropLast_concat] at hprogress
      obtain hresult | hresult := List.mem_append.mp hresult
      · exact hprogress result hresult
      · rw [List.mem_singleton.mp hresult]
        exact hlast last List.getLast?_concat
  · rw [hresults]
    rwa [hconcat, List.dropLast_concat] at hprogress

theorem WellFormed.requeue (h : run.WellFormed) (now : String) : (run.requeue now).WellFormed := by
  refine h.of_open QUEUED rfl (by decide) (by decide) (run.requeue_id now) (run.requeue_steps now) ?_
    (dropLast_done (Ready.requeue h now).done)
  have haligned := h.aligned
  obtain ⟨hresults, -⟩ | ⟨finished, last, hconcat, -, hresults, -⟩ := run.requeue_results now
  · rwa [hresults]
  · rw [hresults]
    rw [hconcat, List.map_append] at haligned
    exact (List.prefix_append _ _).trans haligned

end

end CampaignRun

section

variable {store next : CampaignRunStore} {audit : AuditStore} {id now : String}

theorem reconcile_ok {last stored : CampaignStepResult} (h : reconcile audit last = .ok stored) :
    stored.step = last.step ∧ stored.run_id = last.run_id := by
  unfold reconcile at h
  split at h
  · dsimp only at h
    split at h
    · cases h
    · split at h
      · cases h
        exact ⟨rfl, rfl⟩
      · cases h
        exact ⟨rfl, rfl⟩
  · split at h
    · cases h
      exact ⟨rfl, rfl⟩
    · cases h

/-- A run as its resume finds it, after a look into the audit. -/
inductive CampaignRun.Reconciled (audit : AuditStore) (run : CampaignRun) : CampaignRun → Prop
  | kept (hdone : ∀ last, run.step_results.getLast? = some last → last.status = COMPLETED) :
      Reconciled audit run run
  | told (finished : List CampaignStepResult) (last stored : CampaignStepResult)
      (hresults : run.step_results = finished ++ [last]) (hopen : last.status ≠ COMPLETED)
      (hstored : reconcile audit last = .ok stored) :
      Reconciled audit run { run with step_results := finished ++ [stored] }

theorem CampaignRun.Reconciled.wellFormed {run reconciled : CampaignRun} (h : run.Reconciled audit reconciled)
    (hrun : run.WellFormed) (hopen : run.status ≠ COMPLETED) : reconciled.WellFormed := by
  cases h with
  | kept => exact hrun
  | told finished last stored hresults _ hstored =>
    refine hrun.set_last run.status rfl hrun.status hopen (fun _ => stored) (fun other hother => ?_) rfl rfl ?_
    · rw [hresults, List.getLast?_concat, Option.some.injEq] at hother
      rw [← hother]
      exact (reconcile_ok hstored).1
    · rw [CampaignRun.set_last_concat hresults]

theorem get_set {run old : CampaignRun} (hid : run.id = id) (hget : store.get id = some old) :
    (store.set run).get id = some run := by
  subst hid
  exact KeyedList.find_replace_self rfl hget

theorem begin_resume_ok {run : CampaignRun} (hget : store.get id = some run) (hresumable : run.is_resumable = true) :
    store.begin_resume id now = (.ok (run.requeue now), store.set (run.requeue now)) := by
  unfold CampaignRunStore.begin_resume
  rw [hget]
  exact if_pos hresumable

/-- A resume fails without a trace, or requeues the reconciled run. -/
theorem prepare_resume_spec {result : Except ResumeError CampaignRun}
    (h : prepare_resume store audit id now = (result, next)) :
    (∃ e, result = .error e ∧ next = store) ∨
      ∃ current reconciled, store.get id = some current ∧ current.is_resumable = true ∧
        current.Reconciled audit reconciled ∧ result = .ok (reconciled.requeue now) ∧
        next = store.set (reconciled.requeue now) := by
  unfold prepare_resume at h
  split at h
  · cases h
    exact Or.inl ⟨_, rfl, rfl⟩
  · rename_i current hget
    split at h
    · cases h
      exact Or.inl ⟨_, rfl, rfl⟩
    · rename_i hresumable
      rw [Bool.not_eq_true, Bool.not_eq_false'] at hresumable
      split at h
      · rename_i last hlast
        obtain ⟨hlast, hopen⟩ := Option.filter_eq_some_iff.mp hlast
        split at h
        · cases h
          exact Or.inl ⟨_, rfl, rfl⟩
        · rename_i stored hstored
          obtain ⟨finished, hresults⟩ := List.getLast?_eq_some_iff.mp hlast
          have hset := CampaignRun.set_last_concat hresults fun _ => stored
          have hid := (CampaignRunStore.get_some hget).2
          have hfound : (store.set (current.set_last fun _ => stored)).get id =
            some (current.set_last fun _ => stored) :=
            get_set ((CampaignRun.set_last_id _ _).trans hid) hget
          have hstill : (current.set_last fun _ => stored).is_resumable = true := by
            unfold CampaignRun.is_resumable
            rw [CampaignRun.set_last_status]
            exact hresumable
          rw [begin_resume_ok hfound hstill, CampaignRunStore.set_set (CampaignRun.requeue_id _ _).symm] at h
          obtain ⟨rfl, rfl⟩ := Prod.mk.inj h
          refine Or.inr ⟨current, _, hget, hresumable, .told finished last stored hresults ?_ hstored, ?_, ?_⟩
          · exact of_decide_eq_true hopen
          · rw [hset]
          · rw [hset]
      · rename_i hlast
        rw [begin_resume_ok hget hresumable] at h
        obtain ⟨rfl, rfl⟩ := Prod.mk.inj h
        refine Or.inr ⟨current, current, hget, hresumable, .kept fun last h => ?_, rfl, rfl⟩
        by_contra hopen
        have hkept : current.step_results.getLast?.filter (fun r => decide (r.status ≠ COMPLETED)) = some last := by
          rw [h, Option.filter_some, if_pos (decide_eq_true hopen)]
        rw [hlast] at hkept
        cases hkept

end

end asmodeus.control_plane
