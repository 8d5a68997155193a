import Asmodeus.ControlPlane.Campaign.Attempts
import Asmodeus.ControlPlane.Execution.Facts

open asmodeus.common asmodeus.telemetry

namespace asmodeus.control_plane

open campaign_run

section

variable {env : Env} {s next : CampaignState} {index : Nat} {w : CampaignWorker} {label : CampaignLabel}
  {attempts : List Attempt} {issued started : List String} {final : String → Prop}

/-- The last result of an attempt carries the id of its stage. -/
theorem CampaignRun.Attempting.last_id {run : CampaignRun} {stage : Stage} (h : run.Attempting stage) :
    run.current_ids.getLast? = some stage.run_id := by
  obtain ⟨finished, -, hids, -⟩ := CampaignRun.Attempting.current_ids h
  rw [hids, List.getLast?_concat]

/-- What a commit of a worker does to the ids of its run. -/
theorem CampaignPhase.Saves.ids {change : CampaignRun → CampaignRun} {phase : CampaignRun → CampaignPhase}
    {saved : CampaignRun} {now : String} (hsaves : w.phase.Saves change phase) (hfits : w.phase.Fits w.run)
    (hsaved : saved = { change w.run with updated_utc := now }) :
    saved.id = w.run.id ∧ saved.superseded_ids = w.run.superseded_ids ∧
      (saved.current_ids = w.run.current_ids ∨
        (∃ stage, w.phase = .intending stage ∧ saved.current_ids = w.run.current_ids ++ [stage.run_id]) ∨
        ∃ finished run_id, w.planned = some run_id ∧ w.run.current_ids = finished ++ [run_id] ∧
          saved.current_ids = finished ++ [""]) := by
  have hkept (change : CampaignStepResult → CampaignStepResult) :
      (w.run.set_last change).superseded_ids = w.run.superseded_ids :=
    congrArg (List.map CampaignStepResult.run_id) (CampaignRun.set_last_superseded w.run change)
  subst hsaved
  unfold CampaignWorker.planned
  generalize w.phase = before at hsaves hfits
  cases hsaves with
  | cancel | complete => exact ⟨rfl, rfl, Or.inl rfl⟩
  | intend stage =>
    refine ⟨rfl, rfl, Or.inr (Or.inl ⟨stage, rfl, ?_⟩)⟩
    rw [CampaignRun.current_ids, CampaignRun.intend, List.map_append, List.map_singleton]
    rfl
  | withdraw =>
    obtain ⟨stage, hattempting⟩ := hfits
    obtain ⟨finished, hresults, hids, -⟩ := CampaignRun.Attempting.current_ids hattempting
    have hconcat : ({ w.run with status := CANCELLED } : CampaignRun).step_results = finished ++
      [stage.pending] := hresults
    have hwithdrawn := CampaignRun.set_last_concat hconcat fun last => { last with status := CANCELLED, run_id := "" }
    refine ⟨CampaignRun.set_last_id _ _, ?_, Or.inr (Or.inr ⟨finished.map CampaignStepResult.run_id, stage.run_id,
      hattempting.last_id, hids, ?_⟩)⟩
    · exact congrArg (List.map CampaignStepResult.run_id) (CampaignRun.set_last_superseded _ _)
    · change w.run.withdraw.current_ids = _
      rw [CampaignRun.withdraw, hwithdrawn, CampaignRun.current_ids, List.map_append, List.map_singleton]
  | record result terminal =>
    obtain ⟨⟨stage, hattempting, -, hrunid⟩, -⟩ := hfits
    obtain ⟨finished, hresults, -⟩ := CampaignRun.Attempting.current_ids hattempting
    refine ⟨CampaignRun.set_last_id _ _, hkept _, Or.inl ?_⟩
    refine CampaignRun.set_last_current w.run (fun _ => result) fun last hlast => ?_
    rw [hresults, List.getLast?_concat, Option.some.injEq] at hlast
    rw [← hlast, hrunid]
    rfl

/-- A commit of a worker keeps the account of its run. -/
theorem CampaignPhase.Saves.accounts {change : CampaignRun → CampaignRun} {phase : CampaignRun → CampaignPhase}
    {saved : CampaignRun} {now : String} (hsaves : w.phase.Saves change phase) (hfits : w.phase.Fits w.run)
    (hsaved : saved = { change w.run with updated_utc := now }) (haccounts : w.run.Accounts attempts final)
    (hintent : ∀ stage, w.phase = .intending stage → stage.run_id ∉ w.run.current_ids ++ w.run.superseded_ids)
    (hunstarted : ∀ id, w.planned = some id → ∀ a ∈ attempts, a.run_id ≠ id) : saved.Accounts attempts final := by
  obtain ⟨hid, hsuperseded, hcurrent⟩ := hsaves.ids hfits hsaved
  unfold CampaignRun.Accounts at haccounts ⊢
  rw [hid, hsuperseded]
  obtain hcurrent | ⟨stage, hphase, hcurrent⟩ | ⟨finished, run_id, hplanned, hold, hcurrent⟩ := hcurrent
  · rwa [hcurrent]
  · rw [hcurrent]
    exact haccounts.intend (hintent stage hphase)
  · rw [hold] at haccounts
    rw [hcurrent]
    exact haccounts.withdraw (hunstarted run_id hplanned)

/-- A commit of a worker mentions no run that was not given out. -/
theorem CampaignPhase.Saves.recorded {change : CampaignRun → CampaignRun} {phase : CampaignRun → CampaignPhase}
    {saved : CampaignRun} {now : String} (hsaves : w.phase.Saves change phase) (hfits : w.phase.Fits w.run)
    (hsaved : saved = { change w.run with updated_utc := now })
    (hrecorded : ∀ id ∈ w.run.current_ids ++ w.run.superseded_ids, id = "" ∨ id ∈ issued)
    (hplanned : ∀ id, w.planned = some id → id ∈ issued) :
    ∀ id ∈ saved.current_ids ++ saved.superseded_ids, id = "" ∨ id ∈ issued := by
  obtain ⟨-, hsuperseded, hcurrent⟩ := hsaves.ids hfits hsaved
  rw [hsuperseded]
  obtain hcurrent | ⟨stage, hphase, hcurrent⟩ | ⟨finished, run_id, -, hold, hcurrent⟩ := hcurrent
  · rwa [hcurrent]
  · have hissued := hplanned stage.run_id (CampaignWorker.planned_intending hphase)
    intro id hid
    rw [hcurrent, List.append_assoc] at hid
    obtain hid | hid := List.mem_append.mp hid
    · exact hrecorded id (List.mem_append_left _ hid)
    · obtain rfl | hid := List.mem_cons.mp hid
      · exact Or.inr hissued
      · exact hrecorded id (List.mem_append_right _ hid)
  · intro id hid
    rw [hold, List.append_assoc] at hrecorded
    rw [hcurrent, List.append_assoc] at hid
    obtain hid | hid := List.mem_append.mp hid
    · exact hrecorded id (List.mem_append_left _ hid)
    · obtain rfl | hid := List.mem_cons.mp hid
      · exact Or.inl rfl
      · exact hrecorded id (List.mem_append_right _ (List.mem_cons_of_mem run_id hid))

/-- Nothing is planned after a commit that was not planned before. -/
theorem CampaignPhase.Saves.planned {change : CampaignRun → CampaignRun} {phase : CampaignRun → CampaignPhase}
    (hsaves : w.phase.Saves change phase) (run : CampaignRun) {id : String}
    (h : ({ w with run := run, phase := phase run } : CampaignWorker).planned = some id) : w.planned = some id := by
  unfold CampaignWorker.planned at h ⊢
  generalize w.phase = before at hsaves
  cases hsaves with
  | cancel | withdraw | complete => cases h
  | intend stage => exact h
  | record result terminal =>
    by_cases hrunning : run.status ≠ RUNNING
    · simp only [if_pos hrunning] at h
      cases h
    · simp only [if_neg hrunning] at h
      cases h

/-- What is yet to be admitted or intended is not what a commit leads to. -/
theorem CampaignPhase.Saves.goes {change : CampaignRun → CampaignRun} {phase : CampaignRun → CampaignPhase}
    (hsaves : w.phase.Saves change phase) (run : CampaignRun) (stage : Stage) : phase run ≠ .intending stage := by
  generalize w.phase = before at hsaves
  intro h
  cases hsaves with
  | cancel | withdraw | complete | intend => cases h
  | record result terminal =>
    by_cases hrunning : run.status ≠ RUNNING
    · simp only [if_pos hrunning] at h
      cases h
    · simp only [if_neg hrunning] at h
      cases h

/-- One worker goes on with nothing planned. -/
theorem Staged.clear {store : CampaignRunStore} {workers : List CampaignWorker} {i : Nat} {w' : CampaignWorker}
    (h : Staged store workers attempts issued started final) (hw : workers[i]? = some w) (hnone : w'.planned = none)
    (hpending : w'.phase.is_pending = true → w.phase.is_pending = true ∧ w'.run = w.run ∧ w'.resume = w.resume) :
    Staged store (workers.set i w') attempts issued started final := by
  refine h.go hw (fun id hplanned => by cases hnone.symm.trans hplanned) (fun stage hphase => ?_) hpending
  cases hnone.symm.trans (CampaignWorker.planned_intending hphase)

namespace CampaignState

/-- The executions take a step that gives out no id twice, or rest. -/
def Executes (env : Env) (s next : CampaignState) (started started' : List String) : Prop :=
  (next.exec = s.exec ∧ started' = started) ∨
    ∃ label, s.exec.Moves env label next.exec ∧ FreshIds label started started'

/-- A committed verdict is final. -/
def Decided (s : CampaignState) (final : String → Prop) : Prop :=
  ∀ run_id record, s.exec.audit.get run_id = some record → record.is_terminal = true → record.status ≠ COMPLETED →
    final run_id

/-- Every step of a worker keeps account of the stages it starts. -/
theorem Works.staged (hworks : s.Works env index w label next) (hw : s.workers[index]? = some w)
    (hconsistent : Consistent s.campaign_runs.value s.workers s.controls s.issued)
    (h : Staged s.campaign_runs.value s.workers s.attempts s.issued started final) (hdecided : s.Decided final) :
    ∃ started', s.Executes env next started started' ∧
      Staged next.campaign_runs.value next.workers next.attempts next.issued started' final := by
  have hactive := hconsistent.active index w hw
  have hrest {next : CampaignState} (hexec : next.exec = s.exec)
      (hnext : Staged next.campaign_runs.value next.workers next.attempts next.issued started final) :
      ∃ started', s.Executes env next started started' ∧
        Staged next.campaign_runs.value next.workers next.attempts next.issued started' final :=
    ⟨started, Or.inl ⟨hexec, rfl⟩, hnext⟩
  cases hworks with
  | turn_away hphase hheld => exact hrest rfl (h.clear hw rfl fun hpending => by cases hpending)
  | register hphase hfree => exact hrest rfl (h.clear hw rfl fun _ => ⟨by rw [hphase]; rfl, rfl, rfl⟩)
  | admitted now disk run next hphase hadmission hdisk =>
    refine hrest rfl ?_
    unfold CampaignState.admission at hadmission
    split at hadmission
    · obtain ⟨current, reconciled, hget, -, hreconciled, rfl, -, hwrites⟩ := hconsistent.resumed hadmission
      have hstored := (CampaignRunStore.get_some hget).1
      have hwritten := h.write hwrites
        (fun id hid => h.recorded current hstored id (hreconciled.mem_ids hid))
        (hreconciled.accounts (h.accounted current hstored) (fun a ha => (h.named a ha).2.1) hdecided)
      exact hwritten.clear hw rfl fun hpending => by cases hpending
    · rename_i hresume
      obtain ⟨hrun, rfl⟩ := Prod.mk.inj hadmission
      obtain rfl := Except.ok.inj hrun
      have hpending : w.phase.is_pending = true := by rw [hphase]; rfl
      have hlaunched := Bool.eq_false_iff.mpr hresume
      obtain ⟨-, -, hnone, -⟩ := hconsistent.fresh index w hw hpending hlaunched
      obtain ⟨hcurrent, hsuperseded, hattempts⟩ := h.fresh index w hw hpending hlaunched
      have hwritten := h.write (CampaignRunStore.writes_insert hconsistent.wellFormed.unique hnone)
        (fun id hid => by
          rw [hcurrent, hsuperseded] at hid
          cases hid)
        (by
          unfold CampaignRun.Accounts
          rw [hcurrent, hsuperseded]
          exact ⟨List.nodup_nil, fun a ha hid => absurd hid (hattempts a ha)⟩)
      exact hwritten.clear hw rfl fun hpending => by cases hpending
  | reject now disk e next hphase hadmission hdisk =>
    obtain rfl := CampaignState.admission_error hadmission
    exact hrest rfl (h.clear hw rfl fun hpending => by cases hpending)
  | unadmitted now disk hphase hdisk => exact hrest rfl (h.clear hw rfl fun hpending => by cases hpending)
  | complete n hphase hdone => exact hrest rfl (h.clear hw rfl fun hpending => by cases hpending)
  | stop n hphase hcancelled => exact hrest rfl (h.clear hw rfl fun hpending => by cases hpending)
  | intend n step hphase hstep hgoing hfresh =>
    rw [hphase] at hactive
    obtain ⟨hget, -⟩ := hactive rfl
    have hnamed := (next_run_id_valid s.run_namespace n).1
    exact hrest rfl (h.plan ⟨step, next_run_id s.run_namespace n⟩ hw (CampaignRunStore.get_some hget).1 hfresh hnamed)
  | save now disk change phase run next hsaves hupdate =>
    obtain ⟨hisactive, hkeeps⟩ := hsaves.facts
    obtain ⟨hget, hfits⟩ := hactive hisactive
    obtain ⟨hsaved, hwrites, -⟩ := hconsistent.update (hkeeps w.run).1 hget hupdate
    have hstored := (CampaignRunStore.get_some hget).1
    refine hrest rfl ?_
    have hwritten := h.write hwrites
      (hsaves.recorded hfits hsaved (h.recorded w.run hstored) fun id hplanned => (h.planned index w id hw hplanned).1)
      (hsaves.accounts hfits hsaved (h.accounted w.run hstored) (fun stage hphase => h.intent index w stage hw hphase)
        fun id hplanned a ha heq => (h.planned index w id hw hplanned).2.1 (heq ▸ (h.named a ha).1))
    exact hwritten.go hw (fun id hplanned => hsaves.planned run hplanned)
      (fun stage hphase => absurd hphase (hsaves.goes run stage))
      fun hpending => by cases (hkeeps run).2.symm.trans hpending
  | unsaved now disk change phase hsaves => exact hrest rfl (h.clear hw rfl fun hpending => by cases hpending)
  | withdraw stage hphase hcancelled =>
    rw [hphase] at hactive
    obtain ⟨-, hattempting⟩ := hactive rfl
    refine hrest rfl (h.go hw (fun id hplanned => ?_) (fun stage' hphase' => by cases hphase') fun hpending => by
      cases hpending)
    have hlast : w.run.current_ids.getLast? = some id := hplanned
    rw [CampaignWorker.planned_intended hphase, ← hlast, CampaignRun.Attempting.last_id hattempting]
  | recheck stage hphase hgoing =>
    refine hrest rfl (h.go hw (fun id hplanned => ?_) (fun stage' hphase' => by cases hphase') fun hpending => by
      cases hpending)
    exact (CampaignWorker.planned_intended hphase).trans hplanned
  | start stage entry selected now exec hphase hentry hexec =>
    have hplanned := CampaignWorker.planned_starting hphase
    refine ⟨stage.run_id :: started, Or.inr ⟨_, ExecutionState.step_moves hexec, .of_start ?_⟩, ?_⟩
    · exact (h.planned index w stage.run_id hw hplanned).2.1
    · exact h.start hconsistent hw hphase rfl rfl
  | refuse stage hphase => exact hrest rfl (h.clear hw rfl fun hpending => by cases hpending)
  | refused stage handle x hphase hx hrefused => exact hrest rfl (h.clear hw rfl fun hpending => by cases hpending)
  | enter stage handle x hphase hx hentered =>
    cases hcancelled : w.control.cancelled with
    | true => exact hrest rfl (h.clear hw rfl fun hpending => by cases hpending)
    | false => exact hrest rfl (h.clear hw rfl fun hpending => by cases hpending)
  | cancel_stage stage handle exec hphase hexec =>
    refine ⟨started, Or.inr ⟨_, ExecutionState.step_moves hexec, .of_other fun _ _ _ _ _ h => by cases h⟩, ?_⟩
    exact h.clear hw rfl fun hpending => by cases hpending
  | finish stage handle x hphase hx hended => exact hrest rfl (h.clear hw rfl fun hpending => by cases hpending)
  | read stage outcome hphase => exact hrest rfl (h.clear hw rfl fun hpending => by cases hpending)
  | judge result outcome hphase => exact hrest rfl (h.clear hw rfl fun hpending => by cases hpending)
  | close hphase => exact hrest rfl (h.clear hw rfl fun hpending => by cases hpending)

theorem Executes.rest {label : ExecutionLabel}
    (hother : ∀ id entry role selected now, label ≠ .start id entry role selected now)
    {exec : ExecutionState} (hexec : s.exec.step env label = some exec) (hnext : next.exec = exec) :
    s.Executes env next started started :=
  Or.inr ⟨label, hnext ▸ ExecutionState.step_moves hexec, .of_other hother⟩

/-- The snapshot a restart finds. -/
theorem Staged.crashed (h : Staged s.campaign_runs.value s.workers s.attempts s.issued started final) :
    Staged (s.campaign_runs.reload .default).value [] s.attempts s.issued started final := by
  unfold Persistent.reload
  split
  · exact h.idle h.recorded h.accounted
  · exact h.idle (fun run hrun => absurd hrun List.not_mem_nil) fun run hrun => absurd hrun List.not_mem_nil

theorem Cancels.staged {r : CancelRequest} (hcancels : s.Cancels env index r next)
    (h : Staged s.campaign_runs.value s.workers s.attempts s.issued started final) :
    s.Executes env next started started ∧
      Staged next.campaign_runs.value next.workers next.attempts next.issued started final := by
  cases hcancels with
  | abort request exec hphase hexec => exact ⟨.rest (fun _ _ _ _ _ h => by cases h) hexec rfl, h⟩
  | cancel_scenario worker run_id exec hphase hexec => exact ⟨.rest (fun _ _ _ _ _ h => by cases h) hexec rfl, h⟩
  | flag worker w hphase hw =>
    exact ⟨Or.inl ⟨rfl, rfl⟩, h.go hw (fun id hplanned => hplanned)
      (fun stage hstage => h.intent worker w stage hw hstage)
      fun hpending => ⟨hpending, rfl, rfl⟩⟩
  | _ => exact ⟨Or.inl ⟨rfl, rfl⟩, h⟩

/-- Every step keeps account of the stages it starts. -/
theorem Moves.staged (hmoves : s.Moves env label next) (horderly : s.Orderly)
    (h : Staged s.campaign_runs.value s.workers s.attempts s.issued started final) (hdecided : s.Decided final) :
    ∃ started', s.Executes env next started started' ∧
      Staged next.campaign_runs.value next.workers next.attempts next.issued started' final := by
  have hrest {next : CampaignState} (hexec : next.exec = s.exec)
      (hnext : Staged next.campaign_runs.value next.workers next.attempts next.issued started final) :
      ∃ started', s.Executes env next started started' ∧
        Staged next.campaign_runs.value next.workers next.attempts next.issued started' final :=
    ⟨started, Or.inl ⟨hexec, rfl⟩, hnext⟩
  cases hmoves with
  | start id entry role selected now exec hready hfresh hexec =>
    refine ⟨id :: started, Or.inr ⟨_, ExecutionState.step_moves hexec, .of_start fun hid => ?_⟩, h.elsewhere hfresh⟩
    exact hfresh (h.known id hid)
  | exec label exec hother hexec hlive => exact ⟨started, .rest hother hexec rfl, h⟩
  | crash label exec hexec hdown =>
    obtain rfl := (ExecutionState.step_moves hexec).of_down hdown
    exact ⟨started, Or.inr ⟨.crash, .crash, .of_other fun _ _ _ _ _ h => by cases h⟩, Staged.crashed h⟩
  | abandon catalog run_namespace now disk hserving hready =>
    exact ⟨started, Or.inr ⟨.crash, .crash, .of_other fun _ _ _ _ _ h => by cases h⟩, Staged.crashed h⟩
  | startup catalog run_namespace now disk hserving hready hvalid =>
    have hworkers := (horderly.idle hready).1
    refine hrest rfl ?_
    change Staged (s.campaign_runs.value.recover_interrupted now) s.workers s.attempts s.issued started final
    rw [hworkers]
    have hsuperseded (run : CampaignRun) : (run.recover now).superseded_ids = run.superseded_ids :=
      congrArg (List.map CampaignStepResult.run_id) (run.recover_superseded now)
    refine h.idle (fun run hrun => ?_) fun run hrun => ?_
    · obtain ⟨old, hold, rfl⟩ := List.mem_map.mp hrun
      rw [CampaignRun.recover_current, hsuperseded]
      exact h.recorded old hold
    · obtain ⟨old, hold, rfl⟩ := List.mem_map.mp hrun
      unfold CampaignRun.Accounts
      rw [CampaignRun.recover_current, hsuperseded, CampaignRun.recover_id]
      exact h.accounted old hold
  | register_campaign role campaign checked disk hready hchecked => exact hrest rfl h
  | delete_campaign role id disk hready => exact hrest rfl h
  | unregistered role campaign disk => exact hrest rfl h
  | undeleted role id disk => exact hrest rfl h
  | launch role id campaign target_override timeout_sec n now run hready hcampaign hrun hfresh hauthorized =>
    refine hrest rfl ((h.issue run.id).spawn rfl fun _ => ?_)
    subst hrun
    exact ⟨rfl, rfl, fun a ha heq => hfresh (heq ▸ (h.named a ha).2.2)⟩
  | resume role id run hready hrun hauthorized => exact hrest rfl (h.spawn rfl fun hresume => by cases hresume)
  | cancel_campaign_run role id hready => exact hrest rfl h
  | abort_all role exec hready hexec => exact ⟨started, .rest (fun _ _ _ _ _ h => by cases h) hexec rfl, h⟩
  | cancel request r next hready hrequest hcancels => exact ⟨started, hcancels.staged h⟩
  | work index w label next hready hw hworks => exact hworks.staged hw horderly.consistent h hdecided

/-- The verdict on a started scenario run is there to stay. -/
def Settled (s : CampaignState) (started : List String) (P : String → Prop) (run_id : String) : Prop :=
  run_id ∈ started ∧ s.exec.Final run_id P

/-- The campaigns with the scenario runs that were started, for a stage or otherwise. -/
structure Accountable (s : CampaignState) (started : List String) : Prop where
  orderly : s.Orderly
  sound : s.exec.Sound
  heard : s.exec.Heard started
  staged : Staged s.campaign_runs.value s.workers s.attempts s.issued started (s.Settled started (· ≠ COMPLETED))

theorem Executes.settled {started' : List String} {P : String → Prop} {id : String}
    (hexecutes : s.Executes env next started started') (hsound : s.exec.Sound) (hsettled : s.Settled started P id) :
    next.Settled started' P id := by
  obtain ⟨hid, hfinal⟩ := hsettled
  obtain ⟨hexec, rfl⟩ | ⟨label, hmoves, hids⟩ := hexecutes
  · refine ⟨hid, ?_⟩
    rwa [hexec]
  · exact ⟨hids.kept id hid, hfinal.moves hsound hmoves fun entry role selected now hlabel =>
      (hids.fresh id entry role selected now hlabel).1 hid⟩

theorem Executes.heard {started' : List String} (hexecutes : s.Executes env next started started')
    (hsound : s.exec.Sound)
    (hheard : s.exec.Heard started) : next.exec.Sound ∧ next.exec.Heard started' := by
  obtain ⟨hexec, rfl⟩ | ⟨label, hmoves, hids⟩ := hexecutes
  · rw [hexec]
    exact ⟨hsound, hheard⟩
  · exact ⟨hsound.moves hmoves, hheard.moves hsound hmoves hids⟩

/-- A terminal record in the audit settles its run. -/
theorem Accountable.settled (h : s.Accountable started) {run_id : String} {record : AuditRecord} {P : String → Prop}
    (hrecord : s.exec.audit.get run_id = some record) (hterminal : record.is_terminal = true)
    (hstatus : P record.status) :
    s.Settled started P run_id := by
  rw [h.sound.get_eq_latest] at hrecord
  obtain ⟨author, hmem⟩ := mem_of_latest hrecord
  exact ⟨(latest_split hrecord).1 ▸ h.heard.recorded _ hmem, h.heard.final hrecord hterminal hstatus⟩

theorem Accountable.moves (h : s.Accountable started) (hmoves : s.Moves env label next) :
    ∃ started', s.Executes env next started started' ∧ next.Accountable started' := by
  obtain ⟨started', hexecutes, hstaged⟩ := hmoves.staged h.orderly h.staged fun _ _ hrecord hterminal hstatus =>
    h.settled hrecord hterminal hstatus
  obtain ⟨hsound, hheard⟩ := hexecutes.heard h.sound h.heard
  exact ⟨started', hexecutes, h.orderly.moves hmoves, hsound, hheard, hstaged.mono fun _ => hexecutes.settled h.sound⟩

theorem Accountable.initial (audit_path state_dir : Bool) (catalog : Catalog) (run_namespace : RunNamespace) :
    (CampaignState.initial audit_path state_dir catalog run_namespace).Accountable [] where
  orderly := .initial audit_path state_dir catalog run_namespace
  sound := ExecutionState.initial_sound audit_path
  heard := ExecutionState.initial_heard audit_path
  staged := {
    known := fun id hid => absurd hid List.not_mem_nil
    named := fun a ha => absurd ha List.not_mem_nil
    planned := fun i w id hw => by cases hw
    apart := fun i j w x id hw => by cases hw
    intent := fun i w stage hw => by cases hw
    fresh := fun i w hw => by cases hw
    recorded := fun run hrun => absurd hrun List.not_mem_nil
    accounted := fun run hrun => absurd hrun List.not_mem_nil }

/-- The snapshot holds the intent of an attempt, and everything before it is done. -/
structure Intended (s : CampaignState) (a : Attempt) (run : CampaignRun) : Prop where
  stored : s.campaign_runs.value.get a.campaign_run = some run
  result : ∃ result, run.step_results[a.index]? = some result ∧ result.run_id = a.run_id
  earlier : ∀ j < a.index, ∃ result, run.step_results[j]? = some result ∧ result.status = COMPLETED

/-- A stopped run goes on. -/
def Resumes (s : CampaignState) (label : CampaignLabel) (next : CampaignState) (id : String) : Prop :=
  ∃ (index : Nat) (now : String) (disk : Disk) (w w' : CampaignWorker), label = .admission index now disk ∧
    s.workers[index]? = some w ∧ w.resume = true ∧ w.run.id = id ∧ next.workers[index]? = some w' ∧ w'.phase = .looping

/-- The snapshot holds a run that was interrupted or cancelled. -/
def Resumable (s : CampaignState) (id : String) : Prop :=
  ∃ run, s.campaign_runs.value.get id = some run ∧ run.is_resumable = true

/-- Only a worker that has saved its intent starts a scenario for a stage. -/
theorem Moves.starts (hmoves : s.Moves env label next) :
    next.attempts = s.attempts ∨ ∃ (index : Nat) (w : CampaignWorker) (stage : Stage), s.workers[index]? = some w ∧
      w.phase = .starting stage ∧
      next.attempts = ⟨w.run.id, w.run.step_results.length - 1, stage.run_id⟩ :: s.attempts := by
  cases hmoves with
  | cancel request r next hready hrequest hcancels => cases hcancels <;> exact Or.inl rfl
  | work index w label next hready hw hworks =>
    cases hworks with
    | start stage entry selected now exec hphase hentry hexec => exact Or.inr ⟨index, w, stage, hw, hphase, rfl⟩
    | _ => exact Or.inl rfl
  | _ => exact Or.inl rfl

/-- The intent of a stage about to start is the last result of its run. -/
theorem Orderly.starting (h : s.Orderly) (hw : s.workers[index]? = some w) {stage : Stage}
    (hphase : w.phase = .starting stage) :
    s.campaign_runs.value.get w.run.id = some w.run ∧ ∃ finished : List CampaignStepResult,
      w.run.step_results = finished ++ [stage.pending] ∧ w.run.step_results.length - 1 = finished.length ∧
      ∀ result ∈ finished, result.status = COMPLETED := by
  obtain ⟨hget, hfits⟩ := h.consistent.active index w hw (by rw [hphase]; rfl)
  rw [hphase] at hfits
  obtain ⟨finished, hresults, hdone⟩ := CampaignRun.Attempting.results hfits
  refine ⟨hget, finished, hresults, ?_, hdone⟩
  rw [hresults, List.length_append, List.length_singleton, Nat.add_sub_cancel]

/-- A completed attempt is the result at its index as long as its campaign run is stored. -/
structure Sealed (s : CampaignState) (a : Attempt) : Prop where
  accountable : ∃ started, s.Accountable started ∧ s.Settled started (· = COMPLETED) a.run_id
  current : ∃ started, Staged s.campaign_runs.value s.workers s.attempts s.issued started fun id => id ≠ a.run_id
  started : a ∈ s.attempts

/-- A completed attempt is not superseded. -/
theorem Accountable.sealed (h : s.Accountable started) {a : Attempt} (ha : a ∈ s.attempts) {record : AuditRecord}
    (hrecord : s.exec.audit.get a.run_id = some record) (hcompleted : record.status = COMPLETED) : s.Sealed a := by
  have hterminal : record.is_terminal = true := by
    rw [is_terminal_iff, hcompleted]
    decide
  refine ⟨⟨started, h, h.settled hrecord hterminal hcompleted⟩, ⟨started, h.staged.mono fun id hsettled heq => ?_⟩, ha⟩
  obtain ⟨-, hfinal⟩ := hsettled
  rw [heq] at hfinal
  exact (hfinal.status record (h.sound.get_eq_latest _ ▸ hrecord)).2 hcompleted

theorem Sealed.moves {a : Attempt} (h : s.Sealed a) (hmoves : s.Moves env label next) : next.Sealed a := by
  obtain ⟨started, haccountable, hsettled⟩ := h.accountable
  obtain ⟨started', hexecutes, hnext⟩ := haccountable.moves hmoves
  obtain ⟨before, hstaged⟩ := h.current
  have hdecided : s.Decided fun id => id ≠ a.run_id := by
    rintro run_id record hrecord - hstatus rfl
    rw [haccountable.sound.get_eq_latest] at hrecord
    exact hstatus (hsettled.2.status record hrecord).2
  obtain ⟨after, -, hcurrent⟩ := hmoves.staged haccountable.orderly hstaged hdecided
  refine ⟨⟨started', hnext, hexecutes.settled haccountable.sound hsettled⟩, ⟨after, hcurrent⟩, ?_⟩
  obtain hsame | ⟨index, w, stage, -, -, hgrown⟩ := hmoves.starts
  · exact hsame ▸ h.started
  · exact hgrown ▸ List.mem_cons_of_mem _ h.started

/-- No scenario is started for the index of a completed attempt. -/
theorem Sealed.never_repeated {a b : Attempt} (h : s.Sealed a) (hmoves : s.Moves env label next)
    (hb : next.attempts = b :: s.attempts) (hrun : b.campaign_run = a.campaign_run) : b.index ≠ a.index := by
  obtain ⟨started, haccountable, -⟩ := h.accountable
  obtain ⟨before, hstaged⟩ := h.current
  obtain hsame | ⟨index, w, stage, hw, hphase, hgrown⟩ := hmoves.starts
  · rw [hb] at hsame
    exact absurd hsame (by simp)
  · obtain ⟨rfl, -⟩ := List.cons_eq_cons.mp (hb.symm.trans hgrown)
    obtain ⟨hget, finished, hresults, hlength, -⟩ := haccountable.orderly.starting hw hphase
    intro hindex
    have hlast : a.index = finished.length := hindex.symm.trans hlength
    have haccounts := hstaged.accounted w.run (CampaignRunStore.get_some hget).1
    obtain hcurrent | ⟨-, hne⟩ := haccounts.attempts a h.started hrun.symm
    · rw [hlast, CampaignRun.current_ids, hresults, List.map_append, List.map_singleton,
        ← List.length_map CampaignStepResult.run_id, List.getElem?_concat_length, Option.some.injEq] at hcurrent
      have hplanned := CampaignWorker.planned_starting hphase
      have hsame : stage.run_id = a.run_id := hcurrent
      have hunstarted := (hstaged.planned index w stage.run_id hw hplanned).2.1
      exact hunstarted (hsame ▸ (hstaged.named a h.started).1)
    · exact hne rfl

/-- The intent of a stage is durable before its scenario is started. -/
theorem Accountable.intended (h : s.Accountable started) (hmoves : s.Moves env label next) {a : Attempt}
    (ha : next.attempts = a :: s.attempts) : ∃ run, s.Intended a run := by
  obtain hsame | ⟨index, w, stage, hw, hphase, hgrown⟩ := hmoves.starts
  · rw [ha] at hsame
    exact absurd hsame (by simp)
  · obtain ⟨rfl, -⟩ := List.cons_eq_cons.mp (ha.symm.trans hgrown)
    obtain ⟨hget, finished, hresults, hlength, hdone⟩ := h.orderly.starting hw hphase
    refine ⟨w.run, hget, ⟨stage.pending, ?_, rfl⟩, fun j hj => ?_⟩
    · dsimp only
      rw [hlength, hresults, List.getElem?_concat_length]
    · dsimp only at hj
      rw [hlength] at hj
      refine ⟨finished[j], ?_, hdone _ (List.getElem_mem hj)⟩
      rw [hresults, List.getElem?_append_left hj, List.getElem?_eq_getElem hj]

/-- A resume takes the run out of the state that admits it. -/
theorem Accountable.resumes (h : s.Accountable started) (hmoves : s.Moves env label next) {id : String}
    (hresumes : s.Resumes label next id) : s.Resumable id ∧ ¬ next.Resumable id := by
  obtain ⟨index, now, disk, w, w', rfl, hw, hresume, rfl, hw', hphase'⟩ := hresumes
  cases hmoves with
  | work index w₀ label next hready hw₀ hworks =>
    cases hworks with
    | admitted now disk run next hphase hadmission hdisk =>
      obtain rfl := Option.some.inj (hw₀.symm.trans hw)
      unfold CampaignState.admission at hadmission
      rw [if_pos hresume] at hadmission
      obtain ⟨current, reconciled, hget, hresumable, -, rfl, hid, hwrites⟩ := h.orderly.consistent.resumed hadmission
      refine ⟨⟨current, hget, hresumable⟩, ?_⟩
      rintro ⟨saved, hsaved, hagain⟩
      have hqueued : (reconciled.requeue now).status = QUEUED := rfl
      obtain ⟨-, rfl⟩ | ⟨hne, -⟩ := hwrites.origin _ _ hsaved
      · unfold CampaignRun.is_resumable at hagain
        rw [hqueued] at hagain
        exact absurd hagain (by decide)
      · exact hne hid.symm
    | reject | unadmitted =>
      obtain ⟨-, rfl⟩ | ⟨hne, -⟩ := get_set_cases hw'
      · cases hphase'
      · exact absurd rfl hne

/-- In every interleaving of launches, resumes, cancellations, worker steps, commits and restarts,
one worker at most is active on a campaign run and a stop admits one resume; a scenario is started
on a durable intent after completed stages, never for an index whose attempt the audit says is
completed, and stays in exactly one result of its run. -/
theorem stages_never_repeated (env : Env) (audit_path state_dir : Bool) (catalog : Catalog)
    (run_namespace : RunNamespace) :
    (∀ labels s, Transition.run (step env) (initial audit_path state_dir catalog run_namespace) labels = some s →
      (∀ (i j : Nat) (w x : CampaignWorker), s.workers[i]? = some w → s.workers[j]? = some x →
        w.phase.is_active = true → x.phase.is_active = true → x.run.id = w.run.id → j = i) ∧
      (∀ label next id, s.step env label = some next → s.Resumes label next id → s.Resumable id ∧
        ∀ labels' s' label' next', Transition.run (step env) next labels' = some s' → s'.step env label' = some next' →
          s'.Resumes label' next' id → ∃ before stop after u v, labels' = before ++ stop :: after ∧
            Transition.run (step env) next before = some u ∧ u.step env stop = some v ∧ ¬ u.Resumable id ∧
              v.Resumable id) ∧
      (∀ label next a, s.step env label = some next → next.attempts = a :: s.attempts → ∃ run, s.Intended a run) ∧
      (∀ a ∈ s.attempts, ∀ record, s.exec.audit.get a.run_id = some record → record.status = COMPLETED →
        ∀ labels' s' label next b, Transition.run (step env) s labels' = some s' → s'.step env label = some next →
          next.attempts = b :: s'.attempts → b.campaign_run = a.campaign_run → b.index ≠ a.index) ∧
      ∀ a ∈ s.attempts, ∀ run, s.campaign_runs.value.get a.campaign_run = some run →
        (run.step_results ++ run.superseded_results).countP (fun r => decide (r.run_id = a.run_id)) = 1) := by
  have hinvariant : Transition.Preserved (step env) fun s => ∃ started, s.Accountable started := by
    rintro s label next ⟨started, h⟩ hstep
    obtain ⟨started', -, hnext⟩ := h.moves (step_moves hstep)
    exact ⟨started', hnext⟩
  intro labels s hrun
  obtain ⟨started, h⟩ := hinvariant.run ⟨[], .initial audit_path state_dir catalog run_namespace⟩ hrun
  refine ⟨fun i j w x hw hx hwactive hxactive hid => ?_, fun label next id hstep hresumes => ?_,
    fun label next a hstep ha => h.intended (step_moves hstep) ha,
    fun a ha record hrecord hcompleted labels' s' label next b hrun' hstep hb hrun => ?_, fun a ha run hget => ?_⟩
  · exact h.orderly.consistent.sole hw hx (CampaignPhase.holds_of_active hwactive)
      (CampaignPhase.holds_of_active hxactive) hid
  · obtain ⟨hresumable, hstopped⟩ := h.resumes (step_moves hstep) hresumes
    refine ⟨hresumable, fun labels' s' label' next' hrun' hstep' hresumes' => ?_⟩
    obtain ⟨started', -, hnext⟩ := h.moves (step_moves hstep)
    obtain ⟨later, hlater⟩ := hinvariant.run ⟨started', hnext⟩ hrun'
    exact Transition.exists_step_of_not hrun' hstopped (hlater.resumes (step_moves hstep') hresumes').1
  · have hsealed : Transition.Preserved (step env) fun s => s.Sealed a := fun _ _ _ h hstep =>
      h.moves (step_moves hstep)
    exact (hsealed.run (h.sealed ha hrecord hcompleted) hrun').never_repeated (step_moves hstep) hb hrun
  · obtain ⟨hmem, hid⟩ := CampaignRunStore.get_some hget
    have honce := (h.staged.accounted run hmem).once ha hid.symm (h.staged.named a ha).2.1
    rw [CampaignRun.current_ids, CampaignRun.superseded_ids, ← List.map_append, List.count_eq_countP,
      List.countP_map] at honce
    rw [← honce]
    refine List.countP_congr fun r _ => ?_
    simp

def canary_catalog : Catalog := ⟨[⟨canary_entry, "", "", .Unspecified, [], "", [], [], 0, 0⟩], [], none⟩

def canary_campaign : Campaign := ⟨"CAMP-CANARY", "Canary Campaign", "", [⟨1, canary_entry.id⟩]⟩

/-- A campaign of one simulated stage from its launch to its end. -/
def canary_stage : List CampaignLabel :=
  [.exec .restart, .exec (.recover "2026-09-22T00:00:00Z" (.ok ())),
    .startup canary_catalog latency_namespace "2026-09-22T00:00:01Z" (.ok ()),
    .register_campaign .Admin canary_campaign (.ok ()),
    .run_campaign .Admin canary_campaign.id none none 1 "2026-09-22T00:00:02Z", .register 0,
    .admission 0 "2026-09-22T00:00:03Z" (.ok ()), .check 0 2, .commit 0 "2026-09-22T00:00:04Z" (.ok ()), .recheck 0,
    .start 0 none "2026-09-22T00:00:05Z", .exec (.append 0 (.ok ())), .exec (.insert 0), .enter 0,
    .exec (.simulate 0 .elapsed), .exec (.commit 0 "2026-09-22T00:00:06Z" (.ok ())), .exec (.remove 0), .finish 0,
    .read 0, .judge 0, .commit 0 "2026-09-22T00:00:07Z" (.ok ()), .close 0]

theorem canary_stage_accounted : ∃ s,
    Transition.run (step blank_env) (initial true true canary_catalog latency_namespace) canary_stage = some s ∧
      ∃ a run, s.attempts = [a] ∧ s.campaign_runs.value.get a.campaign_run = some run ∧ run.status = COMPLETED ∧
        (run.step_results ++ run.superseded_results).countP (fun r => decide (r.run_id = a.run_id)) = 1 := by
  have hrun : Transition.run (step blank_env) (initial true true canary_catalog latency_namespace) canary_stage =
    some _ := rfl
  obtain ⟨-, -, -, -, honce⟩ := stages_never_repeated blank_env true true canary_catalog latency_namespace _ _ hrun
  exact ⟨_, hrun, _, _, rfl, rfl, rfl, honce _ (List.mem_singleton_self _) _ rfl⟩

end CampaignState

end

end asmodeus.control_plane
