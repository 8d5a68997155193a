import Asmodeus.ControlPlane.Campaign.Progress
import Asmodeus.ControlPlane.Campaign.Steps

open asmodeus.common asmodeus.telemetry

namespace asmodeus.control_plane

open campaign_run

namespace CampaignPhase

/-- The admission of the run is yet to come. -/
def is_pending : CampaignPhase → Bool
  | .launched | .registered => true
  | _ => false

/-- The worker is in the map of controls. -/
def holds : CampaignPhase → Bool
  | .launched | .returned => false
  | _ => true

/-- What a phase says about the run of its worker. -/
def Fits (run : CampaignRun) : CampaignPhase → Prop
  | .looping | .stopping => run.Ready
  | .intending stage => run.Ready ∧ run.steps[run.next_step]? = some stage.step
  | .intended stage | .starting stage | .admitting stage _ | .cancelling stage _ | .awaiting stage _
  | .reading stage _ => run.Attempting stage
  | .withdrawing => ∃ stage, run.Attempting stage
  | .judging result _ => ∃ stage, run.Attempting stage ∧ result.step = stage.step ∧ result.run_id = stage.run_id
  | .recording result terminal =>
    (∃ stage, run.Attempting stage ∧ result.step = stage.step ∧ result.run_id = stage.run_id) ∧
      run.Judged result terminal
  | .completing => run.Ready ∧ run.steps[run.next_step]? = none
  | .launched | .registered | .closing | .returned => True

end CampaignPhase

/-- The snapshot against the workers that live on it. The run of an active worker
is the stored one, and no other worker that holds a control is on that run. -/
structure Consistent (store : CampaignRunStore) (workers : List CampaignWorker) (controls : List (String × Nat))
    (issued : List String) : Prop where
  wellFormed : store.WellFormed
  stored : ∀ run ∈ store.runs, run.id ∈ issued
  launched : ∀ w ∈ workers, w.run.id ∈ issued
  fresh : ∀ (i : Nat) (w : CampaignWorker), workers[i]? = some w → w.phase.is_pending = true → w.resume = false →
    w.run.WellFormed ∧ w.run.Ready ∧ store.get w.run.id = none ∧
      ∀ (j : Nat) (x : CampaignWorker), workers[j]? = some x → x.run.id = w.run.id → j = i
  unique : KeyedList.Unique Prod.fst controls
  held : ∀ (i : Nat) (w : CampaignWorker), workers[i]? = some w → w.phase.holds = true → (w.run.id, i) ∈ controls
  active : ∀ (i : Nat) (w : CampaignWorker), workers[i]? = some w → w.phase.is_active = true →
    store.get w.run.id = some w.run ∧ w.phase.Fits w.run

section

variable {store next : CampaignRunStore} {workers : List CampaignWorker} {controls : List (String × Nat)}
  {issued : List String} {i : Nat} {w w' : CampaignWorker}

theorem CampaignPhase.holds_of_active {phase : CampaignPhase} (h : phase.is_active = true) : phase.holds = true := by
  cases phase with
  | launched | returned => cases h
  | _ => rfl

theorem CampaignPhase.not_pending_of_active {phase : CampaignPhase} (h : phase.is_active = true) :
    phase.is_pending = false := by
  cases phase with
  | launched | registered => cases h
  | _ => rfl

/-- An active worker works on a run that is not settled. -/
theorem CampaignPhase.open_of_fits {phase : CampaignPhase} {run : CampaignRun} (h : phase.Fits run)
    (hactive : phase.is_active = true) : run.is_settled = false := by
  cases phase with
  | launched | registered | closing | returned => cases hactive
  | looping | stopping => exact CampaignRun.Ready.open_run h
  | intending | completing => exact CampaignRun.Ready.open_run h.1
  | intended | starting | admitting | cancelling | awaiting | reading => exact CampaignRun.Attempting.open_run h
  | withdrawing =>
    obtain ⟨stage, hstage⟩ := h
    exact hstage.open_run
  | judging =>
    obtain ⟨stage, hstage, -⟩ := h
    exact hstage.open_run
  | recording =>
    obtain ⟨⟨stage, hstage, -⟩, -⟩ := h
    exact hstage.open_run

theorem get_set_cases {j : Nat} {x : CampaignWorker} (h : (workers.set i w')[j]? = some x) :
    (j = i ∧ x = w') ∨ (j ≠ i ∧ workers[j]? = some x) := by
  by_cases hj : j = i
  · subst hj
    rw [List.getElem?_set_self'] at h
    obtain ⟨_, -, hx⟩ := Option.map_eq_some_iff.mp h
    exact Or.inl ⟨rfl, hx.symm⟩
  · rw [List.getElem?_set_ne (Ne.symm hj)] at h
    exact Or.inr ⟨hj, h⟩

/-- At most one worker on a run holds its control. -/
theorem Consistent.sole (h : Consistent store workers controls issued) {j : Nat} {x : CampaignWorker}
    (hw : workers[i]? = some w) (hx : workers[j]? = some x) (hholds : w.phase.holds = true)
    (hholds' : x.phase.holds = true) (hid : x.run.id = w.run.id) : j = i := by
  have hi := h.held i w hw hholds
  have hj := h.held j x hx hholds'
  rw [hid] at hj
  have hfound := h.unique.find_of_mem hi
  have hfound' := h.unique.find_of_mem hj
  exact (Prod.mk.inj (Option.some.inj (hfound'.symm.trans hfound))).2

/-- More ids have been given out. -/
theorem Consistent.issue (h : Consistent store workers controls issued) (id : String) :
    Consistent store workers controls (id :: issued) :=
  { h with
    stored := fun run hrun => List.mem_cons_of_mem id (h.stored run hrun)
    launched := fun w hw => List.mem_cons_of_mem id (h.launched w hw) }

/-- The map of controls changes under the workers that hold one. -/
theorem Consistent.regroup (h : Consistent store workers controls issued) {controls' : List (String × Nat)}
    (hunique : KeyedList.Unique Prod.fst controls')
    (hheld : ∀ (j : Nat) (x : CampaignWorker), workers[j]? = some x → x.phase.holds = true →
      (x.run.id, j) ∈ controls → (x.run.id, j) ∈ controls') : Consistent store workers controls' issued :=
  { h with
    unique := hunique
    held := fun j x hx hholds => hheld j x hx hholds (h.held j x hx hholds) }

/-- One worker goes on, and the snapshot stays. -/
theorem Consistent.shift (h : Consistent store workers controls issued) (hw : workers[i]? = some w)
    (hid : w'.run.id = w.run.id) (hholds : w'.phase.holds = true → (w.run.id, i) ∈ controls)
    (hpending : w'.phase.is_pending = true → w.phase.is_pending = true ∧ w'.run = w.run ∧ w'.resume = w.resume)
    (hactive : w'.phase.is_active = true → store.get w'.run.id = some w'.run ∧ w'.phase.Fits w'.run) :
    Consistent store (workers.set i w') controls issued where
  wellFormed := h.wellFormed
  stored := h.stored
  launched x hx := by
    obtain hx | rfl := List.mem_or_eq_of_mem_set hx
    · exact h.launched x hx
    · exact hid ▸ h.launched w (List.mem_of_getElem? hw)
  fresh j x hx hxpending hresume := by
    have hids {k : Nat} {y : CampaignWorker} (hy : (workers.set i w')[k]? = some y) :
        ∃ z : CampaignWorker, workers[k]? = some z ∧ z.run.id = y.run.id := by
      obtain ⟨rfl, rfl⟩ | ⟨-, hy⟩ := get_set_cases hy
      · exact ⟨w, hw, hid.symm⟩
      · exact ⟨y, hy, rfl⟩
    obtain ⟨rfl, rfl⟩ | ⟨-, hx⟩ := get_set_cases hx
    · obtain ⟨hwpending, hrun, hwresume⟩ := hpending hxpending
      obtain ⟨hrunok, hready, hnone, hsole⟩ := h.fresh j w hw hwpending (hwresume ▸ hresume)
      rw [hrun]
      refine ⟨hrunok, hready, hnone, fun k y hy hyid => ?_⟩
      obtain ⟨z, hz, hzid⟩ := hids hy
      exact hsole k z hz (hzid.trans hyid)
    · obtain ⟨hrunok, hready, hnone, hsole⟩ := h.fresh j x hx hxpending hresume
      refine ⟨hrunok, hready, hnone, fun k y hy hyid => ?_⟩
      obtain ⟨z, hz, hzid⟩ := hids hy
      exact hsole k z hz (hzid.trans hyid)
  unique := h.unique
  held j x hx hxholds := by
    obtain ⟨rfl, rfl⟩ | ⟨-, hx⟩ := get_set_cases hx
    · rw [hid]
      exact hholds hxholds
    · exact h.held j x hx hxholds
  active j x hx hxactive := by
    obtain ⟨rfl, rfl⟩ | ⟨-, hx⟩ := get_set_cases hx
    · exact hactive hxactive
    · exact h.active j x hx hxactive

/-- A worker that holds its control goes on. -/
theorem Consistent.go (h : Consistent store workers controls issued) (hw : workers[i]? = some w)
    (hid : w'.run.id = w.run.id) (hholds : w'.phase.holds = true → w.phase.holds = true)
    (hpending : w'.phase.is_pending = true → w.phase.is_pending = true ∧ w'.run = w.run ∧ w'.resume = w.resume)
    (hactive : w'.phase.is_active = true → store.get w'.run.id = some w'.run ∧ w'.phase.Fits w'.run) :
    Consistent store (workers.set i w') controls issued :=
  h.shift hw hid (fun hnext => h.held i w hw (hholds hnext)) hpending hactive

/-- The run of one worker is saved. -/
theorem Consistent.write {saved : CampaignRun} (h : Consistent store workers controls issued)
    (hw : workers[i]? = some w)
    (hheld : w.phase.holds = true) (hwrites : store.Writes next saved) (hsaved : saved.id = w.run.id)
    (hwell : saved.WellFormed) (hid : w'.run.id = w.run.id) (hpending : w'.phase.is_pending = false)
    (hactive : w'.phase.is_active = true → w'.run = saved ∧ w'.phase.Fits saved) :
    Consistent next (workers.set i w') controls issued where
  wellFormed := hwrites.wellFormed h.wellFormed hwell
  stored run hrun := by
    obtain rfl | hrun := hwrites.mem run hrun
    · exact hsaved ▸ h.launched w (List.mem_of_getElem? hw)
    · exact h.stored run hrun
  launched x hx := by
    obtain hx | rfl := List.mem_or_eq_of_mem_set hx
    · exact h.launched x hx
    · exact hid ▸ h.launched w (List.mem_of_getElem? hw)
  fresh j x hx hxpending hresume := by
    obtain ⟨rfl, rfl⟩ | ⟨hj, hx⟩ := get_set_cases hx
    · rw [hpending] at hxpending
      cases hxpending
    · obtain ⟨hrunok, hready, hnone, hxsole⟩ := h.fresh j x hx hxpending hresume
      have hne : x.run.id ≠ w.run.id := fun heq => hj (hxsole i w hw heq.symm).symm
      refine ⟨hrunok, hready, ?_, fun k y hy hyid => ?_⟩
      · refine Option.eq_none_iff_forall_ne_some.mpr fun run hrun => ?_
        obtain ⟨heq, -⟩ | ⟨-, hrun⟩ := hwrites.origin _ run hrun
        · exact hne (heq.trans hsaved)
        · cases hnone.symm.trans hrun
      · obtain ⟨rfl, rfl⟩ | ⟨-, hy⟩ := get_set_cases hy
        · exact absurd (hyid.symm.trans hid) hne
        · exact hxsole k y hy hyid
  unique := h.unique
  held j x hx hxholds := by
    obtain ⟨rfl, rfl⟩ | ⟨-, hx⟩ := get_set_cases hx
    · rw [hid]
      exact h.held j w hw hheld
    · exact h.held j x hx hxholds
  active j x hx hxactive := by
    obtain ⟨rfl, rfl⟩ | ⟨hj, hx⟩ := get_set_cases hx
    · obtain ⟨hrun, hfits⟩ := hactive hxactive
      rw [hrun]
      exact ⟨hwrites.stored (CampaignPhase.open_of_fits hfits hxactive), hfits⟩
    · obtain ⟨hget, hfits⟩ := h.active j x hx hxactive
      have hne : x.run.id ≠ saved.id := fun heq =>
        hj (h.sole hw hx hheld (CampaignPhase.holds_of_active hxactive) (heq.trans hsaved))
      exact ⟨hwrites.kept _ x.run hne hget (CampaignPhase.open_of_fits hfits hxactive), hfits⟩

/-- A worker enters the map of controls. -/
theorem Consistent.register (h : Consistent store workers controls issued) (hw : workers[i]? = some w)
    (hphase : w.phase = .launched) (hfree : KeyedList.find Prod.fst w.run.id controls = none) :
    Consistent store (workers.set i { w with phase := .registered }) (controls ++ [(w.run.id, i)]) issued := by
  have hunique : KeyedList.Unique Prod.fst (controls ++ [(w.run.id, i)]) := h.unique.append hfree
  have hmore := h.regroup hunique fun j x _ _ hmem => List.mem_append_left _ hmem
  have hown : (w.run.id, i) ∈ controls ++ [(w.run.id, i)] := List.mem_append_right _ (List.mem_singleton_self _)
  exact hmore.shift hw rfl (fun _ => hown) (fun _ => ⟨by rw [hphase]; rfl, rfl, rfl⟩) fun h => by cases h

/-- A worker leaves the map of controls, and takes no other with it. -/
theorem Consistent.close (h : Consistent store workers controls issued) (hw : workers[i]? = some w)
    (hphase : w.phase = .closing) :
    Consistent store (workers.set i { w with phase := .returned })
      (controls.filter fun entry => decide (entry.1 ≠ w.run.id)) issued := by
  have hheld : w.phase.holds = true := by rw [hphase]; rfl
  have hgone : Consistent store (workers.set i { w with phase := .returned }) controls issued :=
    h.go hw rfl (fun h => by cases h) (fun h => by cases h) fun h => by cases h
  refine hgone.regroup (h.unique.filter _) fun j x hx hxholds hmem => List.mem_filter.mpr ⟨hmem, ?_⟩
  obtain ⟨rfl, rfl⟩ | ⟨hj, hx⟩ := get_set_cases hx
  · cases hxholds
  · exact decide_eq_true fun hid => hj (h.sole hw hx hheld hxholds hid)

/-- The admission of a new run. -/
theorem Consistent.launch (h : Consistent store workers controls issued) (hw : workers[i]? = some w)
    (hphase : w.phase = .registered) (hresume : w.resume = false) :
    Consistent (store.insert w.run) (workers.set i { w with phase := .looping }) controls issued := by
  obtain ⟨hwell, hready, hnone, -⟩ := h.fresh i w hw (by rw [hphase]; rfl) hresume
  exact h.write hw (by rw [hphase]; rfl) (CampaignRunStore.writes_insert h.wellFormed.unique hnone) rfl hwell rfl rfl
    fun _ => ⟨rfl, hready⟩

/-- A resume saves the run that it requeues. -/
theorem Consistent.resumed {audit : AuditStore} {id now : String} {run : CampaignRun}
    (h : Consistent store workers controls issued) (hadmission : prepare_resume store audit id now = (.ok run, next)) :
    ∃ current reconciled, store.get id = some current ∧ current.is_resumable = true ∧
      current.Reconciled audit reconciled ∧ run = reconciled.requeue now ∧ run.id = id ∧ store.Writes next run := by
  obtain ⟨e, herror, -⟩ | ⟨current, reconciled, hget, hresumable, hreconciled, hok, rfl⟩ :=
    prepare_resume_spec hadmission
  · cases herror
  · obtain rfl := Except.ok.inj hok
    have hid : (reconciled.requeue now).id = id := by
      rw [CampaignRun.requeue_id, ← (CampaignRunStore.get_some hget).2]
      cases hreconciled <;> rfl
    have hwrites : store.Writes (store.set (reconciled.requeue now)) (reconciled.requeue now) :=
      CampaignRunStore.writes_set h.wellFormed.unique (hid.symm ▸ hget)
    exact ⟨current, reconciled, hget, hresumable, hreconciled, rfl, hid, hwrites⟩

/-- The admission of a stopped run. -/
theorem Consistent.resume {audit : AuditStore} {now : String} {run : CampaignRun}
    (h : Consistent store workers controls issued) (hw : workers[i]? = some w)
    (hphase : w.phase = .registered) (hadmission : prepare_resume store audit w.run.id now = (.ok run, next)) :
    Consistent next (workers.set i { w with run := run, phase := .looping }) controls issued := by
  obtain ⟨current, reconciled, hget, hresumable, hreconciled, rfl, hid, hwrites⟩ := h.resumed hadmission
  have hopen : current.status ≠ COMPLETED := by
    intro hcompleted
    unfold CampaignRun.is_resumable at hresumable
    rw [hcompleted] at hresumable
    exact absurd hresumable (by decide)
  have hwell := hreconciled.wellFormed (h.wellFormed.get hget) hopen
  exact h.write hw (by rw [hphase]; rfl) hwrites hid (hwell.requeue now) hid rfl
    fun _ => ⟨rfl, CampaignRun.Ready.requeue hwell now⟩

theorem Consistent.update {run : CampaignRun} {now : String} {change : CampaignRun → CampaignRun}
    (h : Consistent store workers controls issued) (hid : (change w.run).id = w.run.id)
    (hget : store.get w.run.id = some w.run) (hupdate : store.update w.run.id now change = .ok (run, next)) :
    run = { change w.run with updated_utc := now } ∧ store.Writes next run ∧ run.id = w.run.id := by
  unfold CampaignRunStore.update at hupdate
  rw [hget] at hupdate
  obtain ⟨hrun, hnext⟩ := Prod.mk.inj (Except.ok.inj hupdate)
  subst hrun hnext
  exact ⟨rfl, (CampaignRunStore.writes_set h.wellFormed.unique (hid.symm ▸ hget)).prune, hid⟩

end

section

variable {env : Env} {s next : CampaignState} {index : Nat} {w : CampaignWorker} {label : CampaignLabel}

theorem CampaignPhase.Saves.facts {change : CampaignRun → CampaignRun} {phase : CampaignRun → CampaignPhase}
    (hsaves : w.phase.Saves change phase) :
    w.phase.is_active = true ∧ ∀ run, (change run).id = run.id ∧ (phase run).is_pending = false := by
  generalize w.phase = before at hsaves
  cases hsaves with
  | cancel | intend | complete => exact ⟨rfl, fun run => ⟨rfl, rfl⟩⟩
  | withdraw => exact ⟨rfl, fun run => ⟨CampaignRun.set_last_id _ _, rfl⟩⟩
  | record result terminal =>
    refine ⟨rfl, fun run => ⟨CampaignRun.set_last_id _ _, ?_⟩⟩
    dsimp only
    split <;> rfl

/-- What a worker commits is well formed, and fits the phase after it. -/
theorem CampaignPhase.Saves.fits {change : CampaignRun → CampaignRun} {phase : CampaignRun → CampaignPhase}
    {before : CampaignPhase} {run : CampaignRun} (hsaves : before.Saves change phase) (hfits : before.Fits run)
    (hrun : run.WellFormed) (now : String) :
    ({ change run with updated_utc := now } : CampaignRun).WellFormed ∧
      (phase { change run with updated_utc := now }).Fits { change run with updated_utc := now } := by
  cases hsaves with
  | cancel => exact ⟨hrun.cancel hfits, trivial⟩
  | intend stage => exact ⟨hrun.intend hfits.1 hfits.2, CampaignRun.Ready.intend hfits.1⟩
  | withdraw => exact ⟨hrun.withdraw, trivial⟩
  | complete => exact ⟨hrun.complete hfits.1 hfits.2, trivial⟩
  | record result terminal =>
    obtain ⟨⟨stage, hattempting, hstep, -⟩, hjudged⟩ := hfits
    refine ⟨hrun.record hattempting hstep hjudged, ?_⟩
    change CampaignPhase.Fits _ (if terminal ≠ RUNNING then .closing else .looping)
    by_cases hterminal : terminal = RUNNING
    · subst hterminal
      rw [if_neg (not_not.mpr rfl)]
      exact CampaignRun.Ready.of_record hattempting hjudged
    · rw [if_pos hterminal]
      trivial

/-- A refused admission leaves no trace. -/
theorem CampaignState.admission_error {now : String} {e : ResumeError} {store next : CampaignRunStore}
    (h : s.admission w now store = (.error e, next)) : next = store := by
  unfold CampaignState.admission at h
  split at h
  · obtain ⟨e, -, hnext⟩ | ⟨current, reconciled, -, -, -, hok, -⟩ := prepare_resume_spec h
    · exact hnext
    · cases hok
  · cases h

/-- Every step of a worker keeps the snapshot in order. -/
theorem Consistent.works (h : Consistent s.campaign_runs.value s.workers s.controls s.issued)
    (hw : s.workers[index]? = some w) (hworks : s.Works env index w label next) :
    Consistent next.campaign_runs.value next.workers next.controls next.issued := by
  have hactive := h.active index w hw
  cases hworks with
  | turn_away hphase hheld =>
    exact h.go hw rfl (fun h => by cases h) (fun h => by cases h) fun h => by cases h
  | register hphase hfree => exact h.register hw hphase hfree
  | admitted now disk run next hphase hadmission hdisk =>
    unfold CampaignState.admission at hadmission
    split at hadmission
    · exact h.resume hw hphase hadmission
    · rename_i hresume
      cases hadmission
      exact h.launch hw hphase (Bool.eq_false_iff.mpr hresume)
  | reject now disk e next hphase hadmission hdisk =>
    obtain rfl := CampaignState.admission_error hadmission
    exact h.go hw rfl (fun _ => by rw [hphase]; rfl) (fun h => by cases h) fun h => by cases h
  | unadmitted now disk hphase hdisk =>
    exact h.go hw rfl (fun _ => by rw [hphase]; rfl) (fun h => by cases h) fun h => by cases h
  | complete n hphase hdone =>
    rw [hphase] at hactive
    obtain ⟨hget, hfits⟩ := hactive rfl
    exact h.go hw rfl (fun _ => by rw [hphase]; rfl) (fun h => by cases h) fun _ => ⟨hget, hfits, hdone⟩
  | stop n hphase hcancelled =>
    rw [hphase] at hactive
    obtain ⟨hget, hfits⟩ := hactive rfl
    exact h.go hw rfl (fun _ => by rw [hphase]; rfl) (fun h => by cases h) fun _ => ⟨hget, hfits⟩
  | intend n step hphase hstep hgoing hfresh =>
    rw [hphase] at hactive
    obtain ⟨hget, hfits⟩ := hactive rfl
    refine Consistent.issue ?_ _
    exact h.go hw rfl (fun _ => by rw [hphase]; rfl) (fun h => by cases h) fun _ => ⟨hget, hfits, hstep⟩
  | save now disk change phase run next hsaves hupdate =>
    obtain ⟨hisactive, hkeeps⟩ := hsaves.facts
    obtain ⟨hget, hfits⟩ := hactive hisactive
    obtain ⟨rfl, hwrites, hid⟩ := h.update (hkeeps w.run).1 hget hupdate
    obtain ⟨hwell, hfits'⟩ := hsaves.fits hfits (h.wellFormed.get hget) now
    exact h.write hw (CampaignPhase.holds_of_active hisactive) hwrites hid hwell hid (hkeeps _).2 fun _ => ⟨rfl, hfits'⟩
  | unsaved now disk change phase hsaves =>
    have hheld := CampaignPhase.holds_of_active hsaves.facts.1
    exact h.go hw rfl (fun _ => hheld) (fun h => by cases h) fun h => by cases h
  | withdraw stage hphase hcancelled =>
    rw [hphase] at hactive
    obtain ⟨hget, hfits⟩ := hactive rfl
    exact h.go hw rfl (fun _ => by rw [hphase]; rfl) (fun h => by cases h) fun _ => ⟨hget, stage, hfits⟩
  | recheck stage hphase hgoing =>
    rw [hphase] at hactive
    exact h.go hw rfl (fun _ => by rw [hphase]; rfl) (fun h => by cases h) fun _ => hactive rfl
  | start stage entry selected now exec hphase hentry hexec =>
    rw [hphase] at hactive
    exact h.go hw rfl (fun _ => by rw [hphase]; rfl) (fun h => by cases h) fun _ => hactive rfl
  | refuse stage hphase =>
    rw [hphase] at hactive
    exact h.go hw rfl (fun _ => by rw [hphase]; rfl) (fun h => by cases h) fun _ => hactive rfl
  | refused stage handle x hphase hx hrefused =>
    rw [hphase] at hactive
    exact h.go hw rfl (fun _ => by rw [hphase]; rfl) (fun h => by cases h) fun _ => hactive rfl
  | enter stage handle x hphase hx hentered =>
    rw [hphase] at hactive
    refine h.go hw rfl (fun _ => by rw [hphase]; rfl) (fun h => ?_) fun _ => ?_
    · dsimp only at h
      split at h <;> cases h
    · dsimp only
      split <;> exact hactive rfl
  | cancel_stage stage handle exec hphase hexec =>
    rw [hphase] at hactive
    exact h.go hw rfl (fun _ => by rw [hphase]; rfl) (fun h => by cases h) fun _ => hactive rfl
  | finish stage handle x hphase hx hended =>
    rw [hphase] at hactive
    exact h.go hw rfl (fun _ => by rw [hphase]; rfl) (fun h => by cases h) fun _ => hactive rfl
  | read stage outcome hphase =>
    rw [hphase] at hactive
    obtain ⟨hget, hfits⟩ := hactive rfl
    exact h.go hw rfl (fun _ => by rw [hphase]; rfl) (fun h => by cases h) fun _ => ⟨hget, stage, hfits, rfl, rfl⟩
  | judge result outcome hphase =>
    rw [hphase] at hactive
    obtain ⟨hget, hfits⟩ := hactive rfl
    unfold CampaignState.judge
    exact h.go hw rfl (fun _ => by rw [hphase]; rfl) (fun h => by cases h)
      fun _ => ⟨hget, hfits, w.run.judged_verdict result outcome _⟩
  | close hphase => exact h.close hw hphase

end

/-- What every step of the campaigns keeps. -/
structure CampaignState.Orderly (s : CampaignState) : Prop where
  consistent : Consistent s.campaign_runs.value s.workers s.controls s.issued
  planned : s.campaigns.value.Planned
  idle : s.ready = false → s.workers = [] ∧ s.controls = []

section

variable {env : Env} {s next : CampaignState} {label : CampaignLabel}

theorem Consistent.idle {store : CampaignRunStore} {issued : List String} (hwell : store.WellFormed)
    (hstored : ∀ run ∈ store.runs, run.id ∈ issued) : Consistent store [] [] issued where
  wellFormed := hwell
  stored := hstored
  launched w hw := absurd hw List.not_mem_nil
  fresh i w hw := by cases hw
  unique := KeyedList.unique_nil
  held i w hw := by cases hw
  active i w hw := by cases hw

theorem CampaignRunStore.default_wellFormed : CampaignRunStore.default.WellFormed :=
  ⟨rfl, KeyedList.unique_nil, fun _ hrun => absurd hrun List.not_mem_nil⟩

namespace CampaignState

theorem Orderly.initial (audit_path state_dir : Bool) (catalog : Catalog) (run_namespace : RunNamespace) :
    (CampaignState.initial audit_path state_dir catalog run_namespace).Orderly where
  consistent := .idle CampaignRunStore.default_wellFormed fun _ hrun => absurd hrun List.not_mem_nil
  planned := CampaignCatalog.seeded_planned
  idle _ := ⟨rfl, rfl⟩

/-- What is left when the process is gone. -/
theorem Orderly.crashed (h : s.Orderly) (exec : ExecutionState) : (s.crashed exec).Orderly := by
  refine ⟨?_, ?_, fun _ => ⟨rfl, rfl⟩⟩
  · change Consistent (s.campaign_runs.reload .default).value [] [] s.issued
    unfold Persistent.reload
    split
    · exact .idle h.consistent.wellFormed h.consistent.stored
    · exact .idle CampaignRunStore.default_wellFormed fun _ hrun => absurd hrun List.not_mem_nil
  · change (s.campaigns.reload .seeded).value.Planned
    unfold Persistent.reload
    split
    · exact h.planned
    · exact CampaignCatalog.seeded_planned

theorem Orderly.cancels {index : Nat} {r : CancelRequest} (h : s.Orderly) (hcancels : s.Cancels env index r next) :
    next.Orderly := by
  cases hcancels with
  | flag worker w hphase hw =>
    refine ⟨?_, h.planned, fun hready => ?_⟩
    · exact h.consistent.go hw rfl id (fun hpending => ⟨hpending, rfl, rfl⟩) (h.consistent.active worker w hw)
    · obtain ⟨hworkers, hcontrols⟩ := h.idle hready
      rw [hworkers] at hw
      cases hw
  | _ => exact ⟨h.consistent, h.planned, h.idle⟩

/-- What no step of a worker touches. -/
theorem Works.frame {index : Nat} {w : CampaignWorker} (hworks : s.Works env index w label next) :
    next.campaigns = s.campaigns ∧ next.ready = s.ready ∧ next.campaign_runs.path = s.campaign_runs.path ∧
      next.catalog = s.catalog ∧ next.run_namespace = s.run_namespace ∧ next.requests = s.requests := by
  cases hworks <;> exact ⟨rfl, rfl, rfl, rfl, rfl, rfl⟩

/-- A new worker enters at the end. -/
theorem launched_cases {workers : List CampaignWorker} {w x : CampaignWorker} {j : Nat}
    (h : (workers ++ [w])[j]? = some x) : workers[j]? = some x ∨ (j = workers.length ∧ x = w) := by
  rw [List.getElem?_append] at h
  split at h
  · exact Or.inl h
  · obtain ⟨hj, hx⟩ := List.getElem?_eq_some_iff.mp h
    rw [List.length_singleton] at hj
    rw [List.getElem_singleton] at hx
    exact Or.inr ⟨by omega, hx.symm⟩

/-- A request starts a worker. A new run has an id of its own. -/
theorem Orderly.spawn (h : s.Orderly) (hready : s.ready = true) {w : CampaignWorker} (hphase : w.phase = .launched)
    {issued : List String} (hissued : ∀ id ∈ s.issued, id ∈ issued) (hid : w.run.id ∈ issued)
    (hnew : w.resume = false → w.run.WellFormed ∧ w.run.Ready ∧ w.run.id ∉ s.issued)
    (hold : w.resume = true → s.campaign_runs.value.get w.run.id = some w.run) :
    Orderly { s with issued := issued, workers := s.workers ++ [w] } where
  consistent := {
    wellFormed := h.consistent.wellFormed
    stored := fun run hrun => hissued run.id (h.consistent.stored run hrun)
    launched := fun x hx => by
      obtain hx | hx := List.mem_append.mp hx
      · exact hissued x.run.id (h.consistent.launched x hx)
      · rw [List.mem_singleton.mp hx]
        exact hid
    fresh := fun j x hx hpending hresume => by
      obtain hxold | ⟨rfl, rfl⟩ := launched_cases hx
      · obtain ⟨hwell, hrunready, hnone, hsole⟩ := h.consistent.fresh j x hxold hpending hresume
        refine ⟨hwell, hrunready, hnone, fun k y hy hyid => ?_⟩
        obtain hy | ⟨rfl, rfl⟩ := launched_cases hy
        · exact hsole k y hy hyid
        · cases hyresume : y.resume with
          | true =>
            have hget := hold hyresume
            rw [hyid] at hget
            cases hnone.symm.trans hget
          | false => exact absurd (hyid ▸ h.consistent.launched x (List.mem_of_getElem? hxold)) (hnew hyresume).2.2
      · obtain ⟨hwell, hrunready, hfresh⟩ := hnew hresume
        refine ⟨hwell, hrunready, ?_, fun k y hy hyid => ?_⟩
        · refine Option.eq_none_iff_forall_ne_some.mpr fun run hrun => hfresh ?_
          obtain ⟨hmem, hrunid⟩ := CampaignRunStore.get_some hrun
          exact hrunid ▸ h.consistent.stored run hmem
        · obtain hy | ⟨hk, -⟩ := launched_cases hy
          · exact absurd (hyid ▸ h.consistent.launched y (List.mem_of_getElem? hy)) hfresh
          · exact hk
    unique := h.consistent.unique
    held := fun j x hx hholds => by
      obtain hx | ⟨-, rfl⟩ := launched_cases hx
      · exact h.consistent.held j x hx hholds
      · rw [hphase] at hholds
        cases hholds
    active := fun j x hx hactive => by
      obtain hx | ⟨-, rfl⟩ := launched_cases hx
      · exact h.consistent.active j x hx hactive
      · rw [hphase] at hactive
        cases hactive }
  planned := h.planned
  idle hidle := by
    cases hready.symm.trans hidle

theorem next_campaign_run_id_ne (run_namespace : RunNamespace) (n : UInt64) :
    next_campaign_run_id run_namespace n ≠ "" := by
  intro h
  have hlength := congrArg (fun id : String => id.toList.length) h
  simp [next_campaign_run_id] at hlength

/-- A launched run starts with nothing done. -/
theorem queued_wellFormed {id : String} {campaign : Campaign} (hid : id ≠ "") (hplanned : Planned campaign.steps)
    (role : Role)
    (target_override : Option String) (timeout_sec : Option UInt32) (now : String) :
    (CampaignRun.queued id campaign role target_override timeout_sec now).WellFormed ∧
      (CampaignRun.queued id campaign role target_override timeout_sec now).Ready := by
  refine ⟨⟨hid, hplanned, ?_, List.nil_prefix, (fun r hr => by cases hr), fun h => ?_⟩, Or.inl rfl,
    fun r hr => by cases hr⟩
  · change QUEUED ∈ STATUSES
    decide
  · have h : QUEUED = COMPLETED := h
    exact absurd h (by decide)

theorem recovered_wellFormed {store : CampaignRunStore} (h : store.WellFormed) (now : String) :
    (store.recover_interrupted now).WellFormed := by
  refine ⟨h.version, h.unique.map_entries (CampaignRun.recover_id now), fun run hrun => ?_⟩
  obtain ⟨old, hold, rfl⟩ := List.mem_map.mp hrun
  exact (h.runs old hold).recover now

theorem Orderly.moves (h : s.Orderly) (hmoves : s.Moves env label next) : next.Orderly := by
  cases hmoves with
  | start id entry role selected now exec hready hfresh hexec => exact ⟨h.consistent.issue id, h.planned, h.idle⟩
  | exec label exec hother hexec hlive => exact ⟨h.consistent, h.planned, h.idle⟩
  | crash label exec hexec hdown => exact h.crashed exec
  | abandon catalog run_namespace now disk hserving hready => exact h.crashed _
  | startup catalog run_namespace now disk hserving hready hvalid =>
    obtain ⟨hworkers, hcontrols⟩ := h.idle hready
    refine ⟨?_, h.planned, fun hidle => by cases hidle⟩
    change Consistent (s.campaign_runs.value.recover_interrupted now) s.workers s.controls s.issued
    rw [hworkers, hcontrols]
    refine .idle (recovered_wellFormed h.consistent.wellFormed now) fun run hrun => ?_
    obtain ⟨old, hold, rfl⟩ := List.mem_map.mp hrun
    rw [CampaignRun.recover_id]
    exact h.consistent.stored old hold
  | register_campaign role campaign checked disk hready hchecked =>
    exact ⟨h.consistent, h.planned.register (checked_campaign_planned hchecked), h.idle⟩
  | delete_campaign role id disk hready => exact ⟨h.consistent, h.planned.deregister id, h.idle⟩
  | unregistered role campaign disk => exact h
  | undeleted role id disk => exact h
  | launch role id campaign target_override timeout_sec n now run hready hcampaign hrun hfresh hauthorized =>
    refine h.spawn hready rfl (fun id hid => List.mem_cons_of_mem _ hid) List.mem_cons_self (fun _ => ?_)
      fun hresume => by cases hresume
    subst hrun
    obtain ⟨hwell, hrunready⟩ := queued_wellFormed (next_campaign_run_id_ne s.run_namespace n)
      (h.planned.get hcampaign) role
      target_override timeout_sec now
    exact ⟨hwell, hrunready, hfresh⟩
  | resume role id run hready hrun hauthorized =>
    obtain ⟨hmem, rfl⟩ := CampaignRunStore.get_some hrun
    exact h.spawn hready rfl (fun id hid => hid) (h.consistent.stored run hmem) (fun hresume => by cases hresume)
      fun _ => hrun
  | cancel_campaign_run role id hready => exact ⟨h.consistent, h.planned, h.idle⟩
  | abort_all role exec hready hexec => exact ⟨h.consistent, h.planned, h.idle⟩
  | cancel request r next hready hrequest hcancels => exact h.cancels hcancels
  | work index w label next hready hw hworks =>
    obtain ⟨hcampaigns, hnext, -⟩ := hworks.frame
    refine ⟨h.consistent.works hw hworks, hcampaigns ▸ h.planned, fun hidle => ?_⟩
    cases hready.symm.trans (hnext.symm.trans hidle)

end CampaignState

end

end asmodeus.control_plane
