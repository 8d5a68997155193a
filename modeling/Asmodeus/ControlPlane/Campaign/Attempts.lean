import Asmodeus.ControlPlane.Campaign.Consistency
import Asmodeus.ControlPlane.Execution.Final

open asmodeus.common asmodeus.telemetry

namespace asmodeus.control_plane

open campaign_run

/-- The results of a run against the scenarios started for it: every one is the result at
its index, or it is superseded after a final verdict. An empty id stands for a stage that
was never started. -/
structure Accounts (id : String) (current superseded : List String) (attempts : List Attempt)
    (final : String → Prop) : Prop where
  nodup : ((current ++ superseded).filter fun run_id => decide (run_id ≠ "")).Nodup
  attempts : ∀ a ∈ attempts, a.campaign_run = id →
    current[a.index]? = some a.run_id ∨ (a.run_id ∈ superseded ∧ final a.run_id)

namespace Accounts

variable {id run_id : String} {current finished superseded : List String} {attempts : List Attempt}
  {final final' : String → Prop}

theorem mono (h : Accounts id current superseded attempts final)
    (hfinal : ∀ run_id, final run_id → final' run_id) : Accounts id current superseded attempts final' where
  nodup := h.nodup
  attempts a ha hid := (h.attempts a ha hid).imp_right (And.imp_right (hfinal a.run_id))

theorem intend (h : Accounts id current superseded attempts final) (hnew : run_id ∉ current ++ superseded) :
    Accounts id (current ++ [run_id]) superseded attempts final where
  nodup := by
    have hperm : (current ++ [run_id] ++ superseded).Perm (run_id :: (current ++ superseded)) := by
      rw [List.append_assoc]
      exact List.perm_middle
    rw [(hperm.filter _).nodup_iff, List.filter_cons]
    split
    · exact List.nodup_cons.mpr ⟨fun hmem => hnew (List.mem_filter.mp hmem).1, h.nodup⟩
    · exact h.nodup
  attempts a ha hid := by
    obtain hold | hold := h.attempts a ha hid
    · obtain ⟨hlt, -⟩ := List.getElem?_eq_some_iff.mp hold
      exact Or.inl ((List.getElem?_append_left hlt).trans hold)
    · exact Or.inr hold

theorem withdraw (h : Accounts id (finished ++ [run_id]) superseded attempts final)
    (hunstarted : ∀ a ∈ attempts, a.run_id ≠ run_id) :
    Accounts id (finished ++ [""]) superseded attempts final where
  nodup := by
    have hnodup := h.nodup
    rw [List.append_assoc, List.filter_append] at hnodup ⊢
    refine hnodup.sublist (List.Sublist.append (List.Sublist.refl _) ?_)
    rw [List.singleton_append, List.singleton_append, List.filter_cons_of_neg (by simp)]
    exact (List.sublist_cons_self run_id superseded).filter _
  attempts a ha hid := by
    obtain hold | hold := h.attempts a ha hid
    · rw [List.getElem?_append] at hold ⊢
      split at hold
      · rename_i hlt
        rw [if_pos hlt]
        exact Or.inl hold
      · have hlast := List.mem_of_getElem? hold
        exact absurd (List.mem_singleton.mp hlast) (hunstarted a ha)
    · exact Or.inr hold

theorem supersede (h : Accounts id (finished ++ [run_id]) superseded attempts final)
    (hfinal : ∀ a ∈ attempts, a.run_id = run_id → final run_id) :
    Accounts id finished (superseded ++ [run_id]) attempts final where
  nodup := by
    have hperm : (finished ++ (superseded ++ [run_id])).Perm (finished ++ [run_id] ++ superseded) := by
      rw [List.append_assoc]
      exact List.Perm.append_left finished List.perm_append_comm
    exact (hperm.filter _).nodup_iff.mpr h.nodup
  attempts a ha hid := by
    obtain hold | ⟨hmem, hold⟩ := h.attempts a ha hid
    · rw [List.getElem?_append] at hold
      split at hold
      · exact Or.inl hold
      · have hlast := List.mem_singleton.mp (List.mem_of_getElem? hold)
        exact Or.inr ⟨hlast ▸ List.mem_append_right _ List.mem_cons_self, hlast ▸ hfinal a ha hlast⟩
    · exact Or.inr ⟨List.mem_append_left _ hmem, hold⟩

theorem start (h : Accounts id (finished ++ [run_id]) superseded attempts final) :
    Accounts id (finished ++ [run_id]) superseded (⟨id, finished.length, run_id⟩ :: attempts) final where
  nodup := h.nodup
  attempts a ha hid := by
    obtain rfl | ha := List.mem_cons.mp ha
    · exact Or.inl (List.getElem?_concat_length ..)
    · exact h.attempts a ha hid

theorem start_other (h : Accounts id current superseded attempts final) {a : Attempt} (hother : a.campaign_run ≠ id) :
    Accounts id current superseded (a :: attempts) final where
  nodup := h.nodup
  attempts b hb hid := by
    obtain rfl | hb := List.mem_cons.mp hb
    · exact absurd hid hother
    · exact h.attempts b hb hid

/-- A started scenario has one result. -/
theorem once (h : Accounts id current superseded attempts final) {a : Attempt} (ha : a ∈ attempts)
    (hid : a.campaign_run = id) (hnamed : a.run_id ≠ "") : (current ++ superseded).count a.run_id = 1 := by
  have hmem : a.run_id ∈ current ++ superseded := by
    obtain hcurrent | ⟨hsuperseded, -⟩ := h.attempts a ha hid
    · exact List.mem_append_left _ (List.mem_of_getElem? hcurrent)
    · exact List.mem_append_right _ hsuperseded
  have hkept : a.run_id ∈ (current ++ superseded).filter fun run_id => decide (run_id ≠ "") :=
    List.mem_filter.mpr ⟨hmem, decide_eq_true hnamed⟩
  rw [← List.count_filter (p := fun run_id => decide (run_id ≠ "")) (decide_eq_true hnamed)]
  exact List.count_eq_one_of_mem h.nodup hkept

end Accounts

namespace CampaignRun

/-- The scenario runs of the current results. -/
def current_ids (run : CampaignRun) : List String := run.step_results.map CampaignStepResult.run_id

def superseded_ids (run : CampaignRun) : List String := run.superseded_results.map CampaignStepResult.run_id

/-- The scenarios started for a run are all in its results. -/
def Accounts (run : CampaignRun) (attempts : List Attempt) (final : String → Prop) : Prop :=
  control_plane.Accounts run.id run.current_ids run.superseded_ids attempts final

section

variable {run reconciled : CampaignRun} {stage : Stage} {now : String} {attempts : List Attempt} {final : String → Prop}

theorem Attempting.current_ids (h : run.Attempting stage) :
    ∃ finished : List CampaignStepResult, run.step_results = finished ++ [stage.pending] ∧
      run.current_ids = finished.map CampaignStepResult.run_id ++ [stage.run_id] ∧
      ∀ result ∈ finished, result.status = COMPLETED := by
  obtain ⟨finished, hresults, hdone⟩ := h.results
  refine ⟨finished, hresults, ?_, hdone⟩
  rw [CampaignRun.current_ids, hresults, List.map_append, List.map_singleton]
  rfl

theorem set_last_superseded (run : CampaignRun) (change : CampaignStepResult → CampaignStepResult) :
    (run.set_last change).superseded_results = run.superseded_results := by
  unfold CampaignRun.set_last
  split <;> rfl

/-- A new last result about the same scenario run. -/
theorem set_last_current (run : CampaignRun) (change : CampaignStepResult → CampaignStepResult)
    (hkept : ∀ last, run.step_results.getLast? = some last → (change last).run_id = last.run_id) :
    (run.set_last change).current_ids = run.current_ids := by
  obtain hnil | ⟨finished, last, hconcat⟩ := List.eq_nil_or_concat run.step_results
  · unfold CampaignRun.set_last
    rw [hnil]
    rfl
  · rw [List.concat_eq_append] at hconcat
    have hlast := hkept last (by rw [hconcat, List.getLast?_concat])
    rw [set_last_concat hconcat]
    simp only [CampaignRun.current_ids, hconcat, List.map_append, List.map_singleton, hlast]

theorem recover_current (now : String) (run : CampaignRun) : (run.recover now).current_ids = run.current_ids := by
  unfold CampaignRun.recover
  split
  · rfl
  · refine run.set_last_current _ fun last _ => ?_
    split <;> rfl

theorem recover_superseded (now : String) (run : CampaignRun) :
    (run.recover now).superseded_results = run.superseded_results := by
  unfold CampaignRun.recover
  split
  · rfl
  · exact run.set_last_superseded _

/-- What a resume learns of the last attempt. -/
theorem reconcile_verdict {audit : AuditStore} {last stored : CampaignStepResult}
    (h : reconcile audit last = .ok stored) :
    stored.status = COMPLETED ∨ last.run_id = "" ∨
      ∃ record, audit.get last.run_id = some record ∧ record.is_terminal = true ∧ record.status ≠ COMPLETED := by
  unfold reconcile at h
  split at h
  · rename_i record hrecord
    dsimp only at h
    split at h
    · cases h
    · rename_i hguard
      split at h
      · obtain rfl := Except.ok.inj h
        exact Or.inl ‹_›
      · refine Or.inr (Or.inr ⟨record, hrecord, ?_, ‹_›⟩)
        cases hterminal : record.is_terminal with
        | true => rfl
        | false => simp [hterminal] at hguard
  · split at h
    · rename_i hblank
      exact Or.inr (Or.inl hblank.2)
    · cases h

theorem Reconciled.ids {audit : AuditStore} (h : run.Reconciled audit reconciled) :
    reconciled.current_ids = run.current_ids ∧ reconciled.superseded_ids = run.superseded_ids := by
  cases h with
  | kept => exact ⟨rfl, rfl⟩
  | told finished last stored hresults hopen hstored =>
    refine ⟨?_, rfl⟩
    simp only [CampaignRun.current_ids, hresults, List.map_append, List.map_singleton, (reconcile_ok hstored).2]

/-- A resume brings no new results. -/
theorem Reconciled.mem_ids {audit : AuditStore} (h : run.Reconciled audit reconciled) {id : String}
    (hid : id ∈ (reconciled.requeue now).current_ids ++ (reconciled.requeue now).superseded_ids) :
    id ∈ run.current_ids ++ run.superseded_ids := by
  rw [← h.ids.1, ← h.ids.2]
  obtain ⟨hresults, hsuperseded, -⟩ | ⟨finished, last, hconcat, -, hresults, hsuperseded⟩ :=
    reconciled.requeue_results now
  · simpa only [CampaignRun.current_ids, CampaignRun.superseded_ids, hresults, hsuperseded] using hid
  · simp only [CampaignRun.current_ids, CampaignRun.superseded_ids, hresults, hsuperseded, hconcat, List.map_append,
      List.map_singleton, List.mem_append, List.mem_singleton] at hid ⊢
    tauto

/-- A resume supersedes the last attempt only after its verdict. -/
theorem Reconciled.accounts {audit : AuditStore} (h : run.Reconciled audit reconciled)
    (hrun : run.Accounts attempts final)
    (hnamed : ∀ a ∈ attempts, a.run_id ≠ "")
    (hfinal : ∀ run_id record, audit.get run_id = some record → record.is_terminal = true → record.status ≠ COMPLETED →
      final run_id) : (reconciled.requeue now).Accounts attempts final := by
  have hid : (reconciled.requeue now).id = run.id := by
    rw [requeue_id]
    cases h <;> rfl
  unfold CampaignRun.Accounts at hrun ⊢
  rw [← h.ids.1, ← h.ids.2] at hrun
  rw [hid]
  obtain ⟨hresults, hsuperseded, -⟩ | ⟨finished, last, hconcat, hopen, hresults, hsuperseded⟩ :=
    reconciled.requeue_results now
  · simp only [CampaignRun.current_ids, CampaignRun.superseded_ids, hresults, hsuperseded] at hrun ⊢
    exact hrun
  · simp only [CampaignRun.current_ids, CampaignRun.superseded_ids, hresults, hsuperseded, hconcat, List.map_append,
      List.map_singleton] at hrun ⊢
    refine hrun.supersede fun a ha heq => ?_
    cases h with
    | kept hdone => exact absurd (hdone last (by rw [hconcat, List.getLast?_concat])) hopen
    | told before last' stored hresults' hopen' hstored =>
      obtain ⟨-, hlast⟩ := List.append_inj' hconcat rfl
      obtain rfl := List.singleton_inj.mp hlast
      obtain ⟨-, hrunid⟩ := reconcile_ok hstored
      obtain hdone | hblank | ⟨record, hrecord, hterminal, hstatus⟩ := reconcile_verdict hstored
      · exact absurd hdone hopen
      · exact absurd (heq.trans (hrunid.trans hblank)) (hnamed a ha)
      · exact hrunid.symm ▸ hfinal last'.run_id record hrecord hterminal hstatus

end

end CampaignRun

/-- The scenario run a worker is about to start, or has given up to start. -/
def CampaignWorker.planned (w : CampaignWorker) : Option String :=
  match w.phase with
  | .intending stage | .intended stage | .starting stage => some stage.run_id
  | .withdrawing => w.run.current_ids.getLast?
  | _ => none

section

variable {w : CampaignWorker} {stage : Stage}

theorem CampaignWorker.planned_intending (hphase : w.phase = .intending stage) : w.planned = some stage.run_id := by
  rw [CampaignWorker.planned, hphase]

theorem CampaignWorker.planned_intended (hphase : w.phase = .intended stage) : w.planned = some stage.run_id := by
  rw [CampaignWorker.planned, hphase]

theorem CampaignWorker.planned_starting (hphase : w.phase = .starting stage) : w.planned = some stage.run_id := by
  rw [CampaignWorker.planned, hphase]

theorem CampaignWorker.planned_withdrawing (hphase : w.phase = .withdrawing) :
    w.planned = w.run.current_ids.getLast? := by
  rw [CampaignWorker.planned, hphase]

end

/-- The started scenarios against the snapshot and the workers. A planned run is of one
worker and has not been started; the intent of a stage is new to its run, and a new run
has no results. -/
structure Staged (store : CampaignRunStore) (workers : List CampaignWorker) (attempts : List Attempt)
    (issued started : List String) (final : String → Prop) : Prop where
  known : ∀ id ∈ started, id ∈ issued
  named : ∀ a ∈ attempts, a.run_id ∈ started ∧ a.run_id ≠ "" ∧ a.campaign_run ∈ issued
  planned : ∀ (i : Nat) (w : CampaignWorker) (id : String), workers[i]? = some w → w.planned = some id →
    id ∈ issued ∧ id ∉ started ∧ id ≠ ""
  apart : ∀ (i j : Nat) (w x : CampaignWorker) (id : String), workers[i]? = some w → workers[j]? = some x →
    w.planned = some id → x.planned = some id → i = j
  intent : ∀ (i : Nat) (w : CampaignWorker) (stage : Stage), workers[i]? = some w → w.phase = .intending stage →
    stage.run_id ∉ w.run.current_ids ++ w.run.superseded_ids
  fresh : ∀ (i : Nat) (w : CampaignWorker), workers[i]? = some w → w.phase.is_pending = true → w.resume = false →
    w.run.current_ids = [] ∧ w.run.superseded_ids = [] ∧ ∀ a ∈ attempts, a.campaign_run ≠ w.run.id
  recorded : ∀ run ∈ store.runs, ∀ id ∈ run.current_ids ++ run.superseded_ids, id = "" ∨ id ∈ issued
  accounted : ∀ run ∈ store.runs, run.Accounts attempts final

namespace Staged

variable {store next : CampaignRunStore} {workers : List CampaignWorker} {attempts : List Attempt}
  {issued started : List String} {final final' : String → Prop} {i : Nat} {w w' : CampaignWorker}

/-- No workers are left. -/
theorem idle (h : Staged store workers attempts issued started final)
    (hrecorded : ∀ run ∈ next.runs, ∀ id ∈ run.current_ids ++ run.superseded_ids, id = "" ∨ id ∈ issued)
    (haccounted : ∀ run ∈ next.runs, run.Accounts attempts final) : Staged next [] attempts issued started final where
  known := h.known
  named := h.named
  planned i w id hw := by cases hw
  apart i j w x id hw := by cases hw
  intent i w stage hw := by cases hw
  fresh i w hw := by cases hw
  recorded := hrecorded
  accounted := haccounted

theorem mono (h : Staged store workers attempts issued started final)
    (hfinal : ∀ id, final id → final' id) : Staged store workers attempts issued started final' :=
  { h with accounted := fun run hrun => (h.accounted run hrun).mono hfinal }

/-- Another id is given out. -/
theorem issue (h : Staged store workers attempts issued started final) (id : String) :
    Staged store workers attempts (id :: issued) started final :=
  { h with
    known := fun id' hid => List.mem_cons_of_mem id (h.known id' hid)
    named := fun a ha => ⟨(h.named a ha).1, (h.named a ha).2.1, List.mem_cons_of_mem id (h.named a ha).2.2⟩
    planned := fun i w id' hw hplanned => by
      obtain ⟨hissued, hrest⟩ := h.planned i w id' hw hplanned
      exact ⟨List.mem_cons_of_mem id hissued, hrest⟩
    recorded := fun run hrun id' hid => (h.recorded run hrun id' hid).imp_right (List.mem_cons_of_mem id) }

/-- A run that nobody plans is started elsewhere. -/
theorem elsewhere (h : Staged store workers attempts issued started final) {id : String} (hfresh : id ∉ issued) :
    Staged store workers attempts (id :: issued) (id :: started) final :=
  { h.issue id with
    known := fun id' hid => by
      obtain rfl | hid := List.mem_cons.mp hid
      · exact List.mem_cons_self
      · exact List.mem_cons_of_mem id (h.known id' hid)
    named := fun a ha => ⟨List.mem_cons_of_mem id (h.named a ha).1, ((h.issue id).named a ha).2⟩
    planned := fun i w id' hw hplanned => by
      obtain ⟨hissued, hunstarted, hne⟩ := h.planned i w id' hw hplanned
      refine ⟨List.mem_cons_of_mem id hissued, fun hmem => ?_, hne⟩
      obtain rfl | hmem := List.mem_cons.mp hmem
      · exact hfresh hissued
      · exact hunstarted hmem }

/-- One worker goes on with no more planned than before. -/
theorem go (h : Staged store workers attempts issued started final) (hw : workers[i]? = some w)
    (hplanned : ∀ id, w'.planned = some id → w.planned = some id)
    (hintent : ∀ stage, w'.phase = .intending stage → stage.run_id ∉ w'.run.current_ids ++ w'.run.superseded_ids)
    (hpending : w'.phase.is_pending = true → w.phase.is_pending = true ∧ w'.run = w.run ∧ w'.resume = w.resume) :
    Staged store (workers.set i w') attempts issued started final where
  known := h.known
  named := h.named
  planned j x id hx hxplanned := by
    obtain ⟨rfl, rfl⟩ | ⟨-, hx⟩ := get_set_cases hx
    · exact h.planned j w id hw (hplanned id hxplanned)
    · exact h.planned j x id hx hxplanned
  apart j k x y id hx hy hxplanned hyplanned := by
    have hback {l : Nat} {z : CampaignWorker} (hz : (workers.set i w')[l]? = some z) (hzplanned : z.planned = some id) :
        ∃ z' : CampaignWorker, workers[l]? = some z' ∧ z'.planned = some id := by
      obtain ⟨rfl, rfl⟩ | ⟨-, hz⟩ := get_set_cases hz
      · exact ⟨w, hw, hplanned id hzplanned⟩
      · exact ⟨z, hz, hzplanned⟩
    obtain ⟨x', hx', hxplanned'⟩ := hback hx hxplanned
    obtain ⟨y', hy', hyplanned'⟩ := hback hy hyplanned
    exact h.apart j k x' y' id hx' hy' hxplanned' hyplanned'
  intent j x stage hx hphase := by
    obtain ⟨rfl, rfl⟩ | ⟨-, hx⟩ := get_set_cases hx
    · exact hintent stage hphase
    · exact h.intent j x stage hx hphase
  fresh j x hx hxpending hresume := by
    obtain ⟨rfl, rfl⟩ | ⟨-, hx⟩ := get_set_cases hx
    · obtain ⟨hwpending, hrun, hwresume⟩ := hpending hxpending
      rw [hrun]
      exact h.fresh j w hw hwpending (hwresume ▸ hresume)
    · exact h.fresh j x hx hxpending hresume
  recorded := h.recorded
  accounted := h.accounted

/-- A request starts a worker. -/
theorem spawn (h : Staged store workers attempts issued started final) (hphase : w.phase = .launched)
    (hnew : w.resume = false → w.run.current_ids = [] ∧ w.run.superseded_ids = [] ∧
      ∀ a ∈ attempts, a.campaign_run ≠ w.run.id) : Staged store (workers ++ [w]) attempts issued started final := by
  have hnone : w.planned = none := by
    unfold CampaignWorker.planned
    rw [hphase]
  have hold {j : Nat} {x : CampaignWorker} {id : String} (hx : (workers ++ [w])[j]? = some x)
      (hplanned : x.planned = some id) : workers[j]? = some x := by
    obtain hx | ⟨-, rfl⟩ := CampaignState.launched_cases hx
    · exact hx
    · cases hnone.symm.trans hplanned
  refine { h with
    planned := fun j x id hx hplanned => h.planned j x id (hold hx hplanned) hplanned
    apart := fun j k x y id hx hy hplanned hplanned' =>
      h.apart j k x y id (hold hx hplanned) (hold hy hplanned') hplanned hplanned'
    intent := fun j x stage hx hxphase => ?_
    fresh := fun j x hx hpending hresume => ?_ }
  · obtain hx | ⟨-, rfl⟩ := CampaignState.launched_cases hx
    · exact h.intent j x stage hx hxphase
    · cases hphase.symm.trans hxphase
  · obtain hx | ⟨-, rfl⟩ := CampaignState.launched_cases hx
    · exact h.fresh j x hx hpending hresume
    · exact hnew hresume

/-- A stage is planned under a new id. -/
theorem plan (h : Staged store workers attempts issued started final) (stage : Stage) (hw : workers[i]? = some w)
    (hstored : w.run ∈ store.runs) (hfresh : stage.run_id ∉ issued) (hnamed : stage.run_id ≠ "") :
    Staged store (workers.set i { w with phase := .intending stage }) attempts (stage.run_id :: issued) started
      final := by
  have hwplanned : ({ w with phase := .intending stage } : CampaignWorker).planned = some stage.run_id := rfl
  have hold {j : Nat} {x : CampaignWorker} {id : String} (hx : workers[j]? = some x) (hxplanned : x.planned = some id) :
      id ≠ stage.run_id := fun heq => hfresh (heq ▸ (h.planned j x id hx hxplanned).1)
  refine { h.issue stage.run_id with
    planned := fun j x id hx hxplanned => ?_
    apart := fun j k x y id hx hy hxplanned hyplanned => ?_
    intent := fun j x stage' hx hxphase => ?_
    fresh := fun j x hx hxpending hresume => ?_ }
  · obtain ⟨rfl, rfl⟩ | ⟨-, hx⟩ := get_set_cases hx
    · obtain rfl := Option.some.inj (hwplanned.symm.trans hxplanned)
      exact ⟨List.mem_cons_self, fun hmem => hfresh (h.known _ hmem), hnamed⟩
    · exact (h.issue stage.run_id).planned j x id hx hxplanned
  · obtain ⟨hj, hxw⟩ | ⟨-, hxold⟩ := get_set_cases hx
    · obtain ⟨hk, -⟩ | ⟨-, hyold⟩ := get_set_cases hy
      · exact hj.trans hk.symm
      · rw [hxw, hwplanned, Option.some.injEq] at hxplanned
        exact absurd hxplanned.symm (hold hyold hyplanned)
    · obtain ⟨-, hyw⟩ | ⟨-, hyold⟩ := get_set_cases hy
      · rw [hyw, hwplanned, Option.some.injEq] at hyplanned
        exact absurd hyplanned.symm (hold hxold hxplanned)
      · exact h.apart j k x y id hxold hyold hxplanned hyplanned
  · obtain ⟨rfl, rfl⟩ | ⟨-, hx⟩ := get_set_cases hx
    · obtain rfl := CampaignPhase.intending.inj hxphase
      intro hmem
      obtain hblank | hissued := h.recorded w.run hstored _ hmem
      · exact hnamed hblank
      · exact hfresh hissued
    · exact h.intent j x stage' hx hxphase
  · obtain ⟨rfl, rfl⟩ | ⟨-, hx⟩ := get_set_cases hx
    · cases hxpending
    · exact h.fresh j x hx hxpending hresume

/-- The snapshot is written. -/
theorem write {saved : CampaignRun} (h : Staged store workers attempts issued started final)
    (hwrites : store.Writes next saved)
    (hrecorded : ∀ id ∈ saved.current_ids ++ saved.superseded_ids, id = "" ∨ id ∈ issued)
    (haccounted : saved.Accounts attempts final) : Staged next workers attempts issued started final :=
  { h with
    recorded := fun run hrun => by
      obtain rfl | hrun := hwrites.mem run hrun
      · exact hrecorded
      · exact h.recorded run hrun
    accounted := fun run hrun => by
      obtain rfl | hrun := hwrites.mem run hrun
      · exact haccounted
      · exact h.accounted run hrun }

/-- A stage is started on the intent that the snapshot holds. -/
theorem start {controls : List (String × Nat)} (h : Staged store workers attempts issued started final)
    (hconsistent : Consistent store workers controls issued) (hw : workers[i]? = some w) {stage : Stage}
    (hphase : w.phase = .starting stage) (hnext : w'.planned = none)
    (hnotpending : w'.phase.is_pending = false) :
    Staged store (workers.set i w') (⟨w.run.id, w.run.step_results.length - 1, stage.run_id⟩ :: attempts) issued
      (stage.run_id :: started) final := by
  have hwplanned := CampaignWorker.planned_starting hphase
  obtain ⟨hissued, hunstarted, hnamed⟩ := h.planned i w stage.run_id hw hwplanned
  obtain ⟨hget, hattempting⟩ := hconsistent.active i w hw (by rw [hphase]; rfl)
  rw [hphase] at hattempting
  obtain ⟨finished, hresults, hids, -⟩ := CampaignRun.Attempting.current_ids hattempting
  have hgone : Staged store (workers.set i w') attempts issued started final := by
    refine h.go hw (fun id hplanned => by cases hnext.symm.trans hplanned) (fun stage' hphase' => ?_)
      fun hpending => by cases hnotpending.symm.trans hpending
    cases hnext.symm.trans (CampaignWorker.planned_intending hphase')
  refine { hgone with
    known := fun id hid => ?_
    named := fun a ha => ?_
    planned := fun j x id hx hxplanned => ?_
    fresh := fun j x hx hxpending hresume => ?_
    accounted := fun run hrun => ?_ }
  · obtain rfl | hid := List.mem_cons.mp hid
    · exact hissued
    · exact h.known id hid
  · obtain rfl | ha := List.mem_cons.mp ha
    · exact ⟨List.mem_cons_self, hnamed, hconsistent.launched w (List.mem_of_getElem? hw)⟩
    · obtain ⟨hmem, hrest⟩ := h.named a ha
      exact ⟨List.mem_cons_of_mem _ hmem, hrest⟩
  · obtain ⟨hxissued, hxunstarted, hxnamed⟩ := hgone.planned j x id hx hxplanned
    refine ⟨hxissued, fun hmem => ?_, hxnamed⟩
    obtain rfl | hmem := List.mem_cons.mp hmem
    · obtain ⟨-, rfl⟩ | ⟨hj, hx⟩ := get_set_cases hx
      · cases hnext.symm.trans hxplanned
      · exact hj (h.apart j i x w _ hx hw hxplanned hwplanned)
    · exact hxunstarted hmem
  · obtain ⟨hcurrent, hsuperseded, hattempts⟩ := hgone.fresh j x hx hxpending hresume
    refine ⟨hcurrent, hsuperseded, fun a ha => ?_⟩
    obtain rfl | ha := List.mem_cons.mp ha
    · obtain ⟨-, rfl⟩ | ⟨-, hx⟩ := get_set_cases hx
      · cases hnotpending.symm.trans hxpending
      · obtain ⟨-, -, hnone, -⟩ := hconsistent.fresh j x hx hxpending hresume
        intro heq
        rw [← heq, hget] at hnone
        cases hnone
    · exact hattempts a ha
  · have haccounts := hgone.accounted run hrun
    by_cases hid : run.id = w.run.id
    · have hstored : store.get run.id = some run := hconsistent.wellFormed.unique.find_of_mem hrun
      rw [hid, hget, Option.some.injEq] at hstored
      subst hstored
      have hlength : w.run.step_results.length - 1 = (finished.map CampaignStepResult.run_id).length := by
        rw [hresults, List.length_append, List.length_map, List.length_singleton, Nat.add_sub_cancel]
      unfold CampaignRun.Accounts at haccounts ⊢
      rw [hids] at haccounts ⊢
      rw [hlength]
      exact haccounts.start
    · exact haccounts.start_other (Ne.symm hid)

end Staged

end asmodeus.control_plane
