import Asmodeus.ControlPlane.Execution.Feedback
import Asmodeus.ControlPlane.Execution.Issues

open asmodeus.common asmodeus.telemetry

namespace asmodeus.control_plane

/-- Every revision is one of a started run, and a run whose admission is yet to come
has none. -/
structure ExecutionState.Heard (exec : ExecutionState) (started : List String) : Prop where
  issues : exec.Issues started
  recorded : ∀ entry ∈ exec.history, entry.2.run_id ∈ started
  unheard : ∀ (handle : Nat) (w : Worker), exec.workers[handle]? = some w → w.phase = .admitting →
    latest exec.history w.record.run_id = none

/-- The verdict on a run stays what it is. -/
structure ExecutionState.Final (exec : ExecutionState) (run_id : String) (P : String → Prop) : Prop where
  status : ∀ last, latest exec.history run_id = some last → last.is_terminal = true ∧ P last.status
  admitted : ∀ (handle : Nat) (w : Worker), exec.workers[handle]? = some w → w.record.run_id = run_id →
    w.phase ≠ .admitting

section

variable {env : Env} {s next : ExecutionState} {label : ExecutionLabel} {started started' : List String}
  {run_id : String} {P : String → Prop}

theorem Worker.Follows.admitting {w w' : Worker} (h : w.Follows w') (hphase : w'.phase = .admitting) :
    w.phase = .admitting := by
  have hadmitted := h.admitted
  have hended := h.ended
  rw [hphase] at hadmitted hended
  cases hbefore : w.phase with
  | admitting => rfl
  | refused =>
    rw [hbefore] at hended
    cases hended rfl
  | _ =>
    rw [hbefore] at hadmitted
    cases hadmitted rfl

/-- A lawful revision of a run without any is that of its admission, unless it is
inherited. -/
theorem CommitLaw.of_none {before : List (Author × AuditRecord)} {entry : Author × AuditRecord}
    (hlaw : CommitLaw before entry) (hown : entry.1 ≠ .legacy) (hnone : latest before entry.2.run_id = none) :
    entry.1 = .admission := by
  obtain ⟨author, record⟩ := entry
  cases author with
  | legacy => exact absurd rfl hown
  | admission => rfl
  | worker | feedback | recovery =>
    obtain ⟨old, hold, -⟩ := hlaw
    cases hnone.symm.trans hold

theorem ExecutionState.Moves.law (hmoves : s.Moves env label next) (hsound : s.Sound) {entry : Author × AuditRecord}
    (hcommit : next.history = s.history ++ [entry]) : CommitLaw s.history entry := by
  have hlawful := (hsound.moves hmoves).lawful
  rw [hcommit, History.eachStep_snoc] at hlawful
  exact hlawful.2

/-- The worker of an admission has left its first phase. -/
theorem ExecutionState.Moves.admission (hmoves : s.Moves env label next) {record : AuditRecord}
    (hcommit : next.history = s.history ++ [(.admission, record)]) :
    ∃ (handle : Nat) (w : Worker), s.workers[handle]? = some w ∧ w.record = record ∧
      ∀ y : Worker, next.workers[handle]? = some y → y.phase ≠ .admitting := by
  have hgrown : s.history ≠ s.history ++ [(.admission, record)] := by simp
  cases hmoves with
  | append handle w hserving hw hphase hnew =>
    have hsame := List.append_cancel_left hcommit
    rw [List.singleton_inj, Prod.mk.injEq] at hsame
    refine ⟨handle, w, hw, hsame.2, fun y hy hadmitting => ?_⟩
    obtain ⟨-, rfl⟩ | ⟨hne, -⟩ := get_set_worker hy
    · cases hadmitting
    · exact hne rfl
  | restart audit hdown hload =>
    dsimp only at hcommit
    split at hcommit
    · exact absurd hcommit hgrown
    · simp at hcommit
  | recover old record' pending now hrecovering hsign =>
    have hsame := List.append_cancel_left hcommit
    simp at hsame
  | commit handle w settlement now old record' hserving hw hphase hold hrevise hid hsettlement =>
    have hsame := List.append_cancel_left hcommit
    simp at hsame
  | commit_feedback request feedback now old record' hserving hfeedback hold hrevise hid =>
    have hsame := List.append_cancel_left hcommit
    simp at hsame
  | stop_pass request stop hserving hstop hpending =>
    rw [stopped_frame s stop] at hcommit
    exact absurd hcommit hgrown
  | cancel_scenario id hserving =>
    rw [cancel_scenario_frame s id] at hcommit
    exact absurd hcommit hgrown
  | _ => exact absurd hcommit hgrown

theorem ExecutionState.Heard.moves (hheard : s.Heard started) (hsound : s.Sound) (hmoves : s.Moves env label next)
    (hids : FreshIds label started started') : next.Heard started' where
  issues := hheard.issues.moves hmoves hids
  recorded := by
    intro entry hentry
    refine hids.kept _ ?_
    obtain hsame | ⟨hlost, -⟩ | ⟨last, hcommit, hauthored⟩ := hmoves.commits
    · exact hheard.recorded entry (hsame ▸ hentry)
    · rw [hlost] at hentry
      cases hentry
    · rw [hcommit] at hentry
      obtain hentry | hentry := List.mem_append.mp hentry
      · exact hheard.recorded entry hentry
      · obtain rfl := List.mem_singleton.mp hentry
        cases hlatest : latest s.history entry.2.run_id with
        | some old =>
          obtain ⟨author, hmem⟩ := mem_of_latest hlatest
          exact (latest_split hlatest).1 ▸ hheard.recorded _ hmem
        | none =>
          have hadmission := (hmoves.law hsound hcommit).of_none hauthored.own hlatest
          obtain ⟨author, record⟩ := entry
          dsimp only at hadmission
          subst hadmission
          obtain ⟨handle, w, hw, rfl, -⟩ := hmoves.admission hcommit
          exact hheard.issues.known handle w hw
  unheard := by
    intro handle y hy hphase
    obtain ⟨x, hx, hfollows⟩ | ⟨id, entry, role, selected, now, hlabel, -, hsign, -⟩ := hmoves.workers_from hy
    · have hnone := hheard.unheard handle x hx (hfollows.admitting hphase)
      rw [hfollows.record]
      obtain hsame | ⟨hlost, -⟩ | ⟨last, hcommit, hauthored⟩ := hmoves.commits
      · rw [hsame, hnone]
      · rw [hlost]
        rfl
      · rw [hcommit, latest_snoc]
        split
        · rename_i hid
          rw [hid] at hnone
          have hadmission := (hmoves.law hsound hcommit).of_none hauthored.own hnone
          obtain ⟨author, record⟩ := last
          dsimp only at hadmission hid
          subst hadmission
          obtain ⟨handle', w, hw, rfl, hgone⟩ := hmoves.admission hcommit
          obtain rfl := hheard.issues.distinct handle handle' x w hx hw hid
          exact absurd hphase (hgone y hy)
        · exact hnone
    · rw [(admission_record_spec hsign).1]
      have hfresh := (hids.fresh id entry role selected now hlabel).1
      have hsame : next.history = s.history := by
        subst hlabel
        cases hmoves <;> rfl
      rw [hsame]
      refine Option.eq_none_iff_forall_ne_some.mpr fun last hlast => hfresh ?_
      obtain ⟨author, hmem⟩ := mem_of_latest hlast
      exact (latest_split hlast).1 ▸ hheard.recorded _ hmem

/-- The verdict on a run that has one is final. -/
theorem ExecutionState.Heard.final (hheard : s.Heard started) {last : AuditRecord}
    (hlast : latest s.history run_id = some last) (hterminal : last.is_terminal = true) (hstatus : P last.status) :
    s.Final run_id P where
  status other hother := by
    obtain rfl := Option.some.inj (hlast.symm.trans hother)
    exact ⟨hterminal, hstatus⟩
  admitted handle w hw hid hphase := by
    have hnone := hheard.unheard handle w hw hphase
    rw [hid, hlast] at hnone
    cases hnone

theorem ExecutionState.Final.moves (hfinal : s.Final run_id P) (hsound : s.Sound) (hmoves : s.Moves env label next)
    (hother : ∀ entry role selected now, label ≠ .start run_id entry role selected now) : next.Final run_id P where
  status last hlast := by
    obtain hsame | ⟨hlost, -⟩ | ⟨⟨author, record⟩, hcommit, hauthored⟩ := hmoves.commits
    · exact hfinal.status last (hsame ▸ hlast)
    · rw [hlost] at hlast
      cases hlast
    · have hlaw := hmoves.law hsound hcommit
      rw [hcommit, latest_snoc] at hlast
      split at hlast
      · rename_i hid
        obtain rfl := Option.some.inj hlast
        dsimp only at hid hlaw ⊢
        cases hold : latest s.history record.run_id with
        | some old =>
          obtain ⟨hterminal, hstatus⟩ := hfinal.status old (hid ▸ hold)
          obtain ⟨-, hfacts⟩ := hlaw.of_terminal hold hauthored.own hterminal
          have hsame : record.status = old.status := congrArg ExecutionFacts.status hfacts
          exact ⟨(is_terminal_of_settled hfacts).trans hterminal, hsame ▸ hstatus⟩
        | none =>
          obtain rfl : author = .admission := hlaw.of_none hauthored.own hold
          obtain ⟨handle, w, hw, hphase, rfl⟩ := hauthored
          exact absurd hphase (hfinal.admitted handle w hw hid.symm)
      · exact hfinal.status last hlast
  admitted handle y hy hid hphase := by
    obtain ⟨x, hx, hfollows⟩ | ⟨id, entry, role, selected, now, hlabel, -, hsign, -⟩ := hmoves.workers_from hy
    · exact hfinal.admitted handle x hx (hfollows.record ▸ hid) (hfollows.admitting hphase)
    · rw [(admission_record_spec hsign).1] at hid
      exact hother entry role selected now (hid ▸ hlabel)

theorem ExecutionState.initial_heard (persistent : Bool) : (initial persistent).Heard [] where
  issues := ⟨(fun handle w hw => by cases hw), fun i j w w' hw => by cases hw⟩
  recorded entry hentry := absurd hentry List.not_mem_nil
  unheard handle w hw := by cases hw

end

end asmodeus.control_plane
