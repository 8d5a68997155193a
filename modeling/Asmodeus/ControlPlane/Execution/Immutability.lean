import Asmodeus.ControlPlane.AuditStore.Journal
import Asmodeus.ControlPlane.Execution.System
import Asmodeus.Lib.History

open asmodeus.common asmodeus.telemetry

namespace asmodeus.control_plane

/-- The latest revision of a run in a history. -/
def latest (history : List (Author × AuditRecord)) (run_id : String) : Option AuditRecord :=
  KeyedList.find AuditRecord.run_id run_id (replay (history.map Prod.snd))

/-- When each author commits, and what it leaves alone. Nothing is known of an
inherited revision but that it was there first. -/
def CommitLaw (before : List (Author × AuditRecord)) : Author × AuditRecord → Prop
  | (.legacy, _) => ∀ entry ∈ before, entry.1 = .legacy
  | (.admission, record) => latest before record.run_id = none ∧ record.is_terminal = false ∧
      record.evidence.isSome ∧ has_feedback record = false
  | (.worker, record) => ∃ old, latest before record.run_id = some old ∧ old.is_terminal = false ∧
      record.evidence.isSome = old.evidence.isSome ∧ has_feedback record = has_feedback old
  | (.feedback, record) => ∃ old, latest before record.run_id = some old ∧ old.is_terminal = true ∧
      execution_facts record = (execution_facts old).settled ∧ has_feedback record = true ∧ record.evidence.isSome
  | (.recovery, record) => ∃ old, latest before record.run_id = some old ∧ old.is_terminal = false ∧
      record.status = "INTERRUPTED" ∧ record.cleanup_status = "UNCONFIRMED" ∧
      record.evidence.all (fun e => !e.cleanup_confirmed) = true ∧
      record.evidence.isSome = old.evidence.isSome ∧ has_feedback record = has_feedback old

/-- Once the latest revision of a run is terminal, only feedback follows it, and
the execution facts of one with evidence stay; feedback is given on terminal
revisions only and stays on record; recovery closes an unfinished record without
claiming success. `before` is any part of the history with all that was inherited. -/
structure FactsImmutable (history : List (Author × AuditRecord)) : Prop where
  frozen : ∀ before after x, history = before ++ after → (∀ y ∈ after, y.1 ≠ .legacy) →
    latest before x.run_id = some x → x.is_terminal = true → ∀ y ∈ after, y.2.run_id = x.run_id →
      y.1 = .feedback ∧ execution_facts y.2 = (execution_facts x).settled ∧
        (x.evidence.isSome = true → execution_facts y.2 = execution_facts x)
  feedback_kept : ∀ before after x, history = before ++ after → (∀ y ∈ after, y.1 ≠ .legacy) →
    latest before x.run_id = some x → has_feedback x = true → ∀ y ∈ after, y.2.run_id = x.run_id →
      has_feedback y.2 = true
  feedback_on_terminal : History.EachStep (fun before y => y.1 = .feedback →
    ∃ old, latest before y.2.run_id = some old ∧ old.is_terminal = true) history
  recovery_never_succeeds : History.EachStep (fun before y => y.1 = .recovery →
    (∃ old, latest before y.2.run_id = some old ∧ old.is_terminal = false) ∧
      y.2.status = "INTERRUPTED" ∧ y.2.cleanup_status = "UNCONFIRMED" ∧
      y.2.evidence.all (fun e => !e.cleanup_confirmed) = true) history

theorem latest_snoc (history : List (Author × AuditRecord)) (entry : Author × AuditRecord) (run_id : String) :
    latest (history ++ [entry]) run_id =
      if run_id = entry.2.run_id then some entry.2 else latest history run_id := by
  rw [latest, List.map_append, List.map_singleton, replay_snoc]
  cases hfind : KeyedList.find AuditRecord.run_id entry.2.run_id (replay (history.map Prod.snd)) with
  | none =>
    rw [KeyedList.upsert_of_find_none hfind]
    split
    · rename_i hid
      subst hid
      exact KeyedList.find_append_self hfind rfl
    · rename_i hid
      exact KeyedList.find_append_of_ne (Ne.symm hid)
  | some old =>
    rw [KeyedList.upsert_of_find_some hfind]
    split
    · rename_i hid
      subst hid
      exact KeyedList.find_replace_self rfl hfind
    · rename_i hid
      exact KeyedList.find_replace_of_ne rfl hid

/-- The latest revision of a run comes after all its other ones. -/
theorem latest_split {history : List (Author × AuditRecord)} {run_id : String} {record : AuditRecord}
    (h : latest history run_id = some record) :
    record.run_id = run_id ∧ ∃ author before after, history = before ++ (author, record) :: after ∧
      ∀ later ∈ after, later.2.run_id ≠ run_id := by
  induction history using List.reverseRecOn with
  | nil => cases h
  | append_singleton history entry ih =>
    rw [latest_snoc] at h
    split at h
    · rename_i hid
      obtain rfl := Option.some.inj h
      exact ⟨hid.symm, entry.1, history, [], rfl, by simp⟩
    · rename_i hid
      obtain ⟨hrecord, author, before, after, hsplit, hafter⟩ := ih h
      refine ⟨hrecord, author, before, after ++ [entry], by simp [hsplit], ?_⟩
      intro later hlater
      rcases List.mem_append.mp hlater with hlater | hlater
      · exact hafter later hlater
      · rw [List.mem_singleton] at hlater
        exact hlater ▸ Ne.symm hid

/-- Only feedback is committed on top of a terminal revision. -/
theorem CommitLaw.of_terminal {before : List (Author × AuditRecord)} {entry : Author × AuditRecord}
    {old : AuditRecord} (hlaw : CommitLaw before entry) (hold : latest before entry.2.run_id = some old)
    (hown : entry.1 ≠ .legacy) (hterminal : old.is_terminal = true) :
    entry.1 = .feedback ∧ execution_facts entry.2 = (execution_facts old).settled := by
  obtain ⟨author, record⟩ := entry
  dsimp only at hold ⊢
  have hopen : ∀ other, latest before record.run_id = some other → other.is_terminal = true := by
    intro other hother
    rw [hold, Option.some.injEq] at hother
    exact hother ▸ hterminal
  cases author with
  | legacy => exact absurd rfl hown
  | admission =>
    rw [hlaw.1] at hold
    cases hold
  | worker =>
    obtain ⟨other, hother, hrunning, -⟩ := hlaw
    rw [hopen other hother] at hrunning
    cases hrunning
  | feedback =>
    obtain ⟨other, hother, -, hfacts, -⟩ := hlaw
    rw [hold, Option.some.injEq] at hother
    exact ⟨rfl, hother ▸ hfacts⟩
  | recovery =>
    obtain ⟨other, hother, hrunning, -⟩ := hlaw
    rw [hopen other hother] at hrunning
    cases hrunning

/-- No commit on top of a revision with feedback erases it. -/
theorem CommitLaw.keeps_feedback {before : List (Author × AuditRecord)} {entry : Author × AuditRecord}
    {old : AuditRecord} (hlaw : CommitLaw before entry) (hold : latest before entry.2.run_id = some old)
    (hown : entry.1 ≠ .legacy) (hfeedback : has_feedback old = true) : has_feedback entry.2 = true := by
  obtain ⟨author, record⟩ := entry
  dsimp only at hold ⊢
  cases author with
  | legacy => exact absurd rfl hown
  | admission =>
    rw [hlaw.1] at hold
    cases hold
  | worker =>
    obtain ⟨other, hother, -, -, hsame⟩ := hlaw
    rw [hold, Option.some.injEq] at hother
    rw [hsame, ← hother, hfeedback]
  | feedback =>
    obtain ⟨other, -, -, -, hrecord, -⟩ := hlaw
    exact hrecord
  | recovery =>
    obtain ⟨other, hother, -, -, -, -, -, hsame⟩ := hlaw
    rw [hold, Option.some.injEq] at hother
    rw [hsame, ← hother, hfeedback]

/-- What the commits of the process keep of the latest revision of a run, they
keep of all that follow it. -/
theorem latest_kept {P : AuditRecord → Prop} {Q : Author × AuditRecord → Prop}
    (hstep : ∀ earlier entry old, CommitLaw earlier entry → entry.1 ≠ .legacy →
      latest earlier entry.2.run_id = some old → P old → P entry.2 ∧ Q entry)
    {before after : List (Author × AuditRecord)} (hlaw : History.EachStep CommitLaw (before ++ after))
    (hown : ∀ y ∈ after, y.1 ≠ .legacy) {x : AuditRecord} (hx : latest before x.run_id = some x) (hP : P x) :
    (∀ y ∈ after, y.2.run_id = x.run_id → Q y) ∧ ∃ last, latest (before ++ after) x.run_id = some last ∧ P last := by
  induction after using List.reverseRecOn with
  | nil => exact ⟨by simp, x, by rwa [List.append_nil], hP⟩
  | append_singleton after entry ih =>
    rw [← List.append_assoc, History.eachStep_snoc] at hlaw
    obtain ⟨hbefore, last, hlast, hkept⟩ := ih hlaw.1 fun y hy => hown y (List.mem_append_left _ hy)
    rw [← List.append_assoc, latest_snoc]
    by_cases hid : x.run_id = entry.2.run_id
    · rw [hid] at hlast
      obtain ⟨hnext, hentry⟩ := hstep _ entry last hlaw.2 (hown entry (by simp)) hlast hkept
      refine ⟨fun y hy hsame => ?_, entry.2, if_pos hid, hnext⟩
      rcases List.mem_append.mp hy with hy | hy
      · exact hbefore y hy hsame
      · exact List.mem_singleton.mp hy ▸ hentry
    · refine ⟨fun y hy hsame => ?_, last, (if_neg hid).trans hlast, hkept⟩
      rcases List.mem_append.mp hy with hy | hy
      · exact hbefore y hy hsame
      · rw [List.mem_singleton.mp hy] at hsame
        exact absurd hsame.symm hid

/-- Histories in which every commit is lawful keep the execution facts. -/
theorem FactsImmutable.of_commitLaw {history : List (Author × AuditRecord)}
    (hlaw : History.EachStep CommitLaw history) : FactsImmutable history where
  frozen := by
    rintro before after x rfl hown hx hterminal y hy hid
    have hkept := latest_kept
      (P := fun z => z.is_terminal = true ∧ (execution_facts z).settled = (execution_facts x).settled)
      (Q := fun entry => entry.1 = .feedback ∧ execution_facts entry.2 = (execution_facts x).settled)
      ?_ hlaw hown hx ⟨hterminal, rfl⟩
    · obtain ⟨hauthor, hfacts⟩ := hkept.1 y hy hid
      exact ⟨hauthor, hfacts, fun hevidence => hfacts.trans (settled_of_evidence hevidence)⟩
    · rintro earlier entry old hcommit hentry hold ⟨hended, hsame⟩
      obtain ⟨hauthor, hfacts⟩ := hcommit.of_terminal hold hentry hended
      refine ⟨⟨(is_terminal_of_settled hfacts).trans hended, ?_⟩, hauthor, hfacts.trans hsame⟩
      rw [hfacts, ExecutionFacts.settled_settled, hsame]
  feedback_kept := by
    rintro before after x rfl hown hx hfeedback y hy hid
    have hkept := latest_kept (P := fun z => has_feedback z = true) (Q := fun entry => has_feedback entry.2 = true)
      ?_ hlaw hown hx hfeedback
    · exact hkept.1 y hy hid
    · intro earlier entry old hcommit hentry hold hgiven
      have hnext := hcommit.keeps_feedback hold hentry hgiven
      exact ⟨hnext, hnext⟩
  feedback_on_terminal := by
    refine hlaw.mono ?_
    rintro before ⟨author, record⟩ hlast hauthor
    dsimp only at hauthor
    subst hauthor
    obtain ⟨old, hold, hterminal, -⟩ := hlast
    exact ⟨old, hold, hterminal⟩
  recovery_never_succeeds := by
    refine hlaw.mono ?_
    rintro before ⟨author, record⟩ hlast hauthor
    dsimp only at hauthor
    subst hauthor
    obtain ⟨old, hold, hopen, hstatus, hcleanup, hevidence, -⟩ := hlast
    exact ⟨⟨old, hold, hopen⟩, hstatus, hcleanup, hevidence⟩

end asmodeus.control_plane
