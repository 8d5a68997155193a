import Asmodeus.ControlPlane.Execution.Workers

open asmodeus.common asmodeus.telemetry

namespace asmodeus.control_plane

/-- There is evidence; feedback is on record for ended runs only, and nothing is
measured without it. -/
structure Measured (record : AuditRecord) : Prop where
  evidence : record.evidence.isSome
  ended : has_feedback record = true → record.is_terminal = true
  detected : record.measurements.blue_team_detected = true → has_feedback record = true
  mttd : record.measurements.blue_team_detected = false → record.measurements.mttd_ms = 0

/-- Who can commit a revision in a state. -/
def ExecutionState.Authored (s : ExecutionState) : Author × AuditRecord → Prop
  | (.legacy, _) => False
  | (.admission, record) => ∃ (handle : Nat) (w : Worker), s.workers[handle]? = some w ∧ w.phase = .admitting ∧
      w.record = record
  | (.worker, record) => ∃ (handle : Nat) (w : Worker), s.workers[handle]? = some w ∧ w.phase = .settled ∧
      w.record.run_id = record.run_id
  | (.feedback, _) => s.is_serving = true
  | (.recovery, _) => s.is_serving = false

section

variable {env : Env} {s next : ExecutionState} {label : ExecutionLabel}

theorem has_confirmed_feedback_eq (record : AuditRecord) :
    record.has_confirmed_feedback =
      (((execution_facts record).execution_mode == some "runner") && has_feedback record) := by
  cases hevidence : record.evidence <;>
    simp [AuditRecord.has_confirmed_feedback, execution_facts, has_feedback, hevidence]

theorem ExecutionState.Authored.own {entry : Author × AuditRecord} (h : s.Authored entry) : entry.1 ≠ .legacy := by
  obtain ⟨author, record⟩ := entry
  rintro rfl
  exact h

theorem Measured.of_blank {record : AuditRecord} (hevidence : record.evidence.isSome)
    (hmeasurements : record.measurements = .default) (hfeedback : has_feedback record = false) : Measured record where
  evidence := hevidence
  ended := fun h => by rw [hfeedback] at h; cases h
  detected := fun h => by rw [hmeasurements] at h; cases h
  mttd := fun _ => by rw [hmeasurements]; rfl

theorem Measured.of_open {old : AuditRecord} (hmeasured : Measured old) (hopen : old.is_terminal = false) :
    has_feedback old = false := by
  by_contra h
  rw [hmeasured.ended (Bool.not_eq_false _ ▸ h)] at hopen
  cases hopen

/-- A revision that leaves measurements and feedback of an unfinished record
alone. -/
theorem Measured.of_same {old record : AuditRecord} (hmeasured : Measured old) (hopen : old.is_terminal = false)
    (hevidence : record.evidence.isSome = old.evidence.isSome)
    (hmeasurements : record.measurements = old.measurements) (hfeedback : has_feedback record = has_feedback old) :
    Measured record where
  evidence := hevidence ▸ hmeasured.evidence
  ended := fun h => by rw [hfeedback, hmeasured.of_open hopen] at h; cases h
  detected := fun h => by rw [hfeedback]; exact hmeasured.detected (hmeasurements ▸ h)
  mttd := fun h => by rw [hmeasurements]; exact hmeasured.mttd (hmeasurements ▸ h)

theorem Measured.of_feedback {payload : RunFeedbackPayload} {now : String} {old record : AuditRecord}
    (hrevise : signed_revision env.crypto env.key (feedback_revision payload now) old = .ok record)
    (hterminal : old.is_terminal = true) : Measured record := by
  obtain ⟨-, hfacts, hfeedback, hevidence⟩ := feedback_revision_spec hrevise
  obtain ⟨sig, pk, rfl⟩ := signed_revision_eq hrevise
  refine ⟨hevidence, fun _ => (is_terminal_of_settled hfacts).trans hterminal, fun _ => hfeedback, fun h => ?_⟩
  change payload.detected = false at h
  change (if payload.detected then payload.mttd_ms.getD 0 else 0) = 0
  rw [h]
  rfl

/-- The latest revision of a run is in the history. -/
theorem mem_of_latest {history : List (Author × AuditRecord)} {run_id : String} {record : AuditRecord}
    (h : latest history run_id = some record) : ∃ author, (author, record) ∈ history := by
  obtain ⟨-, author, before, after, rfl, -⟩ := latest_split h
  exact ⟨author, List.mem_append_right _ List.mem_cons_self⟩

/-- The history grows by a revision of somebody who can commit one, or is lost
with the process. -/
theorem ExecutionState.Moves.commits (hmoves : s.Moves env label next) :
    next.history = s.history ∨ (next.history = [] ∧ s.is_serving = false) ∨
      ∃ entry, next.history = s.history ++ [entry] ∧ s.Authored entry := by
  cases hmoves with
  | restart audit hdown hload =>
    change (if s.audit.log.isSome then s.history else []) = _ ∨
      ((if s.audit.log.isSome then s.history else []) = [] ∧ _) ∨ _
    split
    · exact Or.inl rfl
    · exact Or.inr (Or.inl ⟨rfl, by rw [ExecutionState.is_serving, hdown]⟩)
  | recover old record pending now hrecovering hsign =>
    refine Or.inr (Or.inr ⟨_, rfl, ?_⟩)
    change s.is_serving = false
    rw [ExecutionState.is_serving, hrecovering]
  | append handle w hserving hw hphase hnew => exact Or.inr (Or.inr ⟨_, rfl, handle, w, hw, hphase, rfl⟩)
  | commit handle w settlement now old record hserving hw hphase hold hrevise hid hsettlement =>
    exact Or.inr (Or.inr ⟨_, rfl, handle, w, hw, hphase, hid.symm⟩)
  | commit_feedback request feedback now old record hserving hfeedback hold hrevise hid =>
    exact Or.inr (Or.inr ⟨_, rfl, hserving⟩)
  | stop_pass request stop hserving hstop hpending => exact Or.inl (by rw [stopped_frame s stop])
  | cancel_scenario run_id hserving => exact Or.inl (by rw [cancel_scenario_frame s run_id])
  | _ => exact Or.inl rfl

/-- Everything in the history is this program's own and measured, and no worker
measures anything. -/
structure ExecutionState.AllMeasured (s : ExecutionState) : Prop where
  own : ∀ entry ∈ s.history, entry.1 ≠ .legacy
  history : ∀ entry ∈ s.history, Measured entry.2
  workers : ∀ (handle : Nat) (w : Worker), s.workers[handle]? = some w → w.record.measurements = .default

theorem ExecutionState.AllMeasured.get (hmeasured : s.AllMeasured) (hsound : s.Sound) {run_id : String}
    {old : AuditRecord} (hold : s.audit.get run_id = some old) : Measured old := by
  rw [hsound.get_eq_latest] at hold
  obtain ⟨author, hmem⟩ := mem_of_latest hold
  exact hmeasured.history _ hmem

theorem ExecutionState.AllMeasured.of_commit (hmeasured : s.AllMeasured) {author : Author} {record : AuditRecord}
    (hhistory : next.history = s.history ++ [(author, record)]) (hrecord : Measured record) :
    ∀ entry ∈ next.history, Measured entry.2 := by
  intro entry hentry
  rw [hhistory] at hentry
  rcases List.mem_append.mp hentry with hentry | hentry
  · exact hmeasured.history entry hentry
  · rw [List.mem_singleton] at hentry
    exact hentry ▸ hrecord

/-- No worker of a step measures anything. -/
theorem ExecutionState.AllMeasured.workers_moves (hmeasured : s.AllMeasured) (hmoves : s.Moves env label next)
    (handle : Nat) (w : Worker) (hw : next.workers[handle]? = some w) : w.record.measurements = .default := by
  obtain ⟨x, hx, hfollows⟩ | ⟨id, entry, role, selected, now, -, -, hsign, -⟩ := hmoves.workers_from hw
  · rw [hfollows.record]
    exact hmeasured.workers handle x hx
  · obtain ⟨sig, pk, hrecord⟩ := AuditRecord.sign_eq hsign
    rw [hrecord]
    rfl

theorem ExecutionState.AllMeasured.history_moves (hmeasured : s.AllMeasured) (hsound : s.Sound)
    (hmoves : s.Moves env label next) : ∀ entry ∈ next.history, Measured entry.2 := by
  cases hmoves with
  | restart audit hdown hload =>
    intro entry hentry
    change entry ∈ (if s.audit.log.isSome then s.history else []) at hentry
    split at hentry
    · exact hmeasured.history entry hentry
    · cases hentry
  | recover old record pending now hrecovering hsign =>
    obtain ⟨hold, hopen⟩ := (hsound.recovering _ hrecovering).2 old List.mem_cons_self
    obtain ⟨-, -, -, -, hevidence, hfeedback⟩ := interrupted_facts hsign
    obtain ⟨sig, pk, hrecord⟩ := AuditRecord.sign_eq hsign
    refine hmeasured.of_commit rfl ((hmeasured.get hsound hold).of_same hopen hevidence ?_ hfeedback)
    rw [hrecord]
    rfl
  | append handle w hserving hw hphase hnew =>
    have hfresh := hsound.fresh handle w hw
    exact hmeasured.of_commit rfl (.of_blank hfresh.evidence (hmeasured.workers handle w hw) hfresh.no_feedback)
  | commit handle w settlement now old record hserving hw hphase hold hrevise hid hsettlement =>
    have hunfinished : w.phase.unfinished = true := by rw [hphase]; rfl
    have hdurable := hsound.durable handle w hw hunfinished
    rw [← hid, hold, Option.some.injEq] at hdurable
    obtain ⟨-, -, hevidence, hfeedback⟩ := terminal_revision_spec hrevise
    obtain ⟨sig, pk, hrecord⟩ := signed_revision_eq hrevise
    have hopen : old.is_terminal = false := hdurable ▸ (hsound.fresh handle w hw).open_record
    refine hmeasured.of_commit rfl ((hmeasured.get hsound hold).of_same hopen hevidence ?_ hfeedback)
    rw [hrecord]
    rfl
  | commit_feedback request feedback now old record hserving hfeedback hold hrevise hid =>
    obtain ⟨other, hother, hterminal⟩ := hsound.feedbacks feedback (List.mem_of_getElem? hfeedback)
    rw [← hid, hold, Option.some.injEq] at hother
    exact hmeasured.of_commit rfl (.of_feedback hrevise (hother ▸ hterminal))
  | stop_pass request stop hserving hstop hpending =>
    rw [stopped_frame s stop]
    exact hmeasured.history
  | cancel_scenario run_id hserving =>
    rw [cancel_scenario_frame s run_id]
    exact hmeasured.history
  | _ => exact hmeasured.history

theorem ExecutionState.AllMeasured.moves (hmeasured : s.AllMeasured) (hsound : s.Sound)
    (hmoves : s.Moves env label next) : next.AllMeasured where
  own := by
    intro entry hentry
    obtain hsame | ⟨hlost, -⟩ | ⟨last, hcommit, hauthored⟩ := hmoves.commits
    · exact hmeasured.own entry (hsame ▸ hentry)
    · rw [hlost] at hentry
      cases hentry
    · rw [hcommit] at hentry
      rcases List.mem_append.mp hentry with hentry | hentry
      · exact hmeasured.own entry hentry
      · exact List.mem_singleton.mp hentry ▸ hauthored.own
  history := hmeasured.history_moves hsound hmoves
  workers := hmeasured.workers_moves hmoves

/-- Every later revision of a run with feedback confirms it as the earlier one
did. -/
theorem ExecutionState.AllMeasured.confirmed_latest (hmeasured : s.AllMeasured) (hsound : s.Sound) {author : Author}
    {record last : AuditRecord} (hmem : (author, record) ∈ s.history) (hfeedback : has_feedback record = true)
    (hlatest : latest s.history record.run_id = some last) :
    last.has_confirmed_feedback = record.has_confirmed_feedback := by
  have hrecord := hmeasured.history _ hmem
  obtain ⟨before, after, hsplit⟩ := List.append_of_mem hmem
  have hsplit : s.history = (before ++ [(author, record)]) ++ after := by rw [hsplit, List.append_assoc]; rfl
  have hown : ∀ y ∈ after, y.1 ≠ .legacy := by
    intro y hy
    exact hmeasured.own y (hsplit ▸ List.mem_append_right _ hy)
  have hx : latest (before ++ [(author, record)]) record.run_id = some record := by
    rw [latest_snoc, if_pos rfl]
  have hkept := latest_kept (Q := fun _ => True)
    (P := fun z => z.is_terminal = true ∧ has_feedback z = true ∧
      (execution_facts z).settled = (execution_facts record).settled)
    ?_ (hsplit ▸ hsound.lawful) hown hx ⟨hrecord.ended hfeedback, hfeedback, rfl⟩
  · obtain ⟨-, other, hother, -, hgiven, hfacts⟩ := hkept
    rw [hsplit, hother, Option.some.injEq] at hlatest
    subst hlatest
    obtain ⟨hmember, hlast⟩ := mem_of_latest hother
    have hevidence := (hmeasured.history _ (hsplit ▸ hlast)).evidence
    rw [settled_of_evidence hevidence, settled_of_evidence hrecord.evidence] at hfacts
    rw [has_confirmed_feedback_eq, has_confirmed_feedback_eq, hfacts, hgiven, hfeedback]
  · rintro earlier entry old hcommit hentry hold ⟨hended, hgiven, hsame⟩
    obtain ⟨-, hfacts⟩ := hcommit.of_terminal hold hentry hended
    refine ⟨⟨(is_terminal_of_settled hfacts).trans hended, hcommit.keeps_feedback hold hentry hgiven, ?_⟩, trivial⟩
    rw [hfacts, ExecutionFacts.settled_settled, hsame]

end

end asmodeus.control_plane
