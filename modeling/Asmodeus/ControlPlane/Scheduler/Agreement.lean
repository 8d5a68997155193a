import Asmodeus.ControlPlane.Execution.Facts
import Asmodeus.ControlPlane.Scheduler.Accounts

open asmodeus.common asmodeus.telemetry

namespace asmodeus.control_plane

variable {F : Type}

/-- What the schedule knows of the feedback of a run: a sample without feedback
is behind no more than the requests that are still to apply theirs, and one with
feedback belongs to a run whose feedback is confirmed. -/
structure SchedulerState.Agreeing (s : SchedulerState F) : Prop where
  measured : s.exec.AllMeasured
  handlers : ∀ record ∈ s.handlers, (∃ author, (author, record) ∈ s.exec.history) ∧ has_feedback record = true
  flush : ∀ record, s.flush = .writing (some record) → (∃ author, (author, record) ∈ s.exec.history) ∧
    ∃ outcome pending, s.pending = outcome :: pending ∧ outcome.run_id = some record.run_id
  confirmed : ∀ run_id shown, (some run_id, shown) ∈ s.schedules.value.shown → shown = .pending ∨
    ∀ last, latest s.exec.history run_id = some last → last.has_confirmed_feedback = true
  agrees : ∀ run_id shown, (some run_id, shown) ∈ s.schedules.value.shown → run_id ∉ s.failed →
    ∀ last, latest s.exec.history run_id = some last → shown = confirmed_feedback last ∨ last ∈ s.handlers

/-- Whenever a schedule transaction that touches the sample of a run commits, the
revision it carries has the same feedback as the latest one, or the request that
committed the latest one has still to make its own transaction. -/
def SchedulerState.InOrder (s : SchedulerState F) (label : SchedulerLabel) (_ : SchedulerState F) : Prop :=
  match label with
  | .flush_commit disk => (s.schedules.path = true → disk = .ok ()) → ∀ outcome pending feedback,
      s.pending = outcome :: pending → s.flush = .writing feedback →
      outcome.adds_sample s.schedules.value = true → ∀ run_id, outcome.run_id = some run_id →
      ∀ last, s.exec.audit.get run_id = some last →
        feedback.elim .pending confirmed_feedback = confirmed_feedback last ∨ last ∈ s.handlers
  | .apply_feedback handler disk => (s.schedules.path = true → disk = .ok ()) → ∀ record,
      s.handlers[handler]? = some record → some record.run_id ∈ s.schedules.value.shown.map Prod.fst →
      ∀ last, s.exec.audit.get record.run_id = some last →
        confirmed_feedback record = confirmed_feedback last ∨ last ∈ s.handlers.eraseIdx handler
  | _ => True

theorem confirmed_feedback_of_not {record : AuditRecord} (h : record.has_confirmed_feedback = false) :
    confirmed_feedback record = .pending := by
  rw [confirmed_feedback, h]
  rfl

theorem not_confirmed_of_no_feedback {record : AuditRecord} (h : has_feedback record = false) :
    record.has_confirmed_feedback = false := by
  rw [has_confirmed_feedback_eq, h, Bool.and_false]

theorem feedback_of_confirmed {record : AuditRecord} (h : record.has_confirmed_feedback = true) :
    has_feedback record = true := by
  rw [has_confirmed_feedback_eq, Bool.and_eq_true] at h
  exact h.2

/-- What a step of the executions does to the latest revision of a run nobody
executes any more. -/
theorem ExecutionState.Moves.revises {env : Env} {exec exec' : ExecutionState} {label : ExecutionLabel}
    {issued : List String} {run_id : String} {last : AuditRecord} (hmoves : exec.Moves env label exec')
    (hsound : exec.Sound) (hconcluded : exec.Concluded issued run_id)
    (hlast : latest exec'.history run_id = some last) :
    latest exec.history run_id = some last ∨
      ∃ author old, exec'.history = exec.history ++ [(author, last)] ∧ latest exec.history run_id = some old ∧
        (author = .feedback ∨
          (exec.is_serving = false ∧ old.is_terminal = false ∧ has_feedback last = has_feedback old)) := by
  obtain hsame | ⟨hlost, -⟩ | ⟨⟨author, record⟩, hcommit, hauthored⟩ := hmoves.commits
  · exact Or.inl (hsame ▸ hlast)
  · rw [hlost] at hlast
    cases hlast
  · have hlawful := (hsound.moves hmoves).lawful
    rw [hcommit, History.eachStep_snoc] at hlawful
    have hlaw := hlawful.2
    rw [hcommit, latest_snoc] at hlast
    split at hlast
    · rename_i hid
      obtain rfl := Option.some.inj hlast
      refine Or.inr ?_
      dsimp only at hid
      subst hid
      cases author with
      | legacy => exact absurd hauthored id
      | admission =>
        obtain ⟨handle, w, hw, hphase, hrecord⟩ := hauthored
        have hended := hconcluded.ended handle w hw (hrecord ▸ rfl)
        rw [hphase] at hended
        cases hended
      | worker =>
        obtain ⟨handle, w, hw, hphase, hid⟩ := hauthored
        have hended := hconcluded.ended handle w hw hid
        rw [hphase] at hended
        cases hended
      | feedback =>
        obtain ⟨old, hold, -⟩ := hlaw
        exact ⟨.feedback, old, hcommit, hold, Or.inl rfl⟩
      | recovery =>
        obtain ⟨old, hold, hopen, -, -, -, -, hfeedback⟩ := hlaw
        exact ⟨.recovery, old, hcommit, hold, Or.inr ⟨hauthored, hopen, hfeedback⟩⟩
    · exact Or.inl hlast

variable {env : SchedulerEnv F} {s next : SchedulerState F} {label : SchedulerLabel}

/-- The history of a running process only grows. -/
theorem ExecutionState.Moves.history_grows {env : Env} {exec exec' : ExecutionState} {label : ExecutionLabel}
    (hmoves : exec.Moves env label exec') (hserving : exec.is_serving = true) {entry : Author × AuditRecord}
    (hentry : entry ∈ exec.history) : entry ∈ exec'.history := by
  obtain hsame | ⟨-, hidle⟩ | ⟨last, hcommit, -⟩ := hmoves.commits
  · exact hsame ▸ hentry
  · rw [hserving] at hidle
    cases hidle
  · exact hcommit ▸ List.mem_append_left _ hentry

/-- What the samples know survives a step of the executions, if every feedback
it commits has a request to apply it. -/
theorem SchedulerState.Agreeing.of_moves (hagreeing : s.Agreeing) (haccounted : s.Accounted) {label : ExecutionLabel}
    {exec : ExecutionState} (hmoves : s.exec.Moves env.exec label exec) (hexec : next.exec = exec)
    (hsamples : ∀ entry ∈ next.schedules.value.shown, entry ∈ s.schedules.value.shown)
    (hfailed : ∀ run_id ∈ s.failed, run_id ∈ next.failed)
    (hflush : next.flush = .off ∨ (next.flush = s.flush ∧ next.pending = s.pending))
    (hhandlers : ∀ record ∈ next.handlers, record ∈ s.handlers ∨ record ∈ s.exec.feedback_since exec)
    (hkept : ∀ record, record ∈ s.handlers ∨ record ∈ s.exec.feedback_since exec → record.run_id ∉ next.failed →
      record ∈ next.handlers) : next.Agreeing := by
  subst hexec
  have hmeasured := hagreeing.measured.moves haccounted.sound hmoves
  have hsound := haccounted.sound.moves hmoves
  have hcommitted : ∀ record, record ∈ s.exec.feedback_since next.exec →
      (∃ author, (author, record) ∈ next.exec.history) ∧ has_feedback record = true := by
    intro record hrecord
    obtain hsince | ⟨last, hcommit, hsince, -⟩ := hmoves.feedback_since
    · rw [hsince] at hrecord
      cases hrecord
    · rw [hsince, List.mem_singleton] at hrecord
      subst hrecord
      have hlawful := hsound.lawful
      rw [hcommit, History.eachStep_snoc] at hlawful
      obtain ⟨old, -, -, -, hfeedback, -⟩ := hlawful.2
      exact ⟨⟨.feedback, hcommit ▸ List.mem_append_right _ List.mem_cons_self⟩, hfeedback⟩
  have hconcluded : ∀ run_id shown, (some run_id, shown) ∈ s.schedules.value.shown →
      s.exec.Concluded s.issued run_id := fun run_id shown hmem =>
    haccounted.concluded run_id (List.mem_append_left _ (List.mem_map_of_mem (f := Prod.fst) hmem))
  constructor
  · exact hmeasured
  · intro record hrecord
    rcases hhandlers record hrecord with hold | hnew
    · obtain ⟨⟨author, hmem⟩, hfeedback⟩ := hagreeing.handlers record hold
      have hserving : s.exec.is_serving = true := by
        by_contra hidle
        rw [(haccounted.idle (Bool.not_eq_true _ ▸ hidle)).2.2.2] at hold
        cases hold
      exact ⟨⟨author, hmoves.history_grows hserving hmem⟩, hfeedback⟩
    · exact hcommitted record hnew
  · intro record hwriting
    obtain hoff | ⟨hsame, hpending⟩ := hflush
    · rw [hoff] at hwriting
      cases hwriting
    · rw [hsame] at hwriting
      obtain ⟨⟨author, hmem⟩, hfront⟩ := hagreeing.flush record hwriting
      have hserving : s.exec.is_serving = true := by
        by_contra hidle
        rw [(haccounted.idle (Bool.not_eq_true _ ▸ hidle)).2.2.1] at hwriting
        cases hwriting
      exact ⟨⟨author, hmoves.history_grows hserving hmem⟩, hpending ▸ hfront⟩
  · intro run_id shown hmem
    refine (hagreeing.confirmed run_id shown (hsamples _ hmem)).imp_right fun hconfirmed last hlast => ?_
    obtain hold | ⟨author, old, hcommit, hold, -⟩ :=
      hmoves.revises haccounted.sound (hconcluded run_id shown (hsamples _ hmem)) hlast
    · exact hconfirmed last hold
    · have holdconfirmed := hconfirmed old hold
      obtain ⟨author', hmemold⟩ := mem_of_latest hold
      have hid : old.run_id = run_id := (latest_split hold).1
      rw [hmeasured.confirmed_latest hsound (hcommit ▸ List.mem_append_left _ hmemold)
        (feedback_of_confirmed holdconfirmed) (hid.symm ▸ hlast), holdconfirmed]
  · intro run_id shown hmem hnotfailed last hlast
    have hbefore := hagreeing.agrees run_id shown (hsamples _ hmem) (fun h => hnotfailed (hfailed run_id h))
    have hid : last.run_id = run_id := (latest_split hlast).1
    obtain hold | ⟨author, old, hcommit, hold, hfeedback | ⟨hidle, hopen, hsame⟩⟩ :=
      hmoves.revises haccounted.sound (hconcluded run_id shown (hsamples _ hmem)) hlast
    · exact (hbefore last hold).imp_right fun h => hkept last (Or.inl h) (hid.symm ▸ hnotfailed)
    · subst hfeedback
      refine Or.inr (hkept last (Or.inr ?_) (hid.symm ▸ hnotfailed))
      rw [ExecutionState.feedback_since, hcommit, List.drop_left]
      exact List.mem_singleton.mpr rfl
    · -- the restart closes the record; nobody has given feedback on it
      obtain ⟨author', hmemold⟩ := mem_of_latest hold
      have hnone : has_feedback old = false := (hagreeing.measured.history _ hmemold).of_open hopen
      rcases hbefore old hold with hshown | hhandler
      · rw [confirmed_feedback_of_not (not_confirmed_of_no_feedback hnone)] at hshown
        exact Or.inl (hshown.trans
          (confirmed_feedback_of_not (not_confirmed_of_no_feedback (hsame.trans hnone))).symm)
      · rw [(haccounted.idle hidle).2.2.2] at hhandler
        cases hhandler

/-- Nothing is known of a run that has just been started. -/
theorem SchedulerState.Agreeing.of_start (hagreeing : s.Agreeing) (haccounted : s.Accounted) {label : ExecutionLabel}
    {id : String} {exec : ExecutionState} (hmoves : s.exec.Moves env.exec label exec)
    (hstarted : s.exec.Started id exec) (hexec : next.exec = exec) (hschedules : next.schedules = s.schedules)
    (hhandlers : next.handlers = s.handlers) (hfailed : next.failed = s.failed) (hflush : next.flush = s.flush)
    (hpending : next.pending = s.pending) : next.Agreeing := by
  have hnone : s.exec.feedback_since exec = [] := by
    obtain ⟨w, rfl, -⟩ := hstarted
    rw [ExecutionState.feedback_since, List.drop_length]
    rfl
  refine hagreeing.of_moves haccounted hmoves hexec (fun _ h => hschedules ▸ h) (fun _ h => hfailed ▸ h)
    (Or.inr ⟨hflush, hpending⟩) (fun _ h => Or.inl (hhandlers ▸ h)) fun record h _ => ?_
  rw [hnone] at h
  exact hhandlers ▸ h.resolve_right List.not_mem_nil

/-- A step that adds no sample and leaves executions and requests alone. -/
theorem SchedulerState.Agreeing.of_samples (hagreeing : s.Agreeing) (hexec : next.exec = s.exec)
    (hhandlers : next.handlers = s.handlers) (hfailed : next.failed = s.failed)
    (hsamples : ∀ entry ∈ next.schedules.value.shown, entry ∈ s.schedules.value.shown)
    (hflush : ∀ record, next.flush = .writing (some record) → (∃ author, (author, record) ∈ s.exec.history) ∧
      ∃ outcome pending, next.pending = outcome :: pending ∧ outcome.run_id = some record.run_id) : next.Agreeing where
  measured := hexec ▸ hagreeing.measured
  handlers := by rw [hexec, hhandlers]; exact hagreeing.handlers
  flush := by rw [hexec]; exact hflush
  confirmed := by
    intro run_id shown hmem
    rw [hexec]
    exact hagreeing.confirmed run_id shown (hsamples _ hmem)
  agrees := by
    intro run_id shown hmem hnotfailed
    rw [hexec, hhandlers]
    exact hagreeing.agrees run_id shown (hsamples _ hmem) (hfailed ▸ hnotfailed)

/-- A record of another run stays with its request. -/
theorem mem_eraseIdx_of_run_ne {handlers : List AuditRecord} {handler : Nat} {record last : AuditRecord}
    (hhandler : handlers[handler]? = some record) (hlast : last ∈ handlers) (hne : last.run_id ≠ record.run_id) :
    last ∈ handlers.eraseIdx handler := by
  obtain ⟨i, hi⟩ := List.mem_iff_getElem?.mp hlast
  refine List.mem_eraseIdx_iff_getElem?.mpr ⟨i, ?_, hi⟩
  rintro rfl
  rw [hhandler, Option.some.injEq] at hi
  exact hne (hi ▸ rfl)

/-- A feedback record ends confirmed if and only if it is confirmed. -/
theorem SchedulerState.Agreeing.ended_eq (hagreeing : s.Agreeing) {author : Author} {record : AuditRecord}
    (hmem : (author, record) ∈ s.exec.history) :
    (record.is_terminal && record.has_confirmed_feedback) = record.has_confirmed_feedback := by
  cases hconfirmed : record.has_confirmed_feedback with
  | false => rw [Bool.and_false]
  | true => rw [(hagreeing.measured.history _ hmem).ended (feedback_of_confirmed hconfirmed), Bool.and_true]

/-- The entries after the feedback of a record: that of its own run shows it, if
it is confirmed, and all others are as before. -/
theorem mem_record_feedback {catalog : ScheduleCatalog F} {drift : DriftArithmetic F} {record : AuditRecord}
    (hcount : (catalog.shown.map Prod.fst).count (some record.run_id) ≤ 1)
    (hended : (record.is_terminal && record.has_confirmed_feedback) = record.has_confirmed_feedback)
    {run_id : String} {shown : ShownFeedback}
    (hmem : (some run_id, shown) ∈ (catalog.record_feedback drift record).shown) :
    ((some run_id, shown) ∈ catalog.shown ∧ (run_id = record.run_id → record.has_confirmed_feedback = false)) ∨
      (run_id = record.run_id ∧ some run_id ∈ catalog.shown.map Prod.fst ∧ shown = confirmed_feedback record ∧
        record.has_confirmed_feedback = true) := by
  rw [record_feedback_shown hcount, hended] at hmem
  split at hmem
  · rename_i hconfirmed
    obtain ⟨⟨id, before⟩, hbefore, heq⟩ := List.mem_map.mp hmem
    rw [show_feedback] at heq
    split at heq
    · rename_i hid
      dsimp only at hid heq
      obtain ⟨hrun, rfl⟩ := Prod.mk.inj heq
      rw [hid, Option.some.injEq] at hrun
      refine Or.inr ⟨hrun.symm, ?_, rfl, hconfirmed⟩
      rw [← hrun, ← hid]
      exact List.mem_map_of_mem (f := Prod.fst) hbefore
    · rename_i hid
      obtain ⟨rfl, rfl⟩ := Prod.mk.inj heq
      exact Or.inl ⟨hbefore, fun h => absurd (congrArg some h) hid⟩
  · rename_i hconfirmed
    exact Or.inl ⟨hmem, fun _ => Bool.eq_false_iff.mpr hconfirmed⟩

/-- A feedback request applies the record it committed. -/
theorem SchedulerState.Agreeing.apply_feedback (hagreeing : s.Agreeing) (haccounted : s.Accounted) {handler : Nat}
    {record : AuditRecord} (hhandler : s.handlers[handler]? = some record)
    (horder : some record.run_id ∈ s.schedules.value.shown.map Prod.fst →
      ∀ last, s.exec.audit.get record.run_id = some last →
        confirmed_feedback record = confirmed_feedback last ∨ last ∈ s.handlers.eraseIdx handler) :
    ({ s.published (s.schedules.value.record_feedback env.drift record) with
      handlers := s.handlers.eraseIdx handler } : SchedulerState F).Agreeing := by
  obtain ⟨⟨author, hmemrecord⟩, hfeedback⟩ := hagreeing.handlers record (List.mem_of_getElem? hhandler)
  have honce := haccounted.once record.run_id
  rw [List.count_append, SchedulerState.concluded, List.count_append] at honce
  have hcases : ∀ run_id shown,
      (some run_id, shown) ∈ (s.schedules.value.record_feedback env.drift record).shown → _ :=
    fun run_id shown hmem =>
      mem_record_feedback (by omega) (hagreeing.ended_eq hmemrecord) hmem
  refine ⟨hagreeing.measured, fun r hr => hagreeing.handlers r (List.mem_of_mem_eraseIdx hr), hagreeing.flush, ?_, ?_⟩
  · intro run_id shown hmem
    obtain ⟨hbefore, -⟩ | ⟨rfl, -, -, hconfirmed⟩ := hcases run_id shown hmem
    · exact hagreeing.confirmed run_id shown hbefore
    · refine Or.inr fun last hlast => ?_
      rw [hagreeing.measured.confirmed_latest haccounted.sound hmemrecord hfeedback hlast, hconfirmed]
  · intro run_id shown hmem hnotfailed last hlast
    have hlastid : last.run_id = run_id := (latest_split hlast).1
    have hlastget : s.exec.audit.get run_id = some last := (haccounted.sound.get_eq_latest run_id).trans hlast
    obtain ⟨hbefore, hunconfirmed⟩ | ⟨rfl, hsampled, rfl, -⟩ := hcases run_id shown hmem
    · by_cases hid : run_id = record.run_id
      · subst hid
        have hsampled : some record.run_id ∈ s.schedules.value.shown.map Prod.fst :=
          List.mem_map_of_mem (f := Prod.fst) hbefore
        refine (horder hsampled last hlastget).imp_left fun hsame => ?_
        -- an unconfirmed record changes nothing, and nothing was ever shown
        rw [← hsame, confirmed_feedback_of_not (hunconfirmed rfl)]
        refine (hagreeing.confirmed _ shown hbefore).resolve_right fun hconfirmed => ?_
        have hlastconfirmed := hconfirmed last hlast
        rw [hagreeing.measured.confirmed_latest haccounted.sound hmemrecord hfeedback hlast, hunconfirmed rfl]
          at hlastconfirmed
        cases hlastconfirmed
      · exact (hagreeing.agrees run_id shown hbefore hnotfailed last hlast).imp_right fun h =>
          mem_eraseIdx_of_run_ne hhandler h (hlastid.symm ▸ hid)
    · exact horder hsampled last hlastget

/-- A feedback request fails after its audit commit. -/
theorem SchedulerState.Agreeing.feedback_fail (hagreeing : s.Agreeing) {handler : Nat} {record : AuditRecord}
    (hhandler : s.handlers[handler]? = some record) :
    ({ s with handlers := s.handlers.eraseIdx handler, failed := record.run_id :: s.failed } :
      SchedulerState F).Agreeing where
  measured := hagreeing.measured
  handlers := fun r hr => hagreeing.handlers r (List.mem_of_mem_eraseIdx hr)
  flush := hagreeing.flush
  confirmed := hagreeing.confirmed
  agrees := by
    intro run_id shown hmem hnotfailed last hlast
    rw [List.mem_cons, not_or] at hnotfailed
    refine (hagreeing.agrees run_id shown hmem hnotfailed.2 last hlast).imp_right fun h => ?_
    exact mem_eraseIdx_of_run_ne hhandler h ((latest_split hlast).1.symm ▸ hnotfailed.1)

/-- The run of an outcome still to be recorded has no sample yet. -/
theorem SchedulerState.Accounted.unsampled (haccounted : s.Accounted) {outcome : PendingOutcome}
    {pending : List PendingOutcome} (hpending : s.pending = outcome :: pending) {run_id : String}
    (hid : outcome.run_id = some run_id) : some run_id ∉ s.schedules.value.shown.map Prod.fst := by
  intro hmem
  have honce := haccounted.once run_id
  rw [List.count_append, SchedulerState.concluded, List.count_append, hpending, List.map_cons, hid,
    List.count_cons_self] at honce
  have hpos := List.count_pos_iff.mpr hmem
  omega

/-- A sample after the transaction of an outcome is an old one, or that of the
run of the outcome and shows what was read for it. -/
theorem SchedulerState.Agreeing.mem_flush_transaction (hagreeing : s.Agreeing) (haccounted : s.Accounted)
    {outcome : PendingOutcome} {pending : List PendingOutcome} {feedback : Option AuditRecord}
    (hpending : s.pending = outcome :: pending) (hflush : s.flush = .writing feedback) {run_id : String}
    {shown : ShownFeedback} {drift : DriftArithmetic F}
    (hmem : (some run_id, shown) ∈ (flush_transaction drift outcome feedback s.schedules.value).shown) :
    (some run_id, shown) ∈ s.schedules.value.shown ∨
      (outcome.adds_sample s.schedules.value = true ∧ outcome.run_id = some run_id ∧
        shown = feedback.elim .pending confirmed_feedback) := by
  have hadds : outcome.run_id = some run_id →
      some run_id ∈ (outcome.apply s.schedules.value).shown.map Prod.fst →
      outcome.adds_sample s.schedules.value = true := by
    intro hid hafter
    by_contra hskips
    rw [apply_shown_of_not_adds (Bool.eq_false_iff.mpr hskips)] at hafter
    exact haccounted.unsampled hpending hid hafter
  have hnew : ∀ seen, (some run_id, seen) ∈ (outcome.apply s.schedules.value).shown →
      (some run_id, seen) ∈ s.schedules.value.shown ∨ (outcome.run_id = some run_id ∧ seen = .pending) := by
    intro seen hseen
    rcases List.mem_append.mp ((apply_shown outcome s.schedules.value).subset hseen) with hold | hlast
    · exact Or.inl hold
    · rw [List.mem_singleton] at hlast
      obtain ⟨hid, hpend⟩ := Prod.mk.inj hlast
      exact Or.inr ⟨hid.symm, hpend⟩
  cases feedback with
  | none =>
    refine (hnew shown hmem).imp_right fun ⟨hid, hpend⟩ => ⟨hadds hid ?_, hid, hpend⟩
    exact List.mem_map_of_mem (f := Prod.fst) hmem
  | some record =>
    obtain ⟨⟨author, hmemrecord⟩, other, rest, hfront, hrun⟩ := hagreeing.flush record hflush
    rw [hpending, List.cons.injEq] at hfront
    rw [← hfront.1] at hrun
    have hcount := flush_transaction_ids haccounted hpending record.run_id
    obtain ⟨hbefore, hunconfirmed⟩ | ⟨rfl, hsampled, rfl, -⟩ :=
      mem_record_feedback (by omega) (hagreeing.ended_eq hmemrecord) hmem
    · refine (hnew shown hbefore).imp_right fun ⟨hid, hpend⟩ => ⟨hadds hid ?_, hid, ?_⟩
      · exact List.mem_map_of_mem (f := Prod.fst) hbefore
      · rw [hid, Option.some.injEq] at hrun
        exact hpend.trans (confirmed_feedback_of_not (hunconfirmed hrun)).symm
    · exact Or.inr ⟨hadds hrun hsampled, hrun, rfl⟩

/-- The scheduler records an outcome together with the feedback it has read. -/
theorem SchedulerState.Agreeing.flush_commit (hagreeing : s.Agreeing) (haccounted : s.Accounted)
    {outcome : PendingOutcome} {pending : List PendingOutcome} {feedback : Option AuditRecord} {flush : Flush}
    (hpending : s.pending = outcome :: pending) (hflush : s.flush = .writing feedback)
    (hafter : ∀ record, flush ≠ .writing (some record))
    (horder : outcome.adds_sample s.schedules.value = true → ∀ run_id, outcome.run_id = some run_id →
      ∀ last, s.exec.audit.get run_id = some last →
        feedback.elim .pending confirmed_feedback = confirmed_feedback last ∨ last ∈ s.handlers) :
    ({ s.published (flush_transaction env.drift outcome feedback s.schedules.value) with
      pending := pending, flush := flush } : SchedulerState F).Agreeing := by
  -- an entry is an old one of another run, or shows what was read for the run
  have hcases : ∀ run_id shown,
      (some run_id, shown) ∈ (flush_transaction env.drift outcome feedback s.schedules.value).shown →
      ((some run_id, shown) ∈ s.schedules.value.shown) ∨
        (outcome.adds_sample s.schedules.value = true ∧ outcome.run_id = some run_id ∧
          shown = feedback.elim .pending confirmed_feedback) :=
    fun run_id shown hmem => hagreeing.mem_flush_transaction haccounted hpending hflush hmem
  refine ⟨hagreeing.measured, hagreeing.handlers, fun record h => absurd h (hafter record), ?_, ?_⟩
  · intro run_id shown hmem
    obtain hbefore | ⟨-, hid, rfl⟩ := hcases run_id shown hmem
    · exact hagreeing.confirmed run_id shown hbefore
    · cases feedback with
      | none => exact Or.inl rfl
      | some record =>
        obtain ⟨⟨author, hmemrecord⟩, other, rest, hfront, hrun⟩ := hagreeing.flush record hflush
        rw [hpending, List.cons.injEq] at hfront
        rw [← hfront.1, hid, Option.some.injEq] at hrun
        subst hrun
        change confirmed_feedback record = _ ∨ _
        cases hconfirmed : record.has_confirmed_feedback with
        | false => exact Or.inl (confirmed_feedback_of_not hconfirmed)
        | true =>
          refine Or.inr fun last hlast => ?_
          rw [hagreeing.measured.confirmed_latest haccounted.sound hmemrecord (feedback_of_confirmed hconfirmed) hlast,
            hconfirmed]
  · intro run_id shown hmem hnotfailed last hlast
    obtain hbefore | ⟨hadds, hid, rfl⟩ := hcases run_id shown hmem
    · exact hagreeing.agrees run_id shown hbefore hnotfailed last hlast
    · exact horder hadds run_id hid last ((haccounted.sound.get_eq_latest run_id).trans hlast)

/-- Every step in order keeps the samples in agreement with the audit. -/
theorem SchedulerState.Agreeing.moves (hagreeing : s.Agreeing) (haccounted : s.Accounted)
    (horder : s.InOrder label next) (hmoves : s.Moves env label next) : next.Agreeing := by
  cases hmoves with
  | crash exec hexec hdown =>
    refine hagreeing.of_moves haccounted hexec rfl ?_ (fun run_id h => List.mem_append_right _ h) (Or.inl rfl)
      (fun record h => by cases h) ?_
    · intro entry hentry
      change entry ∈ (s.schedules.reload .seeded).value.shown at hentry
      unfold Persistent.reload at hentry
      split at hentry
      · exact hentry
      · cases hentry
    · intro record hrecord hnotfailed
      have hnone : s.exec.feedback_since exec = [] := by
        rw [hexec.of_down hdown, ExecutionState.feedback_since]
        change ((s.exec.history.drop s.exec.history.length).filterMap _) = []
        rw [List.drop_length]
        rfl
      rw [hnone] at hrecord
      refine absurd (List.mem_append_left _ (List.mem_map_of_mem (hrecord.resolve_right ?_))) hnotfailed
      exact List.not_mem_nil
  | exec_start exec hexec hserving hstarted hfresh =>
    exact hagreeing.of_start haccounted hexec hstarted rfl rfl rfl rfl rfl rfl
  | exec exec hexec hup hother =>
    exact hagreeing.of_moves haccounted hexec rfl (fun _ h => h) (fun _ h => h) (Or.inr ⟨rfl, rfl⟩)
      (fun _ h => List.mem_append.mp h) fun record h _ => List.mem_append.mpr h
  | unsaved => exact hagreeing
  | edit edit hserving =>
    exact hagreeing.of_samples rfl rfl rfl (fun _ h => (edit_shown edit s.schedules.value).subset h) hagreeing.flush
  | claim now now_utc hserving hdue hcurrent =>
    refine hagreeing.of_samples rfl rfl rfl (fun entry hentry => ?_) hagreeing.flush
    exact claim_due_shown s.schedules.value now now_utc ▸ hentry
  | skip now job due hserving hdue hcurrent hflush =>
    exact hagreeing.of_samples rfl rfl rfl (fun _ h => h) fun record h => by cases h
  | start id entry selected now job due exec hserving hexec hstarted hfresh hdue hcurrent hflush hstill hentry =>
    exact hagreeing.of_start haccounted hexec hstarted rfl rfl rfl rfl rfl rfl
  | finish now run w hserving hcurrent hw hended =>
    exact hagreeing.of_samples rfl rfl rfl (fun _ h => h) fun record h => by cases h
  | retry hserving => exact hagreeing.of_samples rfl rfl rfl (fun _ h => h) fun record h => by cases h
  | flush_read outcome pending hserving hpending =>
    refine hagreeing.of_samples rfl rfl rfl (fun _ h => h) fun record h => ?_
    injection h with hread
    obtain ⟨run_id, hid, hget⟩ := Option.bind_eq_some_iff.mp hread
    rw [haccounted.sound.get_eq_latest] at hget
    exact ⟨mem_of_latest hget, outcome, pending, hpending, (latest_split hget).1.symm ▸ hid⟩
  | flush_fail hserving => exact hagreeing.of_samples rfl rfl rfl (fun _ h => h) fun record h => by cases h
  | flush_commit outcome pending feedback hserving hpending hflush hdisk =>
    refine hagreeing.flush_commit haccounted hpending hflush (fun record h => ?_)
      (horder hdisk outcome pending feedback hpending hflush)
    split at h <;> cases h
  | feedback_fail handler record hserving hhandler => exact hagreeing.feedback_fail hhandler
  | apply_feedback handler record hserving hhandler hdisk =>
    exact hagreeing.apply_feedback haccounted hhandler (horder hdisk record hhandler)

end asmodeus.control_plane
