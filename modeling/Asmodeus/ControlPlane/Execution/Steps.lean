import Asmodeus.ControlPlane.Execution.System

open asmodeus.common asmodeus.telemetry

namespace asmodeus.control_plane

/-- What one step of the executions can do, with everything its guards
established. -/
inductive ExecutionState.Moves (env : Env) (s : ExecutionState) : ExecutionLabel → ExecutionState → Prop
  | crash {label : ExecutionLabel} : Moves env s label s.crash
  | restart (audit : AuditStore) (hdown : s.process = .down)
      (hload : AuditStore.load env.reader s.audit.log = .ok audit) :
      Moves env s .restart { s with
        process := .recovering audit.incomplete
        audit := audit
        history := if s.audit.log.isSome then s.history else [] }
  | serve {now : String} {disk : Disk} (hrecovered : s.process = .recovering []) :
      Moves env s (.recover now disk) { s with process := .serving }
  | recover {disk : Disk} (old record : AuditRecord) (pending : List AuditRecord) (now : String)
      (hrecovering : s.process = .recovering (old :: pending))
      (hsign : (interrupted now old).sign env.crypto env.key = .ok record) :
      Moves env s (.recover now disk) { s with
        process := .recovering pending
        audit := (s.audit.logged record).publish_update old record
        history := s.history ++ [(.recovery, record)] }
  | start (id : String) (entry : ScenarioEntry) (role : Role) (selected : Option String) (now : String)
      (record : AuditRecord) (hserving : s.is_serving = true)
      (hrole : role.can entry.category.required_capability = true)
      (hsign : (admission_record id entry role selected now).sign env.crypto env.key = .ok record) :
      Moves env s (.start id entry role selected now) { s with
        workers := s.workers ++ [⟨record, entry.category, selected_mode selected, false, none, false, .admitting⟩] }
  | refuse {disk : Disk} (handle : Nat) (w : Worker) (hserving : s.is_serving = true)
      (hw : s.workers[handle]? = some w) (hphase : w.phase = .admitting) :
      Moves env s (.append handle disk) (s.set_worker handle { w with phase := .refused })
  | append {disk : Disk} (handle : Nat) (w : Worker) (hserving : s.is_serving = true)
      (hw : s.workers[handle]? = some w) (hphase : w.phase = .admitting) (hnew : s.audit.get w.record.run_id = none) :
      Moves env s (.append handle disk) { s.set_worker handle { w with phase := .appended } with
        audit := (s.audit.logged w.record).publish_append w.record
        history := s.history ++ [(.admission, w.record)] }
  | insert (handle : Nat) (w : Worker) (hserving : s.is_serving = true) (hw : s.workers[handle]? = some w)
      (hphase : w.phase = .appended) :
      Moves env s (.insert handle) { s.set_worker handle { w with phase := .running } with
        runs := KeyedList.upsert Prod.fst s.runs (w.record.run_id, handle) }
  | settle {label : ExecutionLabel} (handle : Nat) (w : Worker) (settlement : Settlement)
      (hserving : s.is_serving = true) (hw : s.workers[handle]? = some w) (hphase : w.phase = .running) :
      Moves env s label (s.set_worker handle { w with phase := .settled, settlement := some settlement })
  | unsave {now : String} {disk : Disk} (handle : Nat) (w : Worker) (hserving : s.is_serving = true)
      (hw : s.workers[handle]? = some w) (hphase : w.phase = .settled) :
      Moves env s (.commit handle now disk) (s.set_worker handle { w with phase := .unsaved })
  | vanish {now : String} {disk : Disk} (handle : Nat) (w : Worker) (hserving : s.is_serving = true)
      (hw : s.workers[handle]? = some w) (hphase : w.phase = .settled) (hgone : s.audit.get w.record.run_id = none) :
      Moves env s (.commit handle now disk) (s.set_worker handle { w with phase := .committed })
  | commit {disk : Disk} (handle : Nat) (w : Worker) (settlement : Settlement) (now : String)
      (old record : AuditRecord) (hserving : s.is_serving = true) (hw : s.workers[handle]? = some w)
      (hphase : w.phase = .settled)
      (hold : s.audit.get record.run_id = some old)
      (hrevise : signed_revision env.crypto env.key (terminal_revision w.mode settlement now) old =
        .ok record)
      (hid : record.run_id = w.record.run_id) (hsettlement : w.settlement = some settlement) :
      Moves env s (.commit handle now disk) { s.set_worker handle { w with phase := .committed, recorded := true } with
        audit := (s.audit.logged record).publish_update old record
        history := s.history ++ [(.worker, record)] }
  | remove (handle : Nat) (w : Worker) (hserving : s.is_serving = true) (hw : s.workers[handle]? = some w)
      (hphase : w.phase = .committed) :
      Moves env s (.remove handle) { s.set_worker handle { w with phase := .finished } with
        runs := s.runs.filter fun entry => decide (entry.1 ≠ w.record.run_id) }
  | check_feedback {role : Role} (feedback : FeedbackRequest) (old : AuditRecord) (hserving : s.is_serving = true)
      (hold : s.audit.get feedback.run_id = some old) (hterminal : old.is_terminal = true) :
      Moves env s (.check_feedback role feedback.run_id feedback.payload)
        { s with feedbacks := s.feedbacks ++ [feedback] }
  | drop_feedback {now : String} {disk : Disk} (request : Nat) (hserving : s.is_serving = true) :
      Moves env s (.commit_feedback request now disk) { s with feedbacks := s.feedbacks.eraseIdx request }
  | commit_feedback {disk : Disk} (request : Nat) (feedback : FeedbackRequest) (now : String) (old record : AuditRecord)
      (hserving : s.is_serving = true) (hfeedback : s.feedbacks[request]? = some feedback)
      (hold : s.audit.get record.run_id = some old)
      (hrevise : signed_revision env.crypto env.key (feedback_revision feedback.payload now) old = .ok record)
      (hid : record.run_id = feedback.run_id) :
      Moves env s (.commit_feedback request now disk) { s with
        feedbacks := s.feedbacks.eraseIdx request
        audit := (s.audit.logged record).publish_update old record
        history := s.history ++ [(.feedback, record)] }
  | begin_cancel (role : Role) (run_id : String) (record : AuditRecord) (category : Category)
      (hserving : s.is_serving = true) (hrecord : s.audit.get run_id = some record)
      (hcategory : Category.from_str record.category = .ok category)
      (hrole : role.can category.required_capability = true) :
      Moves env s (.begin_cancel role run_id)
        { s with stops := s.stops ++ [⟨role, some run_id, s.unfinished, record.is_terminal⟩] }
  | begin_abort (role : Role) (hserving : s.is_serving = true) :
      Moves env s (.begin_abort role) { s with stops := s.stops ++ [⟨role, none, s.unfinished, false⟩] }
  | stop_pass (request : Nat) (stop : StopRequest) (hserving : s.is_serving = true)
      (hstop : s.stops[request]? = some stop) (hpending : stop.returned = false) :
      Moves env s (.stop_pass request)
        { s.stopped stop with stops := s.stops.set request { stop with returned := true } }
  | cancel_scenario (run_id : String) (hserving : s.is_serving = true) :
      Moves env s (.cancel_scenario run_id) (s.cancel_scenario run_id)

section

variable {env : Env} {s next : ExecutionState}

theorem ExecutionState.restart_moves (h : s.restart env = some next) : s.Moves env .restart next := by
  unfold ExecutionState.restart at h
  split at h
  · rename_i hdown
    split at h
    · cases h
    · rename_i audit hload
      split at h
      · exact Option.some.inj h ▸ .restart audit hdown hload
      · cases h
  · cases h

theorem ExecutionState.recover_moves {now : String} {disk : Disk} (h : s.recover env now disk = some next) :
    s.Moves env (.recover now disk) next := by
  unfold ExecutionState.recover at h
  split at h
  · rename_i hrecovered
    exact Option.some.inj h ▸ .serve hrecovered
  · rename_i old pending hrecovering
    cases hrecord : s.audit.recover_record env.crypto env.key now disk old with
    | mk result audit =>
      rw [hrecord] at h
      obtain ⟨e, rfl, -⟩ | ⟨record, hsign, rfl, rfl⟩ := AuditStore.recover_record_cases hrecord
      · exact Option.some.inj h ▸ .crash
      · exact Option.some.inj h ▸ .recover old record pending now hrecovering hsign
  · cases h

theorem ExecutionState.start_moves {id : String} {entry : ScenarioEntry} {role : Role}
    {selected : Option String} {now : String} (hserving : s.is_serving = true)
    (h : s.start env id entry role selected now = some next) :
    s.Moves env (.start id entry role selected now) next := by
  unfold ExecutionState.start at h
  split at h
  · rename_i hrole
    split at h
    · cases h
    · rename_i record hsign
      exact Option.some.inj h ▸ .start id entry role selected now record hserving hrole hsign
  · cases h

theorem ExecutionState.append_moves {handle : Nat} {disk : Disk} (hserving : s.is_serving = true)
    (h : s.append handle disk = some next) : s.Moves env (.append handle disk) next := by
  unfold ExecutionState.append at h
  split at h
  · rename_i w hw
    split at h
    · rename_i hphase
      cases happend : s.audit.append disk w.record with
      | mk result audit =>
        rw [happend] at h
        obtain ⟨e, rfl, -⟩ | ⟨rfl, hnew, rfl⟩ := AuditStore.append_cases happend
        · exact Option.some.inj h ▸ .refuse handle w hserving hw hphase
        · exact Option.some.inj h ▸ .append handle w hserving hw hphase hnew
    · cases h
  · cases h

theorem ExecutionState.insert_moves {handle : Nat} (hserving : s.is_serving = true)
    (h : s.insert handle = some next) : s.Moves env (.insert handle) next := by
  unfold ExecutionState.insert at h
  split at h
  · rename_i w hw
    split at h
    · rename_i hphase
      exact Option.some.inj h ▸ .insert handle w hserving hw hphase
    · cases h
  · cases h

theorem ExecutionState.executed_moves {handle : Nat} {result : Except Status DispatchOutcome}
    {label : ExecutionLabel} (hserving : s.is_serving = true) (h : s.executed env handle result = some next) :
    s.Moves env label next := by
  unfold ExecutionState.executed at h
  split at h
  · rename_i w hw
    split at h
    · rename_i hphase
      exact Option.some.inj h ▸ .settle handle w _ hserving hw hphase
    · cases h
  · cases h

theorem ExecutionState.dispatch_moves {handle : Nat} {opened : Except Status Unit} {rounds : List Round}
    (hserving : s.is_serving = true) (h : s.dispatch env handle opened rounds = some next) :
    s.Moves env (.dispatch handle opened rounds) next := by
  unfold ExecutionState.dispatch at h
  split at h
  · split at h
    · exact executed_moves hserving h
    · cases h
  · cases h

theorem ExecutionState.simulate_moves {handle : Nat} {reason : SimulationEnd}
    (hserving : s.is_serving = true) (h : s.simulate env handle reason = some next) :
    s.Moves env (.simulate handle reason) next := by
  unfold ExecutionState.simulate at h
  split at h
  · split at h
    · exact executed_moves hserving h
    · cases h
  · cases h

theorem ExecutionState.commit_moves {handle : Nat} {now : String} {disk : Disk}
    (hserving : s.is_serving = true) (h : s.commit env handle now disk = some next) :
    s.Moves env (.commit handle now disk) next := by
  unfold ExecutionState.commit at h
  split at h
  · rename_i w hw
    split at h
    · rename_i settlement hphase hsettlement
      cases hupdate : s.audit.update disk w.record.run_id
          (signed_revision env.crypto env.key (terminal_revision w.mode settlement now)) with
      | mk result audit =>
        rw [hupdate] at h
        obtain ⟨e, rfl, -⟩ | ⟨rfl, hgone, -⟩ | ⟨old, record, hold, hrevise, hid, rfl, rfl⟩ :=
          AuditStore.update_cases hupdate
        · exact Option.some.inj h ▸ .unsave handle w hserving hw hphase
        · exact Option.some.inj h ▸ .vanish handle w hserving hw hphase hgone
        · exact Option.some.inj h ▸
            .commit handle w settlement now old record hserving hw hphase (hid ▸ hold) hrevise hid hsettlement
    · cases h
  · cases h

theorem ExecutionState.remove_moves {handle : Nat} (hserving : s.is_serving = true)
    (h : s.remove handle = some next) : s.Moves env (.remove handle) next := by
  unfold ExecutionState.remove at h
  split at h
  · rename_i w hw
    split at h
    · rename_i hphase
      exact Option.some.inj h ▸ .remove handle w hserving hw hphase
    · cases h
  · cases h

theorem ExecutionState.check_feedback_moves {role : Role} {run_id : String} {payload : RunFeedbackPayload}
    (hserving : s.is_serving = true) (h : s.check_feedback role run_id payload = some next) :
    s.Moves env (.check_feedback role run_id payload) next := by
  unfold ExecutionState.check_feedback at h
  split at h
  · cases h
  · split at h
    · cases h
    · rename_i old hold
      split at h
      · rename_i hterminal
        split at h
        · cases h
        · exact Option.some.inj h ▸ .check_feedback ⟨run_id, payload⟩ old hserving hold hterminal
      · cases h

theorem ExecutionState.commit_feedback_moves {request : Nat} {now : String} {disk : Disk}
    (hserving : s.is_serving = true) (h : s.commit_feedback env request now disk = some next) :
    s.Moves env (.commit_feedback request now disk) next := by
  unfold ExecutionState.commit_feedback at h
  split at h
  · rename_i feedback hfeedback
    dsimp only at h
    cases hupdate : s.audit.update disk feedback.run_id
        (signed_revision env.crypto env.key (feedback_revision feedback.payload now)) with
    | mk result audit =>
      rw [hupdate] at h
      obtain ⟨e, rfl, -⟩ | ⟨rfl, -, -⟩ | ⟨old, record, hold, hrevise, hid, rfl, rfl⟩ :=
        AuditStore.update_cases hupdate
      · exact Option.some.inj h ▸ .drop_feedback request hserving
      · exact Option.some.inj h ▸ .drop_feedback request hserving
      · exact Option.some.inj h ▸
          .commit_feedback request feedback now old record hserving hfeedback (hid ▸ hold) hrevise hid
  · cases h

theorem ExecutionState.begin_cancel_moves {role : Role} {run_id : String} (hserving : s.is_serving = true)
    (h : s.begin_cancel role run_id = some next) : s.Moves env (.begin_cancel role run_id) next := by
  unfold ExecutionState.begin_cancel at h
  split at h
  · cases h
  · rename_i record hrecord
    split at h
    · cases h
    · rename_i category hcategory
      split at h
      · rename_i hrole
        exact Option.some.inj h ▸ .begin_cancel role run_id record category hserving hrecord hcategory hrole
      · cases h

theorem ExecutionState.begin_abort_moves {role : Role} (hserving : s.is_serving = true)
    (h : s.begin_abort role = some next) : s.Moves env (.begin_abort role) next := by
  unfold ExecutionState.begin_abort at h
  split at h
  · exact Option.some.inj h ▸ .begin_abort role hserving
  · cases h

theorem ExecutionState.stop_pass_moves {request : Nat} (hserving : s.is_serving = true)
    (h : s.stop_pass request = some next) : s.Moves env (.stop_pass request) next := by
  unfold ExecutionState.stop_pass at h
  split at h
  · rename_i stop hstop
    split at h
    · cases h
    · rename_i hpending
      exact Option.some.inj h ▸ .stop_pass request stop hserving hstop (Bool.eq_false_iff.mpr hpending)
  · cases h

/-- Every step is one of the moves. -/
theorem ExecutionState.step_moves {label : ExecutionLabel} (h : s.step env label = some next) :
    s.Moves env label next := by
  unfold ExecutionState.step at h
  split at h
  · exact Option.some.inj h ▸ .crash
  · exact restart_moves h
  · exact recover_moves h
  · split at h
    · rename_i hserving
      split at h
      · exact start_moves hserving h
      · exact append_moves hserving h
      · exact insert_moves hserving h
      · exact dispatch_moves hserving h
      · exact simulate_moves hserving h
      · exact commit_moves hserving h
      · exact remove_moves hserving h
      · exact check_feedback_moves hserving h
      · exact commit_feedback_moves hserving h
      · exact begin_cancel_moves hserving h
      · exact begin_abort_moves hserving h
      · exact stop_pass_moves hserving h
      · exact Option.some.inj h ▸ .cancel_scenario _ hserving
      · cases h
    · cases h

end

end asmodeus.control_plane
