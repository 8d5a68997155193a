import Asmodeus.ControlPlane.Execution.Immutability
import Asmodeus.ControlPlane.Execution.Steps

open asmodeus.common asmodeus.telemetry

namespace asmodeus.control_plane

/-- What a step that commits nothing keeps of a worker. -/
structure Worker.Keeps (w w' : Worker) : Prop where
  record : w'.record = w.record
  category : w'.category = w.category
  cancel : w.cancel = true → w'.cancel = true
  admitted : w'.phase.admitted = w.phase.admitted
  unfinished : w'.phase.unfinished = true → w.phase.unfinished = true

/-- The worker captured an admission record of its own category. -/
structure Worker.Fresh (w : Worker) : Prop where
  category : w.record.category = w.category.as_str
  open_record : w.record.is_terminal = false
  evidence : w.record.evidence.isSome
  no_feedback : has_feedback w.record = false

/-- The invariant of the executions: the store is faithful to a lawful history,
an unfinished worker finds its own queued record as the latest revision, and a
checked feedback request finds a terminal one. -/
structure ExecutionState.Sound (s : ExecutionState) : Prop where
  faithful : s.audit.Faithful (s.history.map Prod.snd)
  lawful : History.EachStep CommitLaw s.history
  idle : s.is_serving = false → s.workers = [] ∧ s.feedbacks = []
  recovering : ∀ pending, s.process = .recovering pending →
    KeyedList.Unique AuditRecord.run_id pending ∧
      ∀ old ∈ pending, s.audit.get old.run_id = some old ∧ old.is_terminal = false
  fresh : ∀ (handle : Nat) (w : Worker), s.workers[handle]? = some w → w.Fresh
  durable : ∀ (handle : Nat) (w : Worker), s.workers[handle]? = some w → w.phase.unfinished = true →
    s.audit.get w.record.run_id = some w.record
  known : ∀ (handle : Nat) (w : Worker), s.workers[handle]? = some w → w.phase.admitted = true →
    (s.audit.get w.record.run_id).isSome
  distinct : ∀ (i j : Nat) (w w' : Worker), s.workers[i]? = some w → s.workers[j]? = some w' →
    w.phase.admitted = true → w'.phase.admitted = true → w.record.run_id = w'.record.run_id → i = j
  feedbacks : ∀ f ∈ s.feedbacks, ∃ old, s.audit.get f.run_id = some old ∧ old.is_terminal = true

/-- A step of the serving process that commits nothing. -/
structure ExecutionState.Quiet (s next : ExecutionState) : Prop where
  process : next.process = s.process
  audit : next.audit = s.audit
  history : next.history = s.history
  workers : ∀ (handle : Nat) (w' : Worker), next.workers[handle]? = some w' →
    ∃ w : Worker, s.workers[handle]? = some w ∧ w.Keeps w'
  feedbacks : ∀ f ∈ next.feedbacks, f ∈ s.feedbacks ∨ ∃ old, s.audit.get f.run_id = some old ∧ old.is_terminal = true

theorem Phase.admitted_of_unfinished {phase : Phase} (h : phase.unfinished = true) : phase.admitted = true := by
  cases phase <;> first | rfl | cases h

theorem Worker.keeps_phase {w : Worker} {phase phase' : Phase} (settlement : Option Settlement)
    (hphase : w.phase = phase) (hadmitted : phase'.admitted = phase.admitted)
    (hunfinished : phase'.unfinished = true → phase.unfinished = true) :
    w.Keeps { w with phase := phase', settlement := settlement } :=
  ⟨rfl, rfl, id, by rw [hphase]; exact hadmitted, by rw [hphase]; exact hunfinished⟩

theorem Worker.Keeps.refl (w : Worker) : w.Keeps w := ⟨rfl, rfl, id, rfl, id⟩

theorem Worker.keeps_cancelled (w : Worker) : w.Keeps w.cancelled := ⟨rfl, rfl, fun _ => rfl, rfl, id⟩

theorem Worker.Fresh.of_keeps {w w' : Worker} (hfresh : w.Fresh) (hkeeps : w.Keeps w') : w'.Fresh := by
  obtain ⟨hcategory, hopen, hevidence, hfeedback⟩ := hfresh
  exact ⟨by rw [hkeeps.record, hkeeps.category, hcategory], by rw [hkeeps.record, hopen],
    by rw [hkeeps.record]; exact hevidence, by rw [hkeeps.record, hfeedback]⟩

theorem ExecutionState.get_set_worker {s : ExecutionState} {handle j : Nat} {w x : Worker}
    (h : (s.set_worker handle w).workers[j]? = some x) :
    (j = handle ∧ x = w) ∨ (j ≠ handle ∧ s.workers[j]? = some x) := by
  change (s.workers.set handle w)[j]? = some x at h
  rw [List.getElem?_set] at h
  split at h
  · rename_i heq
    split at h
    · exact Or.inl ⟨heq.symm, (Option.some.inj h).symm⟩
    · cases h
  · rename_i hne
    exact Or.inr ⟨Ne.symm hne, h⟩

/-- Replacing one worker by a step of itself. -/
theorem ExecutionState.set_worker_keeps {s : ExecutionState} {handle : Nat} {w w' : Worker}
    (hw : s.workers[handle]? = some w) (hkeeps : w.Keeps w') (j : Nat) (x : Worker)
    (hx : (s.set_worker handle w').workers[j]? = some x) : ∃ y, s.workers[j]? = some y ∧ y.Keeps x := by
  rcases get_set_worker hx with ⟨rfl, rfl⟩ | ⟨-, hother⟩
  · exact ⟨w, hw, hkeeps⟩
  · exact ⟨x, hother, .refl x⟩

/-- The request flags this worker when it looks into the map of runs. -/
def ExecutionState.flags (s : ExecutionState) (stop : StopRequest) (handle : Nat) (w : Worker) : Bool :=
  match stop.target with
  | some run_id => (KeyedList.find Prod.fst run_id s.runs).any fun entry => entry.2 == handle
  | none => s.runs.any (fun entry => entry.2 == handle) && stop.role.can w.category.required_capability

/-- A stop request flags workers one by one and changes nothing else of them. -/
theorem ExecutionState.stopped_worker (s : ExecutionState) (stop : StopRequest) (handle : Nat) :
    (s.stopped stop).workers[handle]? =
      s.workers[handle]?.map fun w => if s.flags stop handle w then w.cancelled else w := by
  cases htarget : stop.target with
  | none =>
    simp only [ExecutionState.stopped, ExecutionState.flags, htarget]
    change (s.workers.mapIdx _)[handle]? = _
    rw [List.getElem?_mapIdx]
  | some run_id =>
    simp only [ExecutionState.stopped, ExecutionState.flags, htarget]
    unfold ExecutionState.cancel_scenario
    cases hfind : KeyedList.find Prod.fst run_id s.runs with
    | none => simp
    | some entry =>
      change (s.workers.modify entry.2 Worker.cancelled)[handle]? = _
      rw [List.getElem?_modify]
      cases s.workers[handle]? <;> simp

theorem ExecutionState.stopped_keeps (s : ExecutionState) (stop : StopRequest) (j : Nat) (x : Worker)
    (hx : (s.stopped stop).workers[j]? = some x) : ∃ y, s.workers[j]? = some y ∧ y.Keeps x := by
  rw [stopped_worker, Option.map_eq_some_iff] at hx
  obtain ⟨y, hy, rfl⟩ := hx
  refine ⟨y, hy, ?_⟩
  split
  · exact y.keeps_cancelled
  · exact .refl y

/-- A cancelled scenario is the case of a request about one run. -/
theorem ExecutionState.cancel_scenario_eq_stopped (s : ExecutionState) (run_id : String) :
    s.cancel_scenario run_id = s.stopped ⟨.Admin, some run_id, [], false⟩ := rfl

theorem ExecutionState.cancel_scenario_frame (s : ExecutionState) (run_id : String) :
    s.cancel_scenario run_id = { s with workers := (s.cancel_scenario run_id).workers } := by
  unfold ExecutionState.cancel_scenario
  split <;> rfl

theorem ExecutionState.stopped_frame (s : ExecutionState) (stop : StopRequest) :
    s.stopped stop = { s with workers := (s.stopped stop).workers } := by
  unfold ExecutionState.stopped
  split
  · exact cancel_scenario_frame s _
  · rfl

section

variable {env : Env} {s next : ExecutionState} {label : ExecutionLabel}

theorem ExecutionState.is_serving_eq (hprocess : next.process = s.process) : next.is_serving = s.is_serving := by
  rw [ExecutionState.is_serving, ExecutionState.is_serving, hprocess]

/-- A quiet step keeps the invariant. -/
theorem ExecutionState.Sound.of_quiet (hsound : s.Sound) (hserving : s.is_serving = true) (hquiet : s.Quiet next) :
    next.Sound where
  faithful := by rw [hquiet.audit, hquiet.history]; exact hsound.faithful
  lawful := by rw [hquiet.history]; exact hsound.lawful
  idle := by
    intro hidle
    rw [is_serving_eq hquiet.process, hserving] at hidle
    cases hidle
  recovering := by
    intro pending hpending
    rw [hquiet.process] at hpending
    rw [hquiet.audit]
    exact hsound.recovering pending hpending
  fresh := by
    intro handle w' hw'
    obtain ⟨w, hw, hkeeps⟩ := hquiet.workers handle w' hw'
    exact (hsound.fresh handle w hw).of_keeps hkeeps
  durable := by
    intro handle w' hw' hunfinished
    obtain ⟨w, hw, hkeeps⟩ := hquiet.workers handle w' hw'
    rw [hquiet.audit, hkeeps.record]
    exact hsound.durable handle w hw (hkeeps.unfinished hunfinished)
  known := by
    intro handle w' hw' hadmitted
    obtain ⟨w, hw, hkeeps⟩ := hquiet.workers handle w' hw'
    rw [hkeeps.admitted] at hadmitted
    rw [hquiet.audit, hkeeps.record]
    exact hsound.known handle w hw hadmitted
  distinct := by
    intro i j w' x' hw' hx' hadmitted hadmitted' hid
    obtain ⟨w, hw, hkeeps⟩ := hquiet.workers i w' hw'
    obtain ⟨x, hx, hkeeps'⟩ := hquiet.workers j x' hx'
    rw [hkeeps.admitted] at hadmitted
    rw [hkeeps'.admitted] at hadmitted'
    rw [hkeeps.record, hkeeps'.record] at hid
    exact hsound.distinct i j w x hw hx hadmitted hadmitted' hid
  feedbacks := by
    intro f hf
    rw [hquiet.audit]
    rcases hquiet.feedbacks f hf with hold | hnew
    · exact hsound.feedbacks f hold
    · exact hnew

/-- A worker changes its phase quietly when it neither enters the audit nor
returns to an unfinished phase. -/
theorem ExecutionState.quiet_worker {handle : Nat} {w w' : Worker} (hw : s.workers[handle]? = some w)
    (hkeeps : w.Keeps w') : s.Quiet (s.set_worker handle w') where
  process := rfl
  audit := rfl
  history := rfl
  workers := set_worker_keeps hw hkeeps
  feedbacks := fun _ hf => Or.inl hf

/-- The store and the history agree on the latest revision of a run. -/
theorem ExecutionState.Sound.get_eq_latest (hsound : s.Sound) (run_id : String) :
    s.audit.get run_id = latest s.history run_id := by
  rw [AuditStore.get, AuditTrail.get, hsound.faithful.records, latest]

theorem ExecutionState.Sound.serving_process (hserving : s.is_serving = true) (pending : List AuditRecord) :
    s.process ≠ .recovering pending := by
  intro h
  rw [ExecutionState.is_serving, h] at hserving
  cases hserving

/-- The queued record of a worker enters the audit. -/
theorem ExecutionState.Sound.append (hsound : s.Sound) (hserving : s.is_serving = true) {handle : Nat}
    {w : Worker} (hw : s.workers[handle]? = some w) (hnew : s.audit.get w.record.run_id = none) :
    ExecutionState.Sound { s.set_worker handle { w with phase := .appended } with
      audit := (s.audit.logged w.record).publish_append w.record
      history := s.history ++ [(.admission, w.record)] } := by
  have hfresh := hsound.fresh handle w hw
  have hget := AuditStore.get_publish_append hnew
  -- no admitted worker and no checked feedback carries the new run ID
  have hother : ∀ (j : Nat) (x : Worker), s.workers[j]? = some x → x.phase.admitted = true →
      x.record.run_id ≠ w.record.run_id := by
    intro j x hx hadmitted hid
    have hknown := hsound.known j x hx hadmitted
    rw [hid, hnew] at hknown
    cases hknown
  constructor
  case faithful => simpa using hsound.faithful.append hnew
  case lawful =>
    refine History.eachStep_snoc.mpr ⟨hsound.lawful, ?_⟩
    rw [hsound.get_eq_latest] at hnew
    exact ⟨hnew, hfresh.open_record, hfresh.evidence, hfresh.no_feedback⟩
  case idle =>
    intro hidle
    exact absurd hserving (Bool.eq_false_iff.mp hidle)
  case recovering => exact fun pending hpending => absurd hpending (serving_process hserving pending)
  case fresh =>
    intro j x hx
    rcases get_set_worker hx with ⟨rfl, rfl⟩ | ⟨-, hx⟩
    · exact ⟨hfresh.category, hfresh.open_record, hfresh.evidence, hfresh.no_feedback⟩
    · exact hsound.fresh j x hx
  case durable =>
    intro j x hx hunfinished
    rcases get_set_worker hx with ⟨rfl, rfl⟩ | ⟨-, hx⟩
    · exact (hget _).trans (if_pos rfl)
    · have hold := hsound.durable j x hx hunfinished
      refine (hget _).trans ((if_neg ?_).trans hold)
      intro hid
      rw [hid, hnew] at hold
      cases hold
  case known =>
    intro j x hx hadmitted
    rw [hget]
    rcases get_set_worker hx with ⟨rfl, rfl⟩ | ⟨-, hx⟩
    · rw [if_pos rfl]; rfl
    · rw [if_neg (hother j x hx hadmitted)]
      exact hsound.known j x hx hadmitted
  case distinct =>
    intro i j x y hx hy hxadmitted hyadmitted hid
    rcases get_set_worker hx with ⟨rfl, rfl⟩ | ⟨-, hx'⟩
    · rcases get_set_worker hy with ⟨rfl, rfl⟩ | ⟨-, hy'⟩
      · rfl
      · exact absurd hid.symm (hother j y hy' hyadmitted)
    · rcases get_set_worker hy with ⟨rfl, rfl⟩ | ⟨-, hy'⟩
      · exact absurd hid (hother i x hx' hxadmitted)
      · exact hsound.distinct i j x y hx' hy' hxadmitted hyadmitted hid
  case feedbacks =>
    intro f hf
    obtain ⟨old, hold, hterminal⟩ := hsound.feedbacks f hf
    refine ⟨old, (hget _).trans ((if_neg ?_).trans hold), hterminal⟩
    intro hid
    rw [hid, hnew] at hold
    cases hold

/-- A worker replaces its queued record by a terminal revision. -/
theorem ExecutionState.Sound.commit (hsound : s.Sound) (hserving : s.is_serving = true) {handle : Nat}
    {w : Worker} {settlement : Settlement} {now : String} {old record : AuditRecord}
    (hw : s.workers[handle]? = some w) (hphase : w.phase = .settled)
    (hold : s.audit.get record.run_id = some old)
    (hrevise : signed_revision env.crypto env.key (terminal_revision w.mode settlement now) old = .ok record)
    (hid : record.run_id = w.record.run_id) :
    ExecutionState.Sound { s.set_worker handle { w with phase := .committed, recorded := true } with
      audit := (s.audit.logged record).publish_update old record
      history := s.history ++ [(.worker, record)] } := by
  have hget := AuditStore.get_publish_update hold
  have hunfinished : w.phase.unfinished = true := by rw [hphase]; rfl
  have hadmitted : w.phase.admitted = true := by rw [hphase]; rfl
  have hqueued : old = w.record := by
    have hdurable := hsound.durable handle w hw hunfinished
    rw [← hid, hold, Option.some.injEq] at hdurable
    exact hdurable
  have hopen : old.is_terminal = false := hqueued ▸ (hsound.fresh handle w hw).open_record
  obtain ⟨-, -, hevidence, hfeedback⟩ := terminal_revision_spec hrevise
  -- the run belongs to no other admitted worker
  have hother : ∀ (j : Nat) (x : Worker), j ≠ handle → s.workers[j]? = some x → x.phase.admitted = true →
      x.record.run_id ≠ record.run_id := by
    intro j x hj hx hxadmitted hxid
    exact hj (hsound.distinct j handle x w hx hw hxadmitted hadmitted (hxid.trans hid))
  constructor
  case faithful => simpa using hsound.faithful.update hold
  case lawful =>
    refine History.eachStep_snoc.mpr ⟨hsound.lawful, ?_⟩
    exact ⟨old, (hsound.get_eq_latest _).symm.trans hold, hopen, hevidence, hfeedback⟩
  case idle =>
    intro hidle
    exact absurd hserving (Bool.eq_false_iff.mp hidle)
  case recovering => exact fun pending hpending => absurd hpending (serving_process hserving pending)
  case fresh =>
    intro j x hx
    rcases get_set_worker hx with ⟨rfl, rfl⟩ | ⟨-, hx⟩
    · obtain ⟨hcategory, hrecord, hsome, hnone⟩ := hsound.fresh j w hw
      exact ⟨hcategory, hrecord, hsome, hnone⟩
    · exact hsound.fresh j x hx
  case durable =>
    intro j x hx hxunfinished
    rcases get_set_worker hx with ⟨rfl, rfl⟩ | ⟨hj, hx⟩
    · cases hxunfinished
    · have hxadmitted := Phase.admitted_of_unfinished hxunfinished
      refine (hget _).trans ((if_neg (hother j x hj hx hxadmitted)).trans ?_)
      exact hsound.durable j x hx hxunfinished
  case known =>
    intro j x hx hxadmitted
    rw [hget]
    rcases get_set_worker hx with ⟨rfl, rfl⟩ | ⟨-, hx⟩
    · rw [if_pos hid.symm]; rfl
    · split
      · rfl
      · exact hsound.known j x hx hxadmitted
  case distinct =>
    intro i j x y hx hy hxadmitted hyadmitted hxy
    rcases get_set_worker hx with ⟨rfl, rfl⟩ | ⟨hi, hx'⟩
    · rcases get_set_worker hy with ⟨rfl, rfl⟩ | ⟨hj, hy'⟩
      · rfl
      · exact absurd (hxy.symm.trans hid.symm) (hother j y hj hy' hyadmitted)
    · rcases get_set_worker hy with ⟨rfl, rfl⟩ | ⟨hj, hy'⟩
      · exact absurd (hxy.trans hid.symm) (hother i x hi hx' hxadmitted)
      · exact hsound.distinct i j x y hx' hy' hxadmitted hyadmitted hxy
  case feedbacks =>
    intro f hf
    obtain ⟨other, hotherget, hterminal⟩ := hsound.feedbacks f hf
    refine ⟨other, (hget _).trans ((if_neg ?_).trans hotherget), hterminal⟩
    intro hfid
    rw [hfid, hold, Option.some.injEq] at hotherget
    rw [← hotherget, hopen] at hterminal
    cases hterminal

/-- A checked feedback request revises a record that is still terminal. -/
theorem ExecutionState.Sound.commit_feedback (hsound : s.Sound) (hserving : s.is_serving = true)
    {request : Nat} {feedback : FeedbackRequest} {now : String} {old record : AuditRecord}
    (hfeedback : s.feedbacks[request]? = some feedback) (hold : s.audit.get record.run_id = some old)
    (hrevise : signed_revision env.crypto env.key (feedback_revision feedback.payload now) old = .ok record)
    (hid : record.run_id = feedback.run_id) :
    ExecutionState.Sound { s with
      feedbacks := s.feedbacks.eraseIdx request
      audit := (s.audit.logged record).publish_update old record
      history := s.history ++ [(.feedback, record)] } := by
  have hget := AuditStore.get_publish_update hold
  have hterminal : old.is_terminal = true := by
    obtain ⟨other, hother, hterminal⟩ := hsound.feedbacks feedback (List.mem_of_getElem? hfeedback)
    rw [← hid, hold, Option.some.injEq] at hother
    exact hother ▸ hterminal
  obtain ⟨-, hfacts, hgiven, hevidence⟩ := feedback_revision_spec hrevise
  constructor
  case faithful => simpa using hsound.faithful.update hold
  case lawful =>
    refine History.eachStep_snoc.mpr ⟨hsound.lawful, ?_⟩
    exact ⟨old, (hsound.get_eq_latest _).symm.trans hold, hterminal, hfacts, hgiven, hevidence⟩
  case idle =>
    intro hidle
    exact absurd hserving (Bool.eq_false_iff.mp hidle)
  case recovering => exact fun pending hpending => absurd hpending (serving_process hserving pending)
  case fresh => exact hsound.fresh
  case durable =>
    intro j x hx hunfinished
    have hdurable := hsound.durable j x hx hunfinished
    refine (hget _).trans ((if_neg ?_).trans hdurable)
    intro hxid
    rw [hxid, hold, Option.some.injEq] at hdurable
    have hopen := (hsound.fresh j x hx).open_record
    rw [← hdurable, hterminal] at hopen
    cases hopen
  case known =>
    intro j x hx hadmitted
    rw [hget]
    split
    · rfl
    · exact hsound.known j x hx hadmitted
  case distinct => exact hsound.distinct
  case feedbacks =>
    intro f hf
    obtain ⟨other, hother, hotherterminal⟩ := hsound.feedbacks f (List.mem_of_mem_eraseIdx hf)
    by_cases hfid : f.run_id = record.run_id
    · exact ⟨record, (hget _).trans (if_pos hfid), (is_terminal_of_settled hfacts).trans hterminal⟩
    · exact ⟨other, (hget _).trans ((if_neg hfid).trans hother), hotherterminal⟩

/-- The startup reconciliation closes one record. -/
theorem ExecutionState.Sound.recover (hsound : s.Sound) {old record : AuditRecord}
    {pending : List AuditRecord} {now : String} (hrecovering : s.process = .recovering (old :: pending))
    (hsign : (interrupted now old).sign env.crypto env.key = .ok record) :
    ExecutionState.Sound { s with
      process := .recovering pending
      audit := (s.audit.logged record).publish_update old record
      history := s.history ++ [(.recovery, record)] } := by
  obtain ⟨hunique, hpending⟩ := hsound.recovering _ hrecovering
  obtain ⟨hid, hstatus, hcleanup, hevidence, hsome, hfeedback⟩ := interrupted_facts hsign
  obtain ⟨hold, hopen⟩ := hpending old List.mem_cons_self
  rw [← hid] at hold
  have hget := AuditStore.get_publish_update hold
  have hidle := hsound.idle (by rw [ExecutionState.is_serving, hrecovering])
  have hnone : ∀ (j : Nat) (x : Worker), s.workers[j]? ≠ some x := by simp [hidle.1]
  constructor
  case faithful => simpa using hsound.faithful.update hold
  case lawful =>
    refine History.eachStep_snoc.mpr ⟨hsound.lawful, ?_⟩
    exact ⟨old, (hsound.get_eq_latest _).symm.trans hold, hopen, hstatus, hcleanup, hevidence, hsome, hfeedback⟩
  case idle => exact fun _ => hidle
  case recovering =>
    intro rest hrest
    obtain rfl := Process.recovering.inj hrest
    refine ⟨List.Nodup.of_cons hunique, ?_⟩
    intro later hlater
    obtain ⟨hlaterget, hlateropen⟩ := hpending later (List.mem_cons_of_mem old hlater)
    refine ⟨(hget _).trans ((if_neg ?_).trans hlaterget), hlateropen⟩
    intro heq
    exact (List.nodup_cons.mp hunique).1 (hid ▸ heq ▸ List.mem_map_of_mem hlater)
  case fresh => exact fun j x hx => absurd hx (hnone j x)
  case durable => exact fun j x hx => absurd hx (hnone j x)
  case known => exact fun j x hx => absurd hx (hnone j x)
  case distinct => exact fun i j x y hx => absurd hx (hnone i x)
  case feedbacks =>
    intro f hf
    change f ∈ s.feedbacks at hf
    rw [hidle.2] at hf
    cases hf

/-- A process that is not serving has no workers and no requests, so only the
store and the history carry its invariant. -/
theorem ExecutionState.Sound.of_idle (hfaithful : s.audit.Faithful (s.history.map Prod.snd))
    (hlawful : History.EachStep CommitLaw s.history) (hworkers : s.workers = []) (hfeedbacks : s.feedbacks = [])
    (hrecovering : ∀ pending, s.process = .recovering pending →
      KeyedList.Unique AuditRecord.run_id pending ∧
        ∀ old ∈ pending, s.audit.get old.run_id = some old ∧ old.is_terminal = false) : s.Sound where
  faithful := hfaithful
  lawful := hlawful
  idle := fun _ => ⟨hworkers, hfeedbacks⟩
  recovering := hrecovering
  fresh := by simp [hworkers]
  durable := by simp [hworkers]
  known := by simp [hworkers]
  distinct := by simp [hworkers]
  feedbacks := by simp [hfeedbacks]

/-- A restart finds the store of the previous life, or an empty one. -/
theorem ExecutionState.Sound.restart (hsound : s.Sound) {audit : AuditStore} (hdown : s.process = .down)
    (hload : AuditStore.load env.reader s.audit.log = .ok audit) :
    ExecutionState.Sound { s with
      process := .recovering audit.incomplete
      audit := audit
      history := if s.audit.log.isSome then s.history else [] } := by
  obtain ⟨hworkers, hfeedbacks⟩ := hsound.idle (by rw [ExecutionState.is_serving, hdown])
  have hfaithful : audit.Faithful ((if s.audit.log.isSome then s.history else []).map Prod.snd) := by
    cases hlog : s.audit.log with
    | none =>
      rw [hlog] at hload
      exact .of_load_none hload
    | some file =>
      rw [hlog, hsound.faithful.reload env.reader hlog, Except.ok.injEq] at hload
      exact hload ▸ hsound.faithful
  refine .of_idle hfaithful ?_ hworkers hfeedbacks ?_
  · dsimp only
    split
    · exact hsound.lawful
    · exact History.eachStep_nil CommitLaw
  · intro pending hpending
    obtain rfl := Process.recovering.inj hpending
    refine ⟨hfaithful.unique.sublist (List.filter_sublist.map _), ?_⟩
    intro old hold
    obtain ⟨hmem, hopen⟩ := List.mem_filter.mp hold
    exact ⟨hfaithful.unique.find_of_mem hmem, by simpa using hopen⟩

theorem ExecutionState.Sound.serve (hsound : s.Sound) (hrecovered : s.process = .recovering []) :
    ExecutionState.Sound { s with process := .serving } := by
  obtain ⟨hworkers, hfeedbacks⟩ := hsound.idle (by rw [ExecutionState.is_serving, hrecovered])
  exact .of_idle hsound.faithful hsound.lawful hworkers hfeedbacks (fun pending hpending => by cases hpending)

theorem ExecutionState.Sound.crash (hsound : s.Sound) : s.crash.Sound :=
  .of_idle hsound.faithful hsound.lawful rfl rfl (fun pending hpending => by cases hpending)

theorem ExecutionState.initial_sound (persistent : Bool) : (initial persistent).Sound := by
  refine .of_idle ⟨rfl, ?_, rfl⟩ (History.eachStep_nil CommitLaw) rfl rfl (fun pending hpending => by cases hpending)
  intro file hfile
  cases persistent with
  | true => rw [← Option.some.inj hfile]; rfl
  | false => cases hfile

/-- Spawning a worker touches neither the audit nor the other workers. -/
theorem ExecutionState.Sound.start (hsound : s.Sound) (hserving : s.is_serving = true) {w : Worker}
    (hphase : w.phase = .admitting) (hfresh : w.Fresh) :
    ExecutionState.Sound { s with workers := s.workers ++ [w] } := by
  have hunfinished : w.phase.unfinished = false := by rw [hphase]; rfl
  have hadmitted : w.phase.admitted = false := by rw [hphase]; rfl
  have hcases : ∀ (j : Nat) (x : Worker), (s.workers ++ [w])[j]? = some x → s.workers[j]? = some x ∨ x = w := by
    intro j x hx
    rw [List.getElem?_append] at hx
    split at hx
    · exact Or.inl hx
    · exact Or.inr (List.mem_singleton.mp (List.mem_of_getElem? hx))
  constructor
  case faithful => exact hsound.faithful
  case lawful => exact hsound.lawful
  case idle =>
    intro hidle
    exact absurd hserving (Bool.eq_false_iff.mp hidle)
  case recovering => exact hsound.recovering
  case fresh =>
    intro j x hx
    rcases hcases j x hx with hx | rfl
    · exact hsound.fresh j x hx
    · exact hfresh
  case durable =>
    intro j x hx hxunfinished
    rcases hcases j x hx with hx | rfl
    · exact hsound.durable j x hx hxunfinished
    · rw [hunfinished] at hxunfinished
      cases hxunfinished
  case known =>
    intro j x hx hxadmitted
    rcases hcases j x hx with hx | rfl
    · exact hsound.known j x hx hxadmitted
    · rw [hadmitted] at hxadmitted
      cases hxadmitted
  case distinct =>
    intro i j x y hx hy hxadmitted hyadmitted hid
    rcases hcases i x hx with hx | rfl
    · rcases hcases j y hy with hy | rfl
      · exact hsound.distinct i j x y hx hy hxadmitted hyadmitted hid
      · rw [hadmitted] at hyadmitted
        cases hyadmitted
    · rw [hadmitted] at hxadmitted
      cases hxadmitted
  case feedbacks => exact hsound.feedbacks

/-- Every move keeps the invariant. -/
theorem ExecutionState.Sound.moves (hsound : s.Sound) (hmoves : s.Moves env label next) : next.Sound := by
  cases hmoves with
  | crash => exact hsound.crash
  | restart audit hdown hload => exact hsound.restart hdown hload
  | serve hrecovered => exact hsound.serve hrecovered
  | recover old record pending now hrecovering hsign => exact hsound.recover hrecovering hsign
  | start id entry role selected now record hserving hrole hsign =>
    obtain ⟨-, hcategory, hopen, hevidence, hfeedback⟩ := admission_record_spec hsign
    exact hsound.start hserving rfl ⟨hcategory, hopen, hevidence, hfeedback⟩
  | refuse handle w hserving hw hphase =>
    exact hsound.of_quiet hserving
      (quiet_worker hw (Worker.keeps_phase _ hphase rfl (fun h => by cases h)))
  | append handle w hserving hw hphase hnew => exact hsound.append hserving hw hnew
  | insert handle w hserving hw hphase =>
    have hquiet := quiet_worker hw (Worker.keeps_phase w.settlement hphase
      (rfl : Phase.running.admitted = _) (fun _ => rfl))
    exact hsound.of_quiet hserving
      ⟨hquiet.process, hquiet.audit, hquiet.history, hquiet.workers, hquiet.feedbacks⟩
  | settle handle w settlement hserving hw hphase =>
    exact hsound.of_quiet hserving
      (quiet_worker hw (Worker.keeps_phase _ hphase rfl (fun _ => rfl)))
  | unsave handle w hserving hw hphase =>
    exact hsound.of_quiet hserving
      (quiet_worker hw (Worker.keeps_phase _ hphase rfl (fun _ => rfl)))
  | vanish handle w hserving hw hphase hgone =>
    exact hsound.of_quiet hserving
      (quiet_worker hw (Worker.keeps_phase _ hphase rfl (fun h => by cases h)))
  | commit handle w settlement now old record hserving hw hphase hold hrevise hid hsettlement =>
    exact hsound.commit hserving hw hphase hold hrevise hid
  | remove handle w hserving hw hphase =>
    have hquiet := quiet_worker hw (Worker.keeps_phase w.settlement hphase
      (rfl : Phase.finished.admitted = _) (fun h => by cases h))
    exact hsound.of_quiet hserving
      ⟨hquiet.process, hquiet.audit, hquiet.history, hquiet.workers, hquiet.feedbacks⟩
  | check_feedback feedback old hserving hold hterminal =>
    refine hsound.of_quiet hserving ⟨rfl, rfl, rfl, fun j x hx => ⟨x, hx, .refl x⟩, fun f hf => ?_⟩
    rcases List.mem_append.mp hf with hf | hf
    · exact Or.inl hf
    · rw [List.mem_singleton] at hf
      exact Or.inr (hf ▸ ⟨old, hold, hterminal⟩)
  | drop_feedback request hserving =>
    exact hsound.of_quiet hserving
      ⟨rfl, rfl, rfl, fun j x hx => ⟨x, hx, .refl x⟩, fun f hf => Or.inl (List.mem_of_mem_eraseIdx hf)⟩
  | commit_feedback request feedback now old record hserving hfeedback hold hrevise hid =>
    exact hsound.commit_feedback hserving hfeedback hold hrevise hid
  | begin_cancel role run_id record category hserving hrecord hcategory hrole =>
    exact hsound.of_quiet hserving ⟨rfl, rfl, rfl, fun j x hx => ⟨x, hx, .refl x⟩, fun f hf => Or.inl hf⟩
  | begin_abort role hserving =>
    exact hsound.of_quiet hserving ⟨rfl, rfl, rfl, fun j x hx => ⟨x, hx, .refl x⟩, fun f hf => Or.inl hf⟩
  | stop_pass request stop hserving hstop hpending =>
    have hkeeps := stopped_keeps s stop
    rw [stopped_frame s stop] at hkeeps ⊢
    exact hsound.of_quiet hserving ⟨rfl, rfl, rfl, hkeeps, fun f hf => Or.inl hf⟩
  | cancel_scenario run_id hserving =>
    have hkeeps := stopped_keeps s ⟨.Admin, some run_id, [], false⟩
    rw [cancel_scenario_eq_stopped]
    rw [stopped_frame] at hkeeps ⊢
    exact hsound.of_quiet hserving ⟨rfl, rfl, rfl, hkeeps, fun f hf => Or.inl hf⟩

/-- The inherited revisions come first, whatever they are. -/
theorem ExecutionState.inherited_sound (revisions : List AuditRecord) : (inherited revisions).Sound := by
  refine .of_idle ?_ ?_ rfl rfl (fun pending hpending => by cases hpending)
  · have hrecords : (inherited revisions).history.map Prod.snd = revisions := by
      rw [inherited, List.map_map]
      exact List.map_id revisions
    rw [hrecords]
    exact ⟨rfl, fun file hfile => by rw [← Option.some.inj hfile]; rfl, rfl⟩
  · have hlegacy : ∀ entry ∈ (inherited revisions).history, entry.1 = .legacy := by simp [inherited]
    rintro before ⟨author, record⟩ after hsplit
    rw [hsplit] at hlegacy
    obtain rfl : author = .legacy := hlegacy (author, record) (by simp)
    exact fun entry hentry => hlegacy entry (List.mem_append_left _ hentry)

/-- A process that was never started, without a log, on a missing one or on one
that an earlier version of the program left. -/
def ExecutionState.Initial (s : ExecutionState) : Prop :=
  (∃ persistent, s = initial persistent) ∨ ∃ revisions, s = inherited revisions

theorem ExecutionState.Initial.sound (hinitial : Initial s) : s.Sound := by
  obtain ⟨persistent, rfl⟩ | ⟨revisions, rfl⟩ := hinitial
  · exact initial_sound persistent
  · exact inherited_sound revisions

theorem ExecutionState.sound_preserved (env : Env) :
    Transition.Preserved (ExecutionState.step env) ExecutionState.Sound :=
  fun _ _ _ hsound hstep => hsound.moves (step_moves hstep)

theorem ExecutionState.sound_of_reachable
    (hreach : Transition.Reachable (ExecutionState.step env) Initial s) : s.Sound := by
  exact hreach.invariant (fun _ hinitial => hinitial.sound) (sound_preserved env)

end

end asmodeus.control_plane
