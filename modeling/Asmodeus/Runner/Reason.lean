import Asmodeus.ControlPlane.Admission
import Asmodeus.Runner.Deadline

open asmodeus.dsl
open asmodeus.control_plane (EventKind RunnerEvent latency_manifest latency_plan latency_text latency_text_facts)

namespace asmodeus.runner

/-- Why a run does not end as planned. -/
inductive Cause
  | cancelled
  | timed_out
  | control_lost
  -- The error of an injector, sandbox or network call, or of the CPU budget.
  | fault (e : InjectError)
  -- The error of a cleanup, whatever went before it.
  | unclean (message : String)
  deriving DecidableEq

/-- The error that stops the run. -/
def Cause.error : Cause → Option InjectError
  | .cancelled => some (.Io "CANCELLED")
  | .timed_out => some (.Io "TIMED_OUT")
  | .control_lost => some (.Io "CONTROL_LOST")
  | .fault e => some e
  | .unclean _ => none

def Cause.is_unclean : Cause → Bool
  | .unclean _ => true
  | _ => false

/-- Why `check` stops the run. -/
def check_cause (deadline start : Nat) (r : Reading) : Option Cause :=
  if r.cancelled || r.closed then some .cancelled
  else if deadline ≤ r.now - start then some .timed_out
  else if LEASE ≤ r.now - r.heartbeat then some .control_lost
  else match r.delay with
    | .error e => some (.fault (.Io e))
    | .ok _ => none

namespace Worker

/-- What a statement meets. -/
def cause (w : Worker) (r : Reading) (o : Outcome) : Option Cause :=
  match w.pc with
  | .checking _ => check_cause (timeout_ms w.req w.plan) w.start r
  | .session => match (net_chaos_spec w.plan).start o.apply with
    | .error e => some (.fault (.Io e.display))
    | .ok _ => none
  | .making_canary | .making_injector => match make_injector w.sandbox.path with
    | .error e => some (.fault e)
    | .ok _ => none
  | .making_dir | .writing _ _ => match o.file with
    | .error e => some (.fault (.Io e))
    | .ok _ => none
  | .injection => match o.injected with
    | .error e => some (.fault e)
    | .ok _ => none
  | .reverting _ => match w.session, o.revert with
    | some _, .error e => some (.unclean e.display)
    | _, _ => none
  | .cleaning _ _ => match o.cleaned with
    | .error e => some (.unclean e.display)
    | .ok _ => none
  | .removing _ => match w.remove_dir_all o with
    | .error e => some (.unclean e)
    | .ok _ => none
  | _ => none

/-- Everything a call meets. -/
def causes (w : Worker) : List (Reading × Outcome) → List Cause
  | [] => []
  | (r, o) :: rest => (w.cause r o).toList ++ (w.step r o).causes rest

end Worker

namespace Pc

/-- The error that a statement carries on. -/
def error : Pc → Option InjectError
  | .reverting (.error e) | .cleaning (.error e) _ | .cleaning (.ok ()) (.error e) => some e
  | .leaving (.error e) | .removing (.error e) | .settling (.error e) | .reporting (.error e) => some e
  | _ => none

/-- The directory of the run has not been made yet. -/
def early : Pc → Bool
  | .starting | .creating | .rejecting _ => true
  | _ => false

/-- The statements that send the terminal event. -/
def tells : Pc → Bool
  | .rejecting _ | .reporting _ => true
  | _ => false

end Pc

/-- The reasons that are read back from the text of an error. -/
def STOP_REASONS : List String := ["CANCELLED", "TIMED_OUT", "CONTROL_LOST"]

/-- The text of the error contains the reason. -/
def InjectError.carries (e : InjectError) (reason : String) : Bool := decide (reason.toList <:+: e.display.toList)

def InjectError.marked (e : InjectError) : Bool := STOP_REASONS.any e.carries

variable {w : Worker} {r : Reading} {o : Outcome}

/-- What one statement does to the error of the run, and what it meets. -/
structure Meets (w w' : Worker) (cause : Option Cause) : Prop where
  error : w'.pc.error.toList = w.pc.error.toList ++ (cause.bind Cause.error).toList
  cleanup : w'.cleanup_error.isSome = (w.cleanup_error.isSome || cause.any Cause.is_unclean)
  early : w'.pc.early = true → w.pc.early = true ∧ cause = none
  quiet : w'.pc.quiet = true

theorem Pc.quiet_of_early {pc : Pc} (h : pc.early = true) : pc.quiet = true := by
  cases pc with
  | dropping | returned => cases h
  | _ => rfl

theorem Pc.quiet_of_tells {pc : Pc} (h : pc.tells = true) : pc.quiet = true := by
  cases pc with
  | dropping | returned => cases h
  | _ => rfl

theorem check_cause_stopped {deadline start : Nat} {e : InjectError} (h : check deadline start r = .stopped e) :
    ∃ c, check_cause deadline start r = some c ∧ c.error = some e ∧ c.is_unclean = false := by
  unfold check at h
  unfold check_cause
  split_ifs at h ⊢
  · cases h
    exact ⟨.cancelled, rfl, rfl, rfl⟩
  · cases h
    exact ⟨.timed_out, rfl, rfl, rfl⟩
  · cases h
    exact ⟨.control_lost, rfl, rfl, rfl⟩
  · cases hdelay : r.delay with
    | error message =>
      rw [hdelay] at h
      cases h
      exact ⟨.fault (.Io message), rfl, rfl, rfl⟩
    | ok delay =>
      rw [hdelay] at h
      dsimp only at h
      split at h <;> cases h

theorem check_cause_none {deadline start : Nat} (h : ∀ e, check deadline start r ≠ .stopped e) :
    check_cause deadline start r = none := by
  unfold check at h
  unfold check_cause
  split_ifs at h ⊢
  · exact absurd rfl (h _)
  · exact absurd rfl (h _)
  · exact absurd rfl (h _)
  · cases hdelay : r.delay with
    | error message =>
      rw [hdelay] at h
      exact absurd rfl (h _)
    | ok delay => rfl

/-- A statement that meets nothing. -/
theorem Meets.nothing {w' : Worker} (hpc : w.pc.error = none) (hpc' : w'.pc.error = none)
    (hcleanup : w'.cleanup_error = w.cleanup_error) (hearly : w'.pc.early = false) (hquiet : w'.pc.quiet = true) :
    Meets w w' none where
  error := by rw [hpc, hpc']; rfl
  cleanup := by rw [hcleanup]; exact (Bool.or_false _).symm
  early h := by
    rw [hearly] at h
    cases h
  quiet := hquiet

/-- A statement that stops the run. -/
theorem Meets.stop {w' : Worker} {c : Cause} {e : InjectError} (hc : c.error = some e)
    (hunclean : c.is_unclean = false) (hpc : w.pc.error = none) (hpc' : w'.pc.error = some e)
    (hcleanup : w'.cleanup_error = w.cleanup_error) (hearly : w'.pc.early = false) (hquiet : w'.pc.quiet = true) :
    Meets w w' (some c) where
  error := by rw [hpc, hpc', Option.bind_some, hc]; rfl
  cleanup := by rw [hcleanup, Option.any_some, hunclean, Bool.or_false]
  early h := by
    rw [hearly] at h
    cases h
  quiet := hquiet

/-- A statement that carries an error on. -/
theorem Meets.carry {w' : Worker} (hpc : w'.pc.error = w.pc.error) (hcleanup : w'.cleanup_error = w.cleanup_error)
    (hearly : w'.pc.early = false) (hquiet : w'.pc.quiet = true) : Meets w w' none where
  error := by rw [hpc]; exact (List.append_nil _).symm
  cleanup := by rw [hcleanup]; exact (Bool.or_false _).symm
  early h := by
    rw [hearly] at h
    cases h
  quiet := hquiet

/-- A cleanup that fails. -/
theorem Meets.spoil {w' : Worker} {message : String} (hpc : w'.pc.error = w.pc.error)
    (hcleanup : w'.cleanup_error = some message) (hearly : w'.pc.early = false) (hquiet : w'.pc.quiet = true) :
    Meets w w' (some (.unclean message)) where
  error := by rw [hpc]; exact (List.append_nil _).symm
  cleanup := by rw [hcleanup]; exact (Bool.or_true _).symm
  early h := by
    rw [hearly] at h
    cases h
  quiet := hquiet

theorem passed_pc (w : Worker) (point : CheckPoint) :
    (w.passed point).pc.error = none ∧ (w.passed point).cleanup_error = w.cleanup_error ∧
      (w.passed point).pc.early = false ∧ (w.passed point).pc.quiet = true := by
  cases point with
  | entry =>
    unfold Worker.passed
    dsimp only
    split <;> exact ⟨rfl, rfl, rfl, rfl⟩
  | dwell_end d => cases d <;> exact ⟨rfl, rfl, rfl, rfl⟩
  | _ => exact ⟨rfl, rfl, rfl, rfl⟩

theorem stopped_pc (w : Worker) (e : InjectError) (point : CheckPoint) :
    (w.stopped e point).pc.error = some e ∧ (w.stopped e point).cleanup_error = w.cleanup_error ∧
      (w.stopped e point).pc.early = false ∧ (w.stopped e point).pc.quiet = true := by
  cases point with
  | dwell d stop => cases d <;> exact ⟨rfl, rfl, rfl, rfl⟩
  | dwell_end d => cases d <;> exact ⟨rfl, rfl, rfl, rfl⟩
  | _ => exact ⟨rfl, rfl, rfl, rfl⟩

theorem next_file_pc (w : Worker) (i bytes : Nat) (r : Reading) :
    (w.next_file i bytes r).pc.error = none ∧ (w.next_file i bytes r).cleanup_error = w.cleanup_error ∧
      (w.next_file i bytes r).pc.early = false ∧ (w.next_file i bytes r).pc.quiet = true := by
  unfold Worker.next_file
  split <;> exact ⟨rfl, rfl, rfl, rfl⟩

theorem meets_check {point : CheckPoint} (hpc : w.pc = .checking point) :
    Meets w (w.step r o) (w.cause r o) := by
  have herror : w.pc.error = none := by rw [hpc]; rfl
  have hcause : w.cause r o = check_cause (timeout_ms w.req w.plan) w.start r := by
    rw [Worker.cause, hpc]
  rw [hcause]
  unfold Worker.step
  rw [hpc]
  dsimp only
  cases hcheck : check (timeout_ms w.req w.plan) w.start r with
  | again =>
    rw [check_cause_none (fun e => by rw [hcheck]; exact CheckResult.noConfusion)]
    exact .nothing herror herror rfl (by rw [hpc]; rfl) (by rw [hpc]; rfl)
  | passed =>
    obtain ⟨herror', hcleanup, hearly, hquiet⟩ := passed_pc w point
    rw [check_cause_none (fun e => by rw [hcheck]; exact CheckResult.noConfusion)]
    exact .nothing herror herror' hcleanup hearly hquiet
  | stopped e =>
    obtain ⟨herror', hcleanup, hearly, hquiet⟩ := stopped_pc w e point
    obtain ⟨c, hc, hstop, hunclean⟩ := check_cause_stopped hcheck
    rw [hc]
    exact .stop hstop hunclean herror herror' hcleanup hearly hquiet

theorem meets_revert {waited : Except InjectError Unit} (hpc : w.pc = .reverting waited) :
    Meets w (w.step r o) (w.cause r o) := by
  unfold Worker.step Worker.cause Worker.revert
  rw [hpc]
  cases hsession : w.session with
  | none => cases waited <;> exact .carry (by rw [hpc]; rfl) rfl rfl rfl
  | some handle =>
    cases o.revert with
    | ok _ => cases waited <;> exact .carry (by rw [hpc]; rfl) rfl rfl rfl
    | error e => cases waited <;> exact .spoil (by rw [hpc]; rfl) rfl rfl rfl

theorem meets_clean {waited : Except InjectError Unit} {injected : Except InjectError Report}
    (hpc : w.pc = .cleaning waited injected) : Meets w (w.step r o) (w.cause r o) := by
  have hcarried (pc : Pc) (hwaited : pc = .leaving (waited.bind fun _ => injected)) : pc.error = w.pc.error := by
    rw [hwaited, hpc]
    cases waited with
    | error e => rfl
    | ok _ => cases injected <;> rfl
  unfold Worker.step Worker.cause Worker.clean_injector
  rw [hpc]
  cases o.cleaned with
  | ok _ => cases waited <;> exact .carry (hcarried _ rfl) rfl rfl rfl
  | error e => cases waited <;> exact .spoil (hcarried _ rfl) rfl rfl rfl

theorem meets_remove {result : Except InjectError Report} (hpc : w.pc = .removing result) :
    Meets w (w.step r o) (w.cause r o) := by
  have hcarried : (Pc.settling result).error = w.pc.error := by
    rw [hpc]
    cases result <;> rfl
  unfold Worker.step Worker.cause
  rw [hpc]
  dsimp only
  cases w.remove_dir_all o with
  | ok _ => exact .carry hcarried rfl rfl rfl
  | error e => exact .spoil hcarried rfl rfl rfl

/-- Every statement but the last ones. -/
theorem Worker.step_meets (hquiet : w.pc.quiet = true) (htells : w.pc.tells = false) :
    Meets w (w.step r o) (w.cause r o) := by
  cases hpc : w.pc with
  | rejecting | reporting =>
    rw [hpc] at htells
    cases htells
  | dropping | returned =>
    rw [hpc] at hquiet
    cases hquiet
  | checking point => exact meets_check hpc
  | reverting waited => exact meets_revert hpc
  | cleaning waited injected => exact meets_clean hpc
  | removing result => exact meets_remove hpc
  | starting =>
    unfold Worker.step Worker.cause
    rw [hpc]
    exact ⟨by rw [hpc]; rfl, (Bool.or_false _).symm, fun _ => ⟨by rw [hpc]; rfl, rfl⟩, rfl⟩
  | creating =>
    unfold Worker.step Worker.cause
    rw [hpc]
    dsimp only
    split
    · exact ⟨by rw [hpc]; rfl, (Bool.or_false _).symm, fun _ => ⟨by rw [hpc]; rfl, rfl⟩, rfl⟩
    · exact .nothing (by rw [hpc]; rfl) rfl rfl rfl rfl
  | arming | injecting =>
    unfold Worker.step Worker.cause
    rw [hpc]
    exact .nothing (by rw [hpc]; rfl) rfl rfl rfl rfl
  | leaving result | settling result =>
    unfold Worker.step Worker.cause
    rw [hpc]
    refine .carry ?_ rfl rfl rfl
    rw [hpc]
    cases result <;> rfl
  | waiting d stop =>
    unfold Worker.step Worker.cause
    rw [hpc]
    dsimp only
    split <;> exact .nothing (by rw [hpc]; rfl) rfl rfl rfl rfl
  | pausing i bytes stop =>
    obtain ⟨herror, hcleanup, hearly, hquiet'⟩ := next_file_pc w (i + 1) bytes r
    unfold Worker.step Worker.cause
    rw [hpc]
    dsimp only
    split
    · exact .nothing (by rw [hpc]; rfl) rfl rfl rfl rfl
    · exact .nothing (by rw [hpc]; rfl) herror hcleanup hearly hquiet'
  | making_dir =>
    obtain ⟨herror, hcleanup, hearly, hquiet'⟩ := next_file_pc w 0 0 r
    unfold Worker.step Worker.cause
    rw [hpc]
    dsimp only
    cases o.file with
    | error e => exact .stop rfl rfl (by rw [hpc]; rfl) rfl rfl rfl rfl
    | ok _ => exact .nothing (by rw [hpc]; rfl) herror hcleanup hearly hquiet'
  | writing i bytes =>
    unfold Worker.step Worker.cause
    rw [hpc]
    dsimp only
    cases o.file with
    | error e => exact .stop rfl rfl (by rw [hpc]; rfl) rfl rfl rfl rfl
    | ok _ => exact .nothing (by rw [hpc]; rfl) rfl rfl rfl rfl
  | session =>
    unfold Worker.step Worker.cause
    rw [hpc]
    dsimp only
    cases (net_chaos_spec w.plan).start o.apply with
    | error e => exact .stop rfl rfl (by rw [hpc]; rfl) rfl rfl rfl rfl
    | ok _ => exact .nothing (by rw [hpc]; rfl) rfl rfl rfl rfl
  | injection =>
    unfold Worker.step Worker.cause
    rw [hpc]
    dsimp only
    cases o.injected with
    | error e => exact .stop rfl rfl (by rw [hpc]; rfl) rfl rfl rfl rfl
    | ok _ => exact .nothing (by rw [hpc]; rfl) rfl rfl rfl rfl
  | making_canary | making_injector =>
    unfold Worker.step Worker.cause
    rw [hpc]
    dsimp only
    cases make_injector w.sandbox.path with
    | error e => exact .stop rfl rfl (by rw [hpc]; rfl) rfl rfl rfl rfl
    | ok _ => exact .nothing (by rw [hpc]; rfl) rfl rfl rfl rfl

/-- The readings of a run bear a cause out. -/
def Cause.Real (w : Worker) (seen : List (Reading × Outcome)) : Cause → Prop
  | .cancelled => ∃ s ∈ seen, s.1.cancelled = true ∨ s.1.closed = true
  | .timed_out => ∃ s ∈ seen, timeout_ms w.req w.plan ≤ s.1.now - w.start
  | .control_lost => ∃ s ∈ seen, LEASE ≤ s.1.now - s.1.heartbeat
  | .fault _ | .unclean _ => True

/-- A terminal event, and what the run had met. -/
inductive Ending (ev : RunnerEvent) (causes : List Cause) : Prop
  | rejected (kind : ev.kind = EventKind.Rejected.number) (state : ev.state = "REJECTED") (causes : causes = [])
  | reported (cleanup_error : Option String) (result : Except InjectError Report)
      (kind : ev.kind = (terminal cleanup_error result).1.number)
      (state : ev.state = (terminal cleanup_error result).2.1)
      (error : causes.filterMap Cause.error = (Pc.reporting result).error.toList)
      (cleanup : cleanup_error.isSome = causes.any Cause.is_unclean)

/-- What the state of a call says about everything it has met. -/
structure Explained (w : Worker) (seen : List (Reading × Outcome)) (causes : List Cause) : Prop where
  real : ∀ c ∈ causes, c.Real w seen
  early : w.pc.early = true → causes = []
  error : w.pc.quiet = true → causes.filterMap Cause.error = w.pc.error.toList
  cleanup : w.pc.quiet = true → w.cleanup_error.isSome = causes.any Cause.is_unclean
  told : w.pc.quiet = false → ∀ ev ∈ w.events, RunnerEvent.ends ev = true → Ending ev causes

variable {seen : List (Reading × Outcome)} {causes : List Cause} {c : Cause}

theorem Cause.Real.later (h : c.Real w seen) {w' : Worker} {seen' : List (Reading × Outcome)} (hfixed : Fixed w w')
    (hseen : ∀ s ∈ seen, s ∈ seen') : c.Real w' seen' := by
  cases c with
  | cancelled =>
    obtain ⟨s, hs, hread⟩ := h
    exact ⟨s, hseen s hs, hread⟩
  | timed_out =>
    obtain ⟨s, hs, hread⟩ := h
    refine ⟨s, hseen s hs, ?_⟩
    rwa [hfixed.req, hfixed.plan, hfixed.start]
  | control_lost =>
    obtain ⟨s, hs, hread⟩ := h
    exact ⟨s, hseen s hs, hread⟩
  | fault e => trivial
  | unclean message => trivial

theorem check_cause_real (h : check_cause (timeout_ms w.req w.plan) w.start r = some c) (hs : (r, o) ∈ seen) :
    c.Real w seen := by
  unfold check_cause at h
  split at h
  · obtain rfl := Option.some.inj h
    exact ⟨(r, o), hs, Bool.or_eq_true _ _ ▸ ‹_›⟩
  · split at h
    · obtain rfl := Option.some.inj h
      exact ⟨(r, o), hs, ‹_›⟩
    · split at h
      · obtain rfl := Option.some.inj h
        exact ⟨(r, o), hs, ‹_›⟩
      · split at h
        · obtain rfl := Option.some.inj h
          trivial
        · cases h

theorem cause_real (h : w.cause r o = some c) (hs : (r, o) ∈ seen) : c.Real w seen := by
  unfold Worker.cause at h
  split at h
  · exact check_cause_real h hs
  all_goals
    first
    | cases h
    | (split at h <;> cases h; trivial)

theorem Explained.spawn (backend : String) (req : ExecuteRequest) (plan : ExecutionPlan) :
    Explained (Worker.spawn backend req plan) [] [] where
  real c hc := absurd hc List.not_mem_nil
  early _ := rfl
  error _ := rfl
  cleanup _ := rfl
  told h := by cases h

theorem fixed_or_early (w : Worker) (r : Reading) (o : Outcome) : Fixed w (w.step r o) ∨ w.pc.early = true := by
  cases hpc : w.pc with
  | starting => exact Or.inr rfl
  | _ => exact Or.inl (fixed_step (by rw [hpc]; exact Pc.noConfusion))

theorem cause_none (hpc : w.pc.early = true ∨ w.pc.tells = true) : w.cause r o = none := by
  unfold Worker.cause
  cases h : w.pc with
  | starting | creating | rejecting | reporting => rfl
  | _ => simp [h, Pc.early, Pc.tells] at hpc

/-- What has been met stays real, and so is what a statement meets. -/
theorem Explained.real_step (h : Explained w seen causes) :
    ∀ c ∈ causes ++ (w.cause r o).toList, c.Real (w.step r o) (seen ++ [(r, o)]) := by
  obtain hfixed | hearly := fixed_or_early w r o
  · intro c hc
    obtain hc | hc := List.mem_append.mp hc
    · exact (h.real c hc).later hfixed fun s hs => List.mem_append_left _ hs
    · have hc := Option.mem_toList.mp hc
      exact (cause_real hc (List.mem_append_right seen (List.mem_singleton_self (r, o)))).later hfixed fun s hs => hs
  · rw [h.early hearly, cause_none (Or.inl hearly)]
    exact fun c hc => absurd hc List.not_mem_nil

theorem Explained.go (h : Explained w seen causes) (hquiet : w.pc.quiet = true) (htells : w.pc.tells = false) :
    Explained (w.step r o) (seen ++ [(r, o)]) (causes ++ (w.cause r o).toList) := by
  have hmeets := Worker.step_meets (r := r) (o := o) hquiet htells
  refine ⟨h.real_step, fun hearly => ?_, fun _ => ?_, fun _ => ?_, fun hquiet' => ?_⟩
  · obtain ⟨hearly, hnone⟩ := hmeets.early hearly
    rw [h.early hearly, hnone]
    rfl
  · rw [List.filterMap_append, h.error hquiet, hmeets.error]
    cases w.cause r o with
    | none => rfl
    | some c => cases hc : c.error <;> simp [hc]
  · rw [List.any_append, ← h.cleanup hquiet, hmeets.cleanup]
    cases w.cause r o with
    | none => rfl
    | some c => simp
  · rw [hmeets.quiet] at hquiet'
    cases hquiet'

/-- Once the terminal event has been sent nothing is added. -/
theorem Explained.rest (h : Explained w seen causes) (w' : Worker) (hquiet : w.pc.quiet = false)
    (hcause : w.cause r o = none) (hstep : w.step r o = w') (hevents : w'.events = w.events)
    (hquiet' : w'.pc.quiet = false) : Explained (w.step r o) (seen ++ [(r, o)]) (causes ++ (w.cause r o).toList) := by
  have hreal := h.real_step (r := r) (o := o)
  rw [hcause] at hreal ⊢
  rw [Option.toList_none, List.append_nil] at hreal ⊢
  subst hstep
  refine ⟨hreal, fun hearly => ?_, fun hquiet'' => ?_, fun hquiet'' => ?_, fun _ ev hev => ?_⟩
  · rw [Pc.quiet_of_early hearly] at hquiet'
    cases hquiet'
  · rw [hquiet'] at hquiet''
    cases hquiet''
  · rw [hquiet'] at hquiet''
    cases hquiet''
  · rw [hevents] at hev
    exact h.told hquiet ev hev

theorem Explained.tell (h : Explained w seen causes) (hsound : Sound w) (htells : w.pc.tells = true) :
    Explained (w.step r o) (seen ++ [(r, o)]) (causes ++ (w.cause r o).toList) := by
  have hreal := h.real_step (r := r) (o := o)
  have hquiet := Pc.quiet_of_tells htells
  have hcause := cause_none (r := r) (o := o) (Or.inr htells)
  have hsilent {ev : RunnerEvent} (hev : ev ∈ w.events) (hends : RunnerEvent.ends ev = true) {p : Prop} : p := by
    rw [hsound.quiet hquiet ev hev] at hends
    cases hends
  rw [hcause] at hreal ⊢
  rw [Option.toList_none, List.append_nil] at hreal ⊢
  cases hpc : w.pc with
  | rejecting message =>
    have hearly := h.early (by rw [hpc]; rfl)
    unfold Worker.step at hreal ⊢
    rw [hpc] at hreal ⊢
    refine ⟨hreal, fun _ => hearly, (fun hquiet' => by cases hquiet'), (fun hquiet' => by cases hquiet'),
      fun _ ev hev hends => ?_⟩
    obtain hev | hev := List.mem_append.mp hev
    · exact hsilent hev hends
    · obtain rfl := List.mem_singleton.mp hev
      exact .rejected rfl rfl hearly
  | reporting result =>
    have herror := h.error hquiet
    have hcleanup := h.cleanup hquiet
    rw [hpc] at herror
    unfold Worker.step at hreal ⊢
    rw [hpc] at hreal ⊢
    refine ⟨hreal, (fun hearly => by cases hearly), (fun hquiet' => by cases hquiet'),
      (fun hquiet' => by cases hquiet'), fun _ ev hev hends => ?_⟩
    obtain hev | hev := List.mem_append.mp hev
    · exact hsilent hev hends
    · obtain rfl := List.mem_singleton.mp hev
      exact .reported w.cleanup_error result rfl rfl herror hcleanup
  | _ =>
    rw [hpc] at htells
    cases htells

theorem Explained.step (h : Explained w seen causes) (hsound : Sound w) :
    Explained (w.step r o) (seen ++ [(r, o)]) (causes ++ (w.cause r o).toList) := by
  cases htells : w.pc.tells with
  | true => exact h.tell hsound htells
  | false =>
    cases hquiet : w.pc.quiet with
    | true => exact h.go hquiet htells
    | false =>
      cases hpc : w.pc with
      | dropping cleaned =>
        refine h.rest { w.cleanup o with pc := .returned cleaned } hquiet ?_ ?_ rfl rfl
        · rw [Worker.cause, hpc]
        · rw [Worker.step, hpc]
      | returned cleaned =>
        refine h.rest w hquiet ?_ ?_ rfl hquiet
        · rw [Worker.cause, hpc]
        · rw [Worker.step, hpc]
      | _ =>
        rw [hpc] at hquiet
        cases hquiet

/-- A whole call is explained by what it has met. -/
theorem Explained.run (h : Explained w seen causes) (hsound : Sound w) (steps : List (Reading × Outcome)) :
    Explained (w.run steps) (seen ++ steps) (causes ++ w.causes steps) := by
  induction steps generalizing w seen causes with
  | nil =>
    rw [List.append_nil]
    exact (List.append_nil causes).symm ▸ h
  | cons step rest ih =>
    have hrest := ih (h.step (r := step.1) (o := step.2) hsound) hsound.step
    rw [List.append_assoc, List.append_assoc] at hrest
    exact hrest

/-- An injector, sandbox or network call of the run has failed. -/
def Cause.is_failure : Cause → Bool
  | .fault _ | .unclean _ => true
  | _ => false

/-- The terminal event names the reason the run stopped for. -/
structure TrueReason (w : Worker) (seen : List (Reading × Outcome)) (causes : List Cause) (ev : RunnerEvent) :
    Prop where
  cancelled : ev.kind = EventKind.Cancelled.number → ∃ s ∈ seen, s.1.cancelled = true ∨ s.1.closed = true
  timed_out : ev.kind = EventKind.TimedOut.number → ∃ s ∈ seen, timeout_ms w.req w.plan ≤ s.1.now - w.start
  control_lost : ev.state = "CONTROL_LOST" → ∃ s ∈ seen, LEASE ≤ s.1.now - s.1.heartbeat
  failed : causes.any Cause.is_failure = true →
    ev.kind = EventKind.Failed.number ∧ (ev.state = "FAILED" ∨ ev.state = "CLEANUP_FAILED")

/-- No failure that stops the run carries a reason in its text, unless a cleanup
fails as well. -/
def Plain (causes : List Cause) : Prop :=
  (∀ e, .fault e ∈ causes → e.marked = false) ∨ ∃ message, .unclean message ∈ causes

theorem number_injective {kind kind' : EventKind} (h : kind.number = kind'.number) : kind = kind' := by
  have hkind := EventKind.try_from_number kind
  rw [h, EventKind.try_from_number] at hkind
  exact (Option.some.inj hkind).symm

theorem terminal_error (e : InjectError) : terminal none (.error e) =
    if e.carries "CANCELLED" then (.Cancelled, "CANCELLED", e.display, report0)
    else if e.carries "TIMED_OUT" then (.TimedOut, "TIMED_OUT", e.display, report0)
    else if e.carries "CONTROL_LOST" then (.Failed, "CONTROL_LOST", e.display, report0)
    else (.Failed, "FAILED", e.display, report0) :=
  rfl

theorem marked_eq (e : InjectError) :
    e.marked = (e.carries "CANCELLED" || (e.carries "TIMED_OUT" || (e.carries "CONTROL_LOST" || false))) :=
  rfl

theorem terminal_plain {e : InjectError} (h : e.marked = false) :
    terminal none (.error e) = (.Failed, "FAILED", e.display, report0) := by
  rw [marked_eq, Bool.or_eq_false_iff, Bool.or_eq_false_iff, Bool.or_eq_false_iff] at h
  obtain ⟨hcancelled, htimed_out, hcontrol_lost, -⟩ := h
  rw [terminal_error, hcancelled, htimed_out, hcontrol_lost]
  rfl

/-- A failure whose text carries a reason is reported under it. -/
theorem terminal_marked {e : InjectError} (h : e.marked = true) :
    (terminal none (.error e)).1 ≠ .Failed ∨ (terminal none (.error e)).2.1 = "CONTROL_LOST" := by
  rw [marked_eq] at h
  rw [terminal_error]
  cases hcancelled : e.carries "CANCELLED" with
  | true => exact Or.inl EventKind.noConfusion
  | false =>
    cases htimed_out : e.carries "TIMED_OUT" with
    | true => exact Or.inl EventKind.noConfusion
    | false =>
      cases hcontrol_lost : e.carries "CONTROL_LOST" with
      | true => exact Or.inr rfl
      | false =>
        rw [hcancelled, htimed_out, hcontrol_lost] at h
        cases h

theorem terminal_cancelled : (terminal none (.error (.Io "CANCELLED"))).1 = .Cancelled ∧
    (terminal none (.error (.Io "CANCELLED"))).2.1 = "CANCELLED" := by
  decide

theorem terminal_timed_out : (terminal none (.error (.Io "TIMED_OUT"))).1 = .TimedOut ∧
    (terminal none (.error (.Io "TIMED_OUT"))).2.1 = "TIMED_OUT" := by
  decide

theorem terminal_control_lost : (terminal none (.error (.Io "CONTROL_LOST"))).1 = .Failed ∧
    (terminal none (.error (.Io "CONTROL_LOST"))).2.1 = "CONTROL_LOST" := by
  decide

/-- A run is stopped once. -/
theorem stopped_once {e : InjectError} (h : causes.filterMap Cause.error = [e]) (hc : c ∈ causes)
    (herror : c.error = some e) {c' : Cause} (hc' : c' ∈ causes) (herror' : c'.error ≠ none) : c' = c := by
  obtain ⟨before, after, rfl⟩ := List.append_of_mem hc
  rw [List.filterMap_append, List.filterMap_cons_some herror] at h
  have hlength := congrArg List.length h
  simp only [List.length_append, List.length_cons, List.length_nil] at hlength
  have hnone (l : List Cause) (hl : (l.filterMap Cause.error).length = 0) (hmem : c' ∈ l) : c' = c :=
    absurd (List.filterMap_eq_nil_iff.mp (List.eq_nil_of_length_eq_zero hl) c' hmem) herror'
  obtain hmem | hmem := List.mem_append.mp hc'
  · exact hnone before (by omega) hmem
  · obtain rfl | hmem := List.mem_cons.mp hmem
    · rfl
    · exact hnone after (by omega) hmem

theorem no_failure (hstops : ∀ c' ∈ causes, c'.error ≠ none → c' = c) (hc : c.is_failure = false)
    (hclean : causes.any Cause.is_unclean = false) : causes.any Cause.is_failure = false := by
  rw [List.any_eq_false] at hclean ⊢
  intro c' hc' hfailure
  cases c' with
  | fault e =>
    rw [← hstops _ hc' (by simp [Cause.error])] at hc
    cases hc
  | unclean message => exact hclean _ hc' rfl
  | _ => cases hfailure

/-- A terminal event of another kind. -/
theorem TrueReason.of_kind {ev : RunnerEvent} {kind : EventKind} {state : String} (hkind : ev.kind = kind.number)
    (hstate : ev.state = state) (hcancelled : kind ≠ .Cancelled) (htimed_out : kind ≠ .TimedOut)
    (hlost : state ≠ "CONTROL_LOST")
    (hfailed : causes.any Cause.is_failure = true →
      kind = .Failed ∧ (state = "FAILED" ∨ state = "CLEANUP_FAILED")) : TrueReason w seen causes ev where
  cancelled h := absurd (number_injective (hkind.symm.trans h)) hcancelled
  timed_out h := absurd (number_injective (hkind.symm.trans h)) htimed_out
  control_lost h := absurd (hstate.symm.trans h) hlost
  failed h := by
    obtain ⟨rfl, hnamed⟩ := hfailed h
    rw [hstate]
    exact ⟨hkind, hnamed⟩

/-- The end of a run that was stopped. -/
theorem true_reason_stopped {ev : RunnerEvent} {e : InjectError}
    (hkind : ev.kind = (terminal none (.error e)).1.number) (hstate : ev.state = (terminal none (.error e)).2.1)
    (herror : causes.filterMap Cause.error = [e]) (hclean : causes.any Cause.is_unclean = false)
    (hreal : ∀ c ∈ causes, c.Real w seen) : TrueReason w seen causes ev ↔ Plain causes := by
  obtain ⟨c, hc, hce⟩ : ∃ c ∈ causes, c.error = some e :=
    List.mem_filterMap.mp (herror.symm ▸ List.mem_singleton_self e)
  have honce (c' : Cause) (hc' : c' ∈ causes) (hne : c'.error ≠ none) : c' = c :=
    stopped_once herror hc hce hc' hne
  have hquiet (hsilent : c.is_failure = false) : causes.any Cause.is_failure = false ∧ Plain causes := by
    refine ⟨no_failure honce hsilent hclean, Or.inl fun e' he' => ?_⟩
    rw [← honce _ he' (by simp [Cause.error])] at hsilent
    cases hsilent
  have hreal := hreal c hc
  cases c with
  | cancelled =>
    obtain ⟨hnone, hplain⟩ := hquiet rfl
    obtain rfl := Option.some.inj hce
    rw [terminal_cancelled.1] at hkind
    rw [terminal_cancelled.2] at hstate
    refine iff_of_true ⟨fun _ => hreal, fun htimed_out => ?_, fun hlost => ?_, fun hfailed => ?_⟩ hplain
    · cases number_injective (hkind.symm.trans htimed_out)
    · exact absurd (hstate.symm.trans hlost) (by decide)
    · rw [hnone] at hfailed
      cases hfailed
  | timed_out =>
    obtain ⟨hnone, hplain⟩ := hquiet rfl
    obtain rfl := Option.some.inj hce
    rw [terminal_timed_out.1] at hkind
    rw [terminal_timed_out.2] at hstate
    refine iff_of_true ⟨fun hcancelled => ?_, fun _ => hreal, fun hlost => ?_, fun hfailed => ?_⟩ hplain
    · cases number_injective (hkind.symm.trans hcancelled)
    · exact absurd (hstate.symm.trans hlost) (by decide)
    · rw [hnone] at hfailed
      cases hfailed
  | control_lost =>
    obtain ⟨hnone, hplain⟩ := hquiet rfl
    obtain rfl := Option.some.inj hce
    rw [terminal_control_lost.1] at hkind
    refine iff_of_true ⟨fun hcancelled => ?_, fun htimed_out => ?_, fun _ => hreal, fun hfailed => ?_⟩ hplain
    · cases number_injective (hkind.symm.trans hcancelled)
    · cases number_injective (hkind.symm.trans htimed_out)
    · rw [hnone] at hfailed
      cases hfailed
  | fault e' =>
    obtain rfl := Option.some.inj hce
    cases hmarked : e'.marked with
    | false =>
      rw [terminal_plain hmarked] at hkind hstate
      have hstate : ev.state = "FAILED" := hstate
      refine iff_of_true (.of_kind hkind hstate EventKind.noConfusion EventKind.noConfusion (by decide)
        fun _ => ⟨rfl, Or.inl rfl⟩) (Or.inl fun e he => ?_)
      cases honce _ he (by simp [Cause.error])
      exact hmarked
    | true =>
      refine iff_of_false (fun htrue => ?_) ?_
      · obtain ⟨hfailed, hnamed⟩ := htrue.failed (List.any_eq_true.mpr ⟨_, hc, rfl⟩)
        obtain hne | hlost := terminal_marked hmarked
        · exact hne (number_injective (hkind.symm.trans hfailed))
        · rw [hstate, hlost] at hnamed
          exact absurd hnamed (by decide)
      · rintro (hplain | ⟨message, hunclean⟩)
        · rw [hplain _ hc] at hmarked
          cases hmarked
        · exact List.any_eq_false.mp hclean _ hunclean rfl
  | unclean message => cases hce

theorem Ending.true_reason_iff {ev : RunnerEvent} (h : Ending ev causes) (hreal : ∀ c ∈ causes, c.Real w seen) :
    TrueReason w seen causes ev ↔ Plain causes := by
  cases h with
  | rejected hkind hstate hcauses =>
    subst hcauses
    exact iff_of_true (.of_kind hkind hstate EventKind.noConfusion EventKind.noConfusion (by decide)
      fun h => by cases h) (Or.inl fun e he => absurd he List.not_mem_nil)
  | reported cleanup_error result hkind hstate herror hcleanup =>
    cases cleanup_error with
    | some message =>
      obtain ⟨c, hc, hunclean⟩ := List.any_eq_true.mp hcleanup.symm
      have hstate : ev.state = "CLEANUP_FAILED" := hstate
      refine iff_of_true (.of_kind hkind hstate EventKind.noConfusion EventKind.noConfusion (by decide)
        fun _ => ⟨rfl, Or.inr rfl⟩) (Or.inr ?_)
      cases c with
      | unclean message => exact ⟨message, hc⟩
      | _ => cases hunclean
    | none =>
      cases result with
      | error e => exact true_reason_stopped hkind hstate herror hcleanup.symm hreal
      | ok report =>
        have hnone := List.filterMap_eq_nil_iff.mp herror
        have hfault {e : InjectError} (he : .fault e ∈ causes) {p : Prop} : p := by
          cases hnone _ he
        have hstate : ev.state = "COMPLETED" := hstate
        refine iff_of_true (.of_kind hkind hstate EventKind.noConfusion EventKind.noConfusion (by decide)
          fun hfailed => ?_) (Or.inl fun e he => hfault he)
        obtain ⟨c, hc, hfailure⟩ := List.any_eq_true.mp hfailed
        cases c with
        | fault e => exact hfault hc
        | unclean message => exact absurd rfl (List.any_eq_false.mp hcleanup.symm _ hc)
        | _ => cases hfailure

/-- A call that has ended names the true reason if and only if no failure that
stopped it carries a reason in its text. -/
theorem terminal_reason (backend : String) (req : ExecuteRequest) (plan : ExecutionPlan)
    (steps : List (Reading × Outcome)) (hended : ((Worker.spawn backend req plan).run steps).pc.quiet = false) :
    (∀ ev ∈ ((Worker.spawn backend req plan).run steps).events, RunnerEvent.ends ev = true →
      TrueReason ((Worker.spawn backend req plan).run steps) steps ((Worker.spawn backend req plan).causes steps) ev) ↔
      Plain ((Worker.spawn backend req plan).causes steps) := by
  have hsound := Sound.spawn backend req plan
  have hexplained := (Explained.spawn backend req plan).run hsound steps
  rw [List.nil_append, List.nil_append] at hexplained
  have hiff {ev : RunnerEvent} (hev : ev ∈ ((Worker.spawn backend req plan).run steps).events)
      (hends : RunnerEvent.ends ev = true) := (hexplained.told hended ev hev hends).true_reason_iff hexplained.real
  constructor
  · intro htrue
    obtain ⟨front, ending, hevents, -, htruthful⟩ := (hsound.run steps).reported hended
    have hmem : ending ∈ ((Worker.spawn backend req plan).run steps).events := by
      rw [hevents]
      exact List.mem_append_right front (List.mem_singleton_self ending)
    exact (hiff hmem htruthful.ends).mp (htrue ending hmem htruthful.ends)
  · exact fun hplain ev hev hends => (hiff hev hends).mpr hplain

/-- A watchdog probe on a full disk. -/
def full_disk_steps : List (Reading × Outcome) :=
  prefix_of (fun m => (calm_reading m, { calm_outcome (.ok ()) with injected := .error (.Io "disk full") })) 13

theorem full_disk_reported :
    (Worker.spawn "sim" (watchdog_request "run_1") watchdog_plan).causes full_disk_steps = [.fault (.Io "disk full")] ∧
    ∀ ev ∈ ((Worker.spawn "sim" (watchdog_request "run_1") watchdog_plan).run full_disk_steps).events,
      RunnerEvent.ends ev = true →
      TrueReason ((Worker.spawn "sim" (watchdog_request "run_1") watchdog_plan).run full_disk_steps) full_disk_steps
        ((Worker.spawn "sim" (watchdog_request "run_1") watchdog_plan).causes full_disk_steps) ev := by
  have hcauses : (Worker.spawn "sim" (watchdog_request "run_1") watchdog_plan).causes full_disk_steps =
      [.fault (.Io "disk full")] := rfl
  refine ⟨hcauses, (terminal_reason "sim" (watchdog_request "run_1") watchdog_plan full_disk_steps rfl).mpr (Or.inl ?_)⟩
  rw [hcauses]
  intro e he
  cases List.mem_singleton.mp he
  decide +kernel

/-- An interface that is called after the reason. -/
def misnamed : String := "CANCELLED"

def misnamed_serde : Serde where
  from_str text :=
    if text = (latency_text misnamed).toList then .ok (latency_manifest misnamed) else .error "expected value"
  from_value _ := .error "expected value"
  parse_f64 _ := none

def misnamed_request : ExecuteRequest where
  scenario_id := "LATENCY_PROBE"
  manifest := Utf8.encode (latency_text misnamed).toList
  signature := default_signature
  public_key := default_key
  target_dir := "/tmp/asmodeus-canary"
  file_count := 20
  chunk_size_kb := 64
  run_id := "run_1"
  timeout_sec := 60

theorem misnamed_manifest_facts : validate_manifest (latency_manifest misnamed) = .ok () ∧
    ExecutionPlan.from_manifest (latency_manifest misnamed) = .ok (latency_plan misnamed) := by
  decide +kernel

theorem misnamed_validated :
    validate default_is_valid misnamed_serde (some default_key) misnamed_request = .ok (latency_plan misnamed) := by
  obtain ⟨hvalid, hplan⟩ := misnamed_manifest_facts
  obtain ⟨-, hopen, hclose⟩ := latency_text_facts misnamed
  have hmanifest : misnamed_request.manifest = Utf8.encode (latency_text misnamed).toList := by
    simp only [misnamed_request]
  have htext := (congrArg Utf8.decode hmanifest).trans (Utf8.decode_encode _)
  have hparsed : parse_and_validate_manifest misnamed_serde (String.ofList (latency_text misnamed).toList) =
      .ok (latency_manifest misnamed) := by
    rw [String.ofList_toList]
    exact parsed_json hopen hclose (by simp only [misnamed_serde, if_true]) hvalid
  have htimeout : misnamed_request.timeout_sec ≤ (latency_plan misnamed).max_duration_sec := UInt32.le_refl _
  exact Validated.accepted ⟨rfl, decide_eq_true ⟨rfl, rfl⟩, ⟨_, _, htext, hparsed, hplan, rfl⟩, rfl, rfl, rfl,
    ⟨by decide, by decide, by decide⟩, htimeout⟩

def calm_steps : List (Reading × Outcome) := prefix_of (fun m => (calm_reading m, calm_outcome (.ok ()))) 11

/-- The runner refuses the interface, and reports a cancellation nobody asked for. -/
theorem misnamed_interface_cancelled :
    validate default_is_valid misnamed_serde (some default_key) misnamed_request = .ok (latency_plan misnamed) ∧
    (∀ s ∈ calm_steps, s.1.cancelled = false ∧ s.1.closed = false) ∧
    ∃ ev ∈ ((Worker.spawn "sim" misnamed_request (latency_plan misnamed)).run calm_steps).events,
      RunnerEvent.ends ev = true ∧ ev.kind = EventKind.Cancelled.number ∧
      ¬ TrueReason ((Worker.spawn "sim" misnamed_request (latency_plan misnamed)).run calm_steps) calm_steps
        ((Worker.spawn "sim" misnamed_request (latency_plan misnamed)).causes calm_steps) ev := by
  have hcalm : ∀ s ∈ calm_steps, s.1.cancelled = false ∧ s.1.closed = false := by
    intro s hs
    obtain ⟨m, -, rfl⟩ := List.mem_map.mp hs
    exact ⟨rfl, rfl⟩
  obtain ⟨ending, hmem, hends, hkind⟩ :
      ∃ ev ∈ ((Worker.spawn "sim" misnamed_request (latency_plan misnamed)).run calm_steps).events,
        RunnerEvent.ends ev = true ∧ ev.kind = EventKind.Cancelled.number := by
    decide +kernel
  refine ⟨misnamed_validated, hcalm, ending, hmem, hends, hkind, fun htrue => ?_⟩
  obtain ⟨s, hs, hread⟩ := htrue.cancelled hkind
  obtain ⟨hcancelled, hclosed⟩ := hcalm s hs
  rw [hcancelled, hclosed] at hread
  exact absurd hread (by decide)

end asmodeus.runner
