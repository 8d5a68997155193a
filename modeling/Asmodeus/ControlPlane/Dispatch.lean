import Asmodeus.Common.Io

namespace asmodeus.control_plane

/-- The kinds of event a runner streams back. -/
inductive EventKind
  | Unspecified
  | StateChanged
  | Completed
  | Rejected
  | Cancelled
  | Failed
  | TimedOut
  deriving DecidableEq

/-- The wire number of a kind. -/
def EventKind.number : EventKind → Int
  | .Unspecified => 0
  | .StateChanged => 1
  | .Completed => 2
  | .Rejected => 3
  | .Cancelled => 4
  | .Failed => 5
  | .TimedOut => 6

/-- `EventKind::try_from`: a number no kind has is not a kind. -/
def EventKind.try_from (number : Int) : Option EventKind :=
  [EventKind.Unspecified, .StateChanged, .Completed, .Rejected, .Cancelled, .Failed, .TimedOut].find?
    fun kind => kind.number == number

/-- The kinds that end the stream. -/
def EventKind.ends : EventKind → Bool
  | .Completed | .Cancelled | .Failed | .TimedOut | .Rejected => true
  | .Unspecified | .StateChanged => false

structure RunnerEvent where
  kind : Int
  state : String
  files_created : UInt32
  bytes_written : UInt64
  inject_ms : UInt64
  detail : String
  run_id : String
  cleanup_confirmed : Bool
  simulated : Bool
  deriving DecidableEq

/-- The event carries one of the kinds that end the stream. -/
def RunnerEvent.ends (ev : RunnerEvent) : Bool := (EventKind.try_from ev.kind).any EventKind.ends

/-- The gRPC status codes the dispatch raises or inspects. -/
inductive Code
  | NotFound
  | DataLoss
  | Unavailable
  | DeadlineExceeded
  | Internal
  | Unknown
  deriving DecidableEq

structure Status where
  code : Code
  message : String
  deriving DecidableEq

/-- Folded result of a runner's event stream. -/
structure DispatchOutcome where
  final_state : String
  files_created : UInt32
  bytes_written : UInt64
  inject_ms : UInt64
  completed : Bool
  terminal : Bool
  simulated : Bool
  cleanup_confirmed : Bool
  detail : String
  rejected : Option String
  deriving DecidableEq

def DispatchOutcome.default : DispatchOutcome := ⟨"", 0, 0, 0, false, false, false, false, "", none⟩

/-- One tick of the lease: whether the run's cancel flag is set, what the runner
answers should a cancellation be sent, and the outcome of a heartbeat that is
due. The answer is `none` when it does not come in time. -/
structure LeaseTick where
  cancel : Bool
  answer : Option (Except Status Unit)
  heartbeat : Option (Option (Except Status Unit))

/-- What `select!` picks in one round of the loop. -/
inductive Round
  | message (item : Except Status (Option RunnerEvent))
  | tick (tick : LeaseTick)

/-- Send a pending cancellation once. -/
def send_cancel (cancel_sent : Bool) (tick : LeaseTick) : Except Status Bool :=
  if tick.cancel && !cancel_sent then
    match tick.answer with
    | some (.ok ()) => .ok true
    | some (.error status) =>
      if status.code = .NotFound then .ok cancel_sent
      else .error ⟨.Unavailable, "runner cancellation could not be confirmed"⟩
    | none => .error ⟨.Unavailable, "runner cancellation could not be confirmed"⟩
  else .ok cancel_sent

def beat : Option (Option (Except Status Unit)) → Except Status Unit
  | none => .ok ()
  | some none => .error ⟨.DeadlineExceeded, "execution lease heartbeat timed out"⟩
  | some (some reply) => reply

/-- The outcome after a terminal event. -/
def DispatchOutcome.finish (outcome : DispatchOutcome) (ev : RunnerEvent) : DispatchOutcome :=
  { outcome with
    terminal := true
    simulated := ev.simulated
    completed := ev.kind == EventKind.Completed.number
    cleanup_confirmed := ev.cleanup_confirmed
    files_created := ev.files_created
    bytes_written := ev.bytes_written
    inject_ms := ev.inject_ms
    detail := ev.detail
    rejected := if ev.kind == EventKind.Rejected.number then some ev.detail else outcome.rejected }

/-- The loop of `dispatch_controlled`. The rounds are those that happen before
the deadline. -/
def fold_rounds (to_uppercase : String → String) (run_id : String) :
    List Round → Bool → DispatchOutcome → Except Status DispatchOutcome
  | [], _, _ => .error ⟨.DeadlineExceeded, "runner execution deadline exceeded; cleanup unconfirmed"⟩
  | .message (.error status) :: _, _, _ => .error status
  | .message (.ok none) :: _, _, outcome => .ok outcome
  | .message (.ok (some ev)) :: rounds, cancel_sent, outcome =>
    if ev.run_id ≠ run_id then .error ⟨.DataLoss, "runner event run_id mismatch"⟩
    else
      let outcome := { outcome with final_state := to_uppercase ev.state }
      if ev.ends then .ok (outcome.finish ev)
      else fold_rounds to_uppercase run_id rounds cancel_sent outcome
  | .tick tick :: rounds, cancel_sent, outcome =>
    match send_cancel cancel_sent tick with
    | .error status => .error status
    | .ok cancel_sent => match beat tick.heartbeat with
      | .error status => .error status
      | .ok () => fold_rounds to_uppercase run_id rounds cancel_sent outcome

/-- Dispatch to a runner. `opened` is the outcome of connecting and of the
`execute` call that opens the stream. -/
def dispatch_controlled (to_uppercase : String → String) (run_id : String) (opened : Except Status Unit)
    (rounds : List Round) : Except Status DispatchOutcome :=
  match opened with
  | .error status => .error status
  | .ok () => fold_rounds to_uppercase run_id rounds false .default

/-- The events a stream delivers up to the end of the loop. -/
def folded_rounds (run_id : String) : List Round → Bool → List RunnerEvent
  | [], _ => []
  | .message (.error _) :: _, _ => []
  | .message (.ok none) :: _, _ => []
  | .message (.ok (some ev)) :: rounds, cancel_sent =>
    if ev.run_id ≠ run_id then []
    else ev :: if ev.ends then [] else folded_rounds run_id rounds cancel_sent
  | .tick tick :: rounds, cancel_sent =>
    match send_cancel cancel_sent tick with
    | .error _ => []
    | .ok cancel_sent => match beat tick.heartbeat with
      | .error _ => []
      | .ok () => folded_rounds run_id rounds cancel_sent

def folded_events (run_id : String) (opened : Except Status Unit) (rounds : List Round) : List RunnerEvent :=
  match opened with
  | .error _ => []
  | .ok () => folded_rounds run_id rounds false

/-- The terminal event among the folded ones. There is at most one: it ends the
loop. -/
def terminal_event (run_id : String) (opened : Except Status Unit) (rounds : List Round) : Option RunnerEvent :=
  (folded_events run_id opened rounds).find? RunnerEvent.ends

theorem EventKind.try_from_number (kind : EventKind) : EventKind.try_from kind.number = some kind := by
  cases kind <;> decide

theorem EventKind.number_of_try_from {number : Int} {kind : EventKind}
    (h : EventKind.try_from number = some kind) : number = kind.number := by
  have hsome := List.find?_some h
  exact (beq_iff_eq.mp hsome).symm

/-- The loop ends with an error, with the outcome of the terminal event, which
is the last one folded, or unfinished; only a terminal event finishes it. -/
theorem fold_rounds_cases (to_uppercase : String → String) (run_id : String) (rounds : List Round)
    (cancel_sent : Bool) (outcome : DispatchOutcome) (hopen : outcome.terminal = false)
    (hrejected : outcome.rejected = none) :
    let events := folded_rounds run_id rounds cancel_sent
    (∃ status, fold_rounds to_uppercase run_id rounds cancel_sent outcome = .error status ∧
        events.find? RunnerEvent.ends = none) ∨
      (∃ out, fold_rounds to_uppercase run_id rounds cancel_sent outcome = .ok out ∧ out.terminal = false ∧
        out.rejected = none ∧ events.find? RunnerEvent.ends = none) ∨
      ∃ (ev : RunnerEvent) (before : DispatchOutcome), events.find? RunnerEvent.ends = some ev ∧
        before.rejected = none ∧ before.final_state = to_uppercase ev.state ∧
        fold_rounds to_uppercase run_id rounds cancel_sent outcome = .ok (before.finish ev) := by
  induction rounds generalizing cancel_sent outcome with
  | nil => exact Or.inl ⟨_, rfl, rfl⟩
  | cons round rounds ih =>
    cases round with
    | message item =>
      cases item with
      | error status => exact Or.inl ⟨status, rfl, rfl⟩
      | ok message =>
        cases message with
        | none => exact Or.inr (Or.inl ⟨outcome, rfl, hopen, hrejected, rfl⟩)
        | some ev =>
          simp only [fold_rounds, folded_rounds]
          split
          · exact Or.inl ⟨_, rfl, rfl⟩
          · split
            · rename_i hends
              refine Or.inr (Or.inr ⟨ev, { outcome with final_state := to_uppercase ev.state }, ?_, hrejected,
                rfl, rfl⟩)
              rw [List.find?_cons, hends]
            · rename_i hgoes
              rw [List.find?_cons, Bool.eq_false_iff.mpr hgoes]
              exact ih cancel_sent { outcome with final_state := to_uppercase ev.state } hopen hrejected
    | tick tick =>
      simp only [fold_rounds, folded_rounds]
      cases send_cancel cancel_sent tick with
      | error status => exact Or.inl ⟨status, rfl, rfl⟩
      | ok sent =>
        cases beat tick.heartbeat with
        | error status => exact Or.inl ⟨status, rfl, rfl⟩
        | ok _ => exact ih sent outcome hopen hrejected

/-- What a dispatch returns in terms of the terminal event it folded. -/
theorem dispatch_controlled_cases (to_uppercase : String → String) (run_id : String)
    (opened : Except Status Unit) (rounds : List Round) :
    (∃ status, dispatch_controlled to_uppercase run_id opened rounds = .error status ∧
        terminal_event run_id opened rounds = none) ∨
      (∃ out, dispatch_controlled to_uppercase run_id opened rounds = .ok out ∧ out.terminal = false ∧
        out.rejected = none ∧ terminal_event run_id opened rounds = none) ∨
      ∃ (ev : RunnerEvent) (before : DispatchOutcome), terminal_event run_id opened rounds = some ev ∧
        before.rejected = none ∧ before.final_state = to_uppercase ev.state ∧
        dispatch_controlled to_uppercase run_id opened rounds = .ok (before.finish ev) := by
  cases opened with
  | error status => exact Or.inl ⟨status, rfl, rfl⟩
  | ok _ => exact fold_rounds_cases to_uppercase run_id rounds false .default rfl rfl

end asmodeus.control_plane
