import Asmodeus.ControlPlane.Dispatch
import Asmodeus.Telemetry.Record

open asmodeus.telemetry

namespace asmodeus.control_plane

/-- How a run is executed: on a runner, or simulated in process when none is
selected. -/
inductive Mode
  | runner
  | simulated
  deriving DecidableEq

def Mode.as_str : Mode → String
  | .runner => "runner"
  | .simulated => "simulated"

inductive ExecutionError
  | Dispatch (text : String)
  | RunnerRejected (reason : String)
  | RunnerIncomplete (final_state : String)
  deriving DecidableEq

/-- What the in-process loop stopped on. -/
inductive SimulationEnd
  | cancelled
  | timed_out
  | elapsed
  deriving DecidableEq

def SimulationEnd.status : SimulationEnd → String
  | .cancelled => "CANCELLED"
  | .timed_out => "TIMED_OUT"
  | .elapsed => "COMPLETED"

/-- The outcome of an in-process simulation. -/
def simulation_outcome (reason : SimulationEnd) : DispatchOutcome :=
  { DispatchOutcome.default with
    terminal := true
    completed := reason.status == "COMPLETED"
    final_state := reason.status }

/-- The worker's verdict on a finished execution. -/
structure Settlement where
  status : String
  cleaned : Bool
  detail : String
  error : Option ExecutionError
  simulated : Bool
  deriving DecidableEq

/-- The worker's classification of the dispatch result. `display` is the text of
a gRPC status. -/
def settle (display : Status → String) (mode : Mode) : Except Status DispatchOutcome → Settlement
  | .ok out =>
    let error :=
      match out.rejected with
      | some reason => some (ExecutionError.RunnerRejected reason)
      | none =>
        if !out.terminal || (mode == .runner && out.completed && !out.cleanup_confirmed) then
          some (.RunnerIncomplete out.final_state)
        else none
    { status := if error.isSome then "FAILED" else out.final_state
      cleaned := out.cleanup_confirmed
      detail := out.detail
      error := error
      simulated := out.simulated }
  | .error status =>
    { status := "FAILED"
      cleaned := false
      detail := display status
      error := some (.Dispatch (display status))
      simulated := mode == .simulated }

/-- The terminal revision of the worker, before it is signed. -/
def terminal_revision (mode : Mode) (settlement : Settlement) (now : String) (record : AuditRecord) :
    AuditRecord :=
  { record with
    status := settlement.status
    cleanup_status :=
      if mode = .simulated then "NOT_APPLICABLE"
      else if settlement.cleaned then "SUCCESS"
      else "UNCONFIRMED"
    evidence := record.evidence.map fun e =>
      { e with
        execution_mode := if settlement.simulated then "simulated" else e.execution_mode
        cleanup_confirmed := settlement.cleaned
        failure_reason := if settlement.detail = "" then none else some settlement.detail }
    timestamp_utc := now }

/-- What the worker commits for a runner-mode run after the dispatch. -/
def runner_revision (crypto : Crypto) (key : List UInt8) (to_uppercase : String → String)
    (display : Status → String) (run_id : String) (opened : Except Status Unit) (rounds : List Round)
    (now : String) (record : AuditRecord) : Except String AuditRecord :=
  let settlement := settle display .runner (dispatch_controlled to_uppercase run_id opened rounds)
  (terminal_revision .runner settlement now record).sign crypto key

/-- A record that claims no better an outcome than the folded events prove. -/
structure OutcomeProved (events : List RunnerEvent) (record : AuditRecord) : Prop where
  completed : record.status = "COMPLETED" →
    ∃ ev ∈ events, EventKind.try_from ev.kind = some .Completed ∧ ev.cleanup_confirmed = true
  cancelled : record.status = "CANCELLED" → ∃ ev ∈ events, EventKind.try_from ev.kind = some .Cancelled
  timed_out : record.status = "TIMED_OUT" → ∃ ev ∈ events, EventKind.try_from ev.kind = some .TimedOut
  terminal : record.is_terminal = true

/-- The free-text state of a terminal event does not contradict its kind. A
rejection and a completion without confirmed cleanup are recorded as failed
whatever their state says. -/
def StateAgrees (to_uppercase : String → String) (ev : RunnerEvent) : Prop :=
  EventKind.try_from ev.kind = some .Rejected ∨
  (EventKind.try_from ev.kind = some .Completed ∧ ev.cleanup_confirmed = false) ∨
  ((to_uppercase ev.state = "COMPLETED" → EventKind.try_from ev.kind = some .Completed) ∧
    (to_uppercase ev.state = "CANCELLED" → EventKind.try_from ev.kind = some .Cancelled) ∧
    (to_uppercase ev.state = "TIMED_OUT" → EventKind.try_from ev.kind = some .TimedOut) ∧
    to_uppercase ev.state ≠ "QUEUED" ∧ to_uppercase ev.state ≠ "RUNNING" ∧
    to_uppercase ev.state ≠ "CANCELLING")

theorem is_terminal_iff (record : AuditRecord) : record.is_terminal = true ↔
    record.status ≠ "QUEUED" ∧ record.status ≠ "RUNNING" ∧ record.status ≠ "CANCELLING" := by
  simp [AuditRecord.is_terminal, and_assoc]

theorem OutcomeProved.of_failed {events : List RunnerEvent} {record : AuditRecord}
    (hstatus : record.status = "FAILED") : OutcomeProved events record := by
  constructor
  · rw [hstatus]; intro h; exact absurd h (by decide)
  · rw [hstatus]; intro h; exact absurd h (by decide)
  · rw [hstatus]; intro h; exact absurd h (by decide)
  · rw [is_terminal_iff, hstatus]; decide

theorem runner_revision_status {crypto : Crypto} {key : List UInt8} {to_uppercase : String → String}
    {display : Status → String} {run_id : String} {opened : Except Status Unit} {rounds : List Round}
    {now : String} {record signed : AuditRecord}
    (hsign : runner_revision crypto key to_uppercase display run_id opened rounds now record = .ok signed) :
    signed.status = (settle display .runner (dispatch_controlled to_uppercase run_id opened rounds)).status := by
  obtain ⟨sig, pk, rfl⟩ := AuditRecord.sign_eq hsign
  rfl

theorem settle_error (display : Status → String) (mode : Mode) (status : Status) :
    (settle display mode (.error status)).status = "FAILED" := rfl

/-- A stream that ends without a terminal event is recorded as failed. -/
theorem settle_unfinished (display : Status → String) (mode : Mode) {out : DispatchOutcome}
    (hopen : out.terminal = false) (hrejected : out.rejected = none) :
    (settle display mode (.ok out)).status = "FAILED" := by
  simp [settle, hopen, hrejected]

theorem try_from_eq_some_iff (number : Int) (kind : EventKind) :
    EventKind.try_from number = some kind ↔ number = kind.number := by
  constructor
  · exact EventKind.number_of_try_from
  · rintro rfl
    exact EventKind.try_from_number kind

/-- A terminal event is recorded as failed when it is a rejection or a
completion without confirmed cleanup, and under its own state otherwise. -/
theorem settle_finished (display : Status → String) (before : DispatchOutcome) (ev : RunnerEvent)
    (hrejected : before.rejected = none) :
    (settle display .runner (.ok (before.finish ev))).status =
      if EventKind.try_from ev.kind = some .Rejected ∨
        (EventKind.try_from ev.kind = some .Completed ∧ ev.cleanup_confirmed = false) then "FAILED"
      else before.final_state := by
  simp only [try_from_eq_some_iff]
  by_cases hreject : ev.kind = EventKind.Rejected.number
  · simp [settle, DispatchOutcome.finish, hreject]
  · by_cases hcomplete : ev.kind = EventKind.Completed.number
    · cases hcleanup : ev.cleanup_confirmed <;>
        simp [settle, DispatchOutcome.finish, hcomplete, hcleanup, hrejected, EventKind.number]
    · simp [settle, DispatchOutcome.finish, hreject, hcomplete, hrejected]

theorem folded_rounds_ends (run_id : String) (rounds : List Round) (cancel_sent : Bool) {ev : RunnerEvent}
    (hmem : ev ∈ folded_rounds run_id rounds cancel_sent) (hends : ev.ends = true) :
    (folded_rounds run_id rounds cancel_sent).find? RunnerEvent.ends = some ev := by
  induction rounds generalizing cancel_sent with
  | nil => cases hmem
  | cons round rounds ih =>
    cases round with
    | message item =>
      cases item with
      | error status => cases hmem
      | ok message =>
        cases message with
        | none => cases hmem
        | some head =>
          simp only [folded_rounds] at hmem ⊢
          split at hmem
          · cases hmem
          · rename_i hid
            rw [if_neg hid]
            cases hhead : head.ends with
            | true =>
              simp only [hhead, if_true, List.mem_singleton] at hmem ⊢
              rw [hmem, List.find?_cons, hhead]
            | false =>
              simp only [hhead, Bool.false_eq_true, if_false, List.mem_cons] at hmem ⊢
              rw [List.find?_cons, hhead]
              rcases hmem with rfl | hmem
              · rw [hhead] at hends
                cases hends
              · exact ih cancel_sent hmem
    | tick tick =>
      simp only [folded_rounds] at hmem ⊢
      cases hsend : send_cancel cancel_sent tick with
      | error status => rw [hsend] at hmem; cases hmem
      | ok sent =>
        cases hbeat : beat tick.heartbeat with
        | error status => rw [hsend, hbeat] at hmem; cases hmem
        | ok _ =>
          rw [hsend, hbeat] at hmem
          exact ih sent hmem

/-- A folded event of a terminal kind is the terminal event. -/
theorem terminal_event_of_mem {run_id : String} {opened : Except Status Unit} {rounds : List Round}
    {ev : RunnerEvent} {kind : EventKind} (hmem : ev ∈ folded_events run_id opened rounds)
    (hkind : EventKind.try_from ev.kind = some kind) (hends : kind.ends = true) :
    terminal_event run_id opened rounds = some ev := by
  have hev : ev.ends = true := by rw [RunnerEvent.ends, hkind]; exact hends
  cases opened with
  | error status => cases hmem
  | ok _ => exact folded_rounds_ends run_id rounds false hmem hev

/-- The worker records no better an outcome than the runner proved exactly when
the state text of the terminal event, if one is reached, agrees with its kind. -/
theorem runner_revision_proved_iff {crypto : Crypto} {key : List UInt8} {to_uppercase : String → String}
    {display : Status → String} {run_id : String} {opened : Except Status Unit} {rounds : List Round}
    {now : String} {record signed : AuditRecord}
    (hsign : runner_revision crypto key to_uppercase display run_id opened rounds now record = .ok signed) :
    OutcomeProved (folded_events run_id opened rounds) signed ↔
      ∀ ev, terminal_event run_id opened rounds = some ev → StateAgrees to_uppercase ev := by
  have hstatus := runner_revision_status hsign
  obtain ⟨status, hdispatch, hnone⟩ | ⟨out, hdispatch, hopen, hrejected, hnone⟩ |
    ⟨ev, before, hterminal, hrejected, hstate, hdispatch⟩ :=
      dispatch_controlled_cases to_uppercase run_id opened rounds
  · rw [hdispatch, settle_error] at hstatus
    exact iff_of_true (.of_failed hstatus) (by simp [hnone])
  · rw [hdispatch, settle_unfinished display .runner hopen hrejected] at hstatus
    exact iff_of_true (.of_failed hstatus) (by simp [hnone])
  · rw [hdispatch, settle_finished display before ev hrejected, hstate] at hstatus
    have hmem : ev ∈ folded_events run_id opened rounds := List.mem_of_find?_eq_some hterminal
    have honly : ∀ other ∈ folded_events run_id opened rounds, ∀ kind,
        EventKind.try_from other.kind = some kind → kind.ends = true → other = ev := by
      intro other hother kind hkind hends
      have hfound := terminal_event_of_mem hother hkind hends
      rw [hterminal, Option.some.injEq] at hfound
      exact hfound.symm
    have hagrees : (∀ other, terminal_event run_id opened rounds = some other → StateAgrees to_uppercase other) ↔
        StateAgrees to_uppercase ev := by
      rw [hterminal]
      simp
    rw [hagrees]
    split at hstatus
    · rename_i hfails
      refine iff_of_true (.of_failed hstatus) ?_
      rcases hfails with hreject | hunconfirmed
      · exact Or.inl hreject
      · exact Or.inr (Or.inl hunconfirmed)
    · rename_i hfails
      rw [not_or] at hfails
      constructor
      · intro hproved
        have hterm := (is_terminal_iff signed).mp hproved.terminal
        rw [hstatus] at hterm
        refine Or.inr (Or.inr ⟨?_, ?_, ?_, hterm⟩)
        · intro hcompleted
          obtain ⟨other, hother, hkind, -⟩ := hproved.completed (hstatus.trans hcompleted)
          rw [← honly other hother .Completed hkind rfl]
          exact hkind
        · intro hcancelled
          obtain ⟨other, hother, hkind⟩ := hproved.cancelled (hstatus.trans hcancelled)
          rw [← honly other hother .Cancelled hkind rfl]
          exact hkind
        · intro htimed
          obtain ⟨other, hother, hkind⟩ := hproved.timed_out (hstatus.trans htimed)
          rw [← honly other hother .TimedOut hkind rfl]
          exact hkind
      · rintro (hreject | hunconfirmed | ⟨hcompleted, hcancelled, htimed, hterm⟩)
        · exact absurd hreject hfails.1
        · exact absurd hunconfirmed hfails.2
        · rw [← hstatus] at hcompleted hcancelled htimed hterm
          refine ⟨fun h => ⟨ev, hmem, hcompleted h, ?_⟩, fun h => ⟨ev, hmem, hcancelled h⟩,
            fun h => ⟨ev, hmem, htimed h⟩, (is_terminal_iff signed).mpr hterm⟩
          cases hcleanup : ev.cleanup_confirmed with
          | true => rfl
          | false => exact absurd ⟨hcompleted h, hcleanup⟩ hfails.2

/-- What `to_uppercase` does on ASCII text. -/
def ascii_uppercase (text : String) : String := String.ofList (text.toList.map Char.toUpper)

def failed_event (state : String) : RunnerEvent :=
  ⟨EventKind.Failed.number, state, 0, 0, 0, "", "run-1", false, false⟩

/-- A failure reported under its own name. -/
theorem runner_revision_failed :
    ∃ signed, runner_revision blank_crypto [] ascii_uppercase Status.message "run-1" (.ok ())
        [.message (.ok (some (failed_event "failed")))] "2026-09-22T00:00:00Z"
        (runner_record "run-1" "QUEUED") = .ok signed ∧
      (OutcomeProved (folded_events "run-1" (.ok ()) [.message (.ok (some (failed_event "failed")))]) signed ↔
        ∀ ev, terminal_event "run-1" (.ok ()) [.message (.ok (some (failed_event "failed")))] = some ev →
          StateAgrees ascii_uppercase ev) := by
  have hsign : runner_revision blank_crypto [] ascii_uppercase Status.message "run-1" (.ok ())
      [.message (.ok (some (failed_event "failed")))] "2026-09-22T00:00:00Z"
      (runner_record "run-1" "QUEUED") = .ok _ := rfl
  exact ⟨_, hsign, runner_revision_proved_iff hsign⟩

/-- A failure whose state says completed is recorded as a completed run. -/
theorem failed_recorded_as_completed :
    ∃ signed, runner_revision blank_crypto [] ascii_uppercase Status.message "run-1" (.ok ())
        [.message (.ok (some (failed_event "completed")))] "2026-09-22T00:00:00Z"
        (runner_record "run-1" "QUEUED") = .ok signed ∧
      signed.status = "COMPLETED" ∧
      ¬ OutcomeProved (folded_events "run-1" (.ok ()) [.message (.ok (some (failed_event "completed")))])
        signed := by
  refine ⟨_, rfl, by decide, fun hproved => ?_⟩
  obtain ⟨ev, hmem, hkind, -⟩ := hproved.completed (by decide)
  have hev : ev = failed_event "completed" := List.mem_singleton.mp hmem
  rw [hev] at hkind
  exact absurd hkind (by decide)

end asmodeus.control_plane
