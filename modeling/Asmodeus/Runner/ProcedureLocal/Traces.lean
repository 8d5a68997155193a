import Asmodeus.Runner.ProcedureLocal

open FileTree UnixPath
open asmodeus.dsl

namespace asmodeus.runner

/-- A call and what the system has answered. -/
structure Event where
  call : Syscall
  reply : call.Reply

/-- A call whose answer is kept. -/
def answered (answer : (call : Syscall) → call.Reply) (call : Syscall) (events : List Event) :
    call.Reply × List Event :=
  (answer call, events ++ [⟨call, answer call⟩])

/-- One more call, which is lawful after those before it. -/
def Goes (Law : List Event → Syscall → Prop) (events events' : List Event) : Prop :=
  ∃ event : Event, events' = events ++ [event] ∧ Law events event.call

/-- Whatever the system answers, the calls are lawful and the end meets the postcondition. -/
def Traced (Law : List Event → Syscall → Prop) {α : Type} (x : Sys α) (Post : α → List Event → Prop)
    (events : List Event) : Prop :=
  Program.Holds answered Eq (Goes Law) Post x events

section

variable {Law : List Event → Syscall → Prop} {α β : Type} {events : List Event} {call : Syscall}

theorem traced_done {Post : α → List Event → Prop} {a : α} (h : Post a events) : Traced Law (.done a) Post events := by
  rintro _ rfl
  exact h

theorem traced_call {Post : α → List Event → Prop} {next : call.Reply → Sys α} (hlaw : Law events call)
    (h : ∀ reply, Traced Law (next reply) Post (events ++ [⟨call, reply⟩])) :
      Traced Law (.call call next) Post events := by
  rintro _ rfl answer
  exact ⟨⟨⟨call, answer call⟩, rfl, hlaw⟩, h (answer call)⟩

theorem traced_bind {Post : β → List Event → Prop} {x : Sys α} {f : α → Sys β}
    (h : Traced Law x (fun a events => Traced Law (f a) Post events) events) : Traced Law (x >>= f) Post events :=
  Program.holds_bind (fun _ => rfl) h

theorem Traced.mono {Post Post' : α → List Event → Prop} {x : Sys α} (h : Traced Law x Post events)
    (hpost : ∀ a events, Post a events → Post' a events) : Traced Law x Post' events :=
  Program.Holds.mono h hpost

/-- Nothing is forgotten. -/
theorem Traced.grows {Post : α → List Event → Prop} {x : Sys α} (h : Traced Law x Post events) :
    Traced Law x (fun a events' => events <+: events' ∧ Post a events') events := by
  have hfrom {before : List Event} (hbefore : before <+: events) :
      Traced Law x (fun a events' => before <+: events' ∧ Post a events') events := by
    induction x generalizing events with
    | done a => exact traced_done ⟨hbefore, h events rfl⟩
    | call call next ih =>
      rintro _ rfl answer
      obtain ⟨hgoes, hnext⟩ := h events rfl answer
      exact ⟨hgoes, ih _ hnext (hbefore.trans (List.prefix_append _ _))⟩
  exact hfrom List.prefix_rfl

theorem Traced.step {Post : α → List Event → Prop} {next : call.Reply → Sys α}
    (h : Traced Law (.call call next) Post events)
    (answer : (call : Syscall) → call.Reply) :
    Law events call ∧ Traced Law (next (answer call)) Post (events ++ [⟨call, answer call⟩]) := by
  obtain ⟨⟨event, hevent, hlaw⟩, hnext⟩ := Program.Holds.call (fun _ => rfl) h answer
  obtain rfl : (⟨call, answer call⟩ : Event) = event := List.singleton_inj.mp (List.append_cancel_left hevent)
  exact ⟨hlaw, hnext⟩

end

namespace Fixture

variable {Law : List Event → Syscall → Prop} {α β : Type} {events : List Event} {receipts : List LocalReceipt}
  {Err : Failure → List LocalReceipt → List Event → Prop}

/-- What a fixture ends with, whether it has failed or not. -/
def settle (Post : α → List LocalReceipt → List Event → Prop) (Err : Failure → List LocalReceipt → List Event → Prop) :
    Except Failure α × List LocalReceipt → List Event → Prop
  | (.ok a, receipts), events => Post a receipts events
  | (.error failure, receipts), events => Err failure receipts events

/-- `Traced` for a fixture, with a postcondition for its failures. -/
def Traced (Law : List Event → Syscall → Prop) (Err : Failure → List LocalReceipt → List Event → Prop) {α : Type}
    (x : Fixture α) (Post : α → List LocalReceipt → List Event → Prop) (receipts : List LocalReceipt)
    (events : List Event) : Prop :=
  asmodeus.runner.Traced Law (x.run.run receipts) (settle Post Err) events

theorem traced_pure {Post : α → List LocalReceipt → List Event → Prop} {a : α} (h : Post a receipts events) :
    Traced Law Err (pure a) Post receipts events := traced_done h

theorem traced_fail {Post : α → List LocalReceipt → List Event → Prop} {error : SocketError}
    (h : Err (.io error) receipts events) : Traced Law Err (fail error : Fixture α) Post receipts events :=
      traced_done h

theorem traced_unfinished {Post : α → List LocalReceipt → List Event → Prop} (h : Err .unfinished receipts events) :
    Traced Law Err (throw .unfinished : Fixture α) Post receipts events := traced_done h

theorem traced_bind {Post : β → List LocalReceipt → List Event → Prop} {x : Fixture α} {f : α → Fixture β}
    (h : x.Traced Law Err (fun a receipts events => (f a).Traced Law Err Post receipts events) receipts events) :
    (x >>= f).Traced Law Err Post receipts events := by
  refine asmodeus.runner.traced_bind (Traced.mono h ?_)
  rintro ⟨_ | a, receipts⟩ events hsettled
  · exact traced_done hsettled
  · exact hsettled

theorem Traced.imp {Post Post' : α → List LocalReceipt → List Event → Prop} {x : Fixture α}
    (h : x.Traced Law Err Post receipts events)
    (hpost : ∀ a receipts events, Post a receipts events → Post' a receipts events) :
    x.Traced Law Err Post' receipts events := by
  refine Traced.mono h ?_
  rintro ⟨_ | a, receipts⟩ events hsettled
  · exact hsettled
  · exact hpost a receipts events hsettled

theorem traced_syscall {call : Syscall} {Post : call.Reply → List LocalReceipt → List Event → Prop}
    (hlaw : Law events call)
    (h : ∀ reply, Post reply receipts (events ++ [⟨call, reply⟩])) :
    (syscall call).Traced Law Err Post receipts events :=
  traced_call hlaw fun reply => traced_done (h reply)

theorem traced_get {Post : List LocalReceipt → List LocalReceipt → List Event → Prop}
    (h : Post receipts receipts events) :
    Traced Law Err (get : Fixture (List LocalReceipt)) Post receipts events := traced_done h

theorem traced_push {Post : Unit → List LocalReceipt → List Event → Prop} {receipt : LocalReceipt}
    (h : Post () (receipts ++ [receipt]) events) : (push receipt).Traced Law Err Post receipts events := traced_done h

theorem traced_fail_if {Post : Unit → List LocalReceipt → List Event → Prop} {condition : Prop} [Decidable condition]
    {error : SocketError} (hfail : condition → Err (.io error) receipts events)
    (hpass : ¬ condition → Post () receipts events) :
    (fail_if condition error).Traced Law Err Post receipts events := by
  unfold fail_if
  split
  · exact traced_fail (hfail ‹_›)
  · exact traced_pure (hpass ‹_›)

/-- What a result goes on with, whether it is an error or not. -/
def unwrap (Post : α → List LocalReceipt → List Event → Prop) (Err : Failure → List LocalReceipt → List Event → Prop) :
    Except SocketError α → List LocalReceipt → List Event → Prop
  | .ok a => Post a
  | .error error => Err (.io error)

theorem traced_of {Post : α → List LocalReceipt → List Event → Prop} {x : Fixture (Except SocketError α)}
    (h : x.Traced Law Err (unwrap Post Err) receipts events) : (of x).Traced Law Err Post receipts events := by
  refine traced_bind (Traced.mono h ?_)
  rintro ⟨_ | result, receipts⟩ events hsettled
  · exact hsettled
  · cases result with
    | ok a => exact traced_pure hsettled
    | error error => exact traced_fail hsettled

end Fixture

end asmodeus.runner
