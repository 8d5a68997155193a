import Asmodeus.Runner.ProcedureLocal.Traces

open FileTree UnixPath
open asmodeus.dsl

namespace asmodeus.runner

/-- A port of the loopback device that the system chooses. -/
def SocketAddr.ephemeral : SocketAddr := ⟨.LOCALHOST, 0⟩

/-- The attempt has bound the socket to the loopback device. -/
def Bound (fd : Fd) (events : List Event) : Prop :=
  ⟨.tcp_bind .ephemeral, Except.ok fd⟩ ∈ events ∨ ⟨.udp_bind .ephemeral, Except.ok fd⟩ ∈ events

/-- The socket is an end of a connection of the attempt. -/
def Connected (fd : Fd) (events : List Event) : Prop :=
  (∃ address timeout, ⟨.connect_timeout address timeout, Except.ok fd⟩ ∈ events) ∨
    ∃ listener peer, ⟨.accept listener, Except.ok (fd, peer)⟩ ∈ events

/-- A socket that the attempt has bound has the address. -/
def Heard (address : SocketAddr) (events : List Event) : Prop :=
  ∃ fd, Bound fd events ∧ ⟨.local_addr fd, Except.ok address⟩ ∈ events

/-- The last that was done was a check that has passed. -/
def Armed (deadline : Nat) (events : List Event) : Prop :=
  ∃ before t, events = before ++ [⟨.load, false⟩, ⟨.now, t⟩] ∧ t < deadline

/-- Since a check that has passed the time was read, and nothing else done. -/
def Timed (deadline t : Nat) (events : List Event) : Prop :=
  ∃ checked, events = checked ++ [⟨.now, t⟩] ∧ Armed deadline checked

/-- What is learnt of connections. -/
inductive Link
  | connected (fd : Fd) (address : SocketAddr)
  | named (fd : Fd) (address : SocketAddr)
  | accepted (fd : Fd) (peer : SocketAddr)

def Event.link : Event → Option Link
  | ⟨.connect_timeout address _, .ok fd⟩ => some (.connected fd address)
  | ⟨.local_addr fd, .ok address⟩ => some (.named fd address)
  | ⟨.accept _, .ok (fd, peer)⟩ => some (.accepted fd peer)
  | _ => none

def links (events : List Event) : List Link := events.filterMap Event.link

/-- The last connection is one of the attempt with itself: it was made to an address that the attempt
has bound, and what was accepted has the address of its sender for a peer. -/
def Paired (sender accepted : Fd) (events : List Event) : Prop :=
  ∃ before address source, Heard address events ∧
    links events = before ++ [.connected sender address, .named sender source, .accepted accepted source]

/-- What a fixture may ask of the system once its attempt is reserved. -/
inductive SocketLaw (deadline : Nat) (events : List Event) : Syscall → Prop
  | tcp_bind : SocketLaw deadline events (.tcp_bind .ephemeral)
  | udp_bind : SocketLaw deadline events (.udp_bind .ephemeral)
  | set_nonblocking {fd : Fd} (hown : Bound fd events ∨ Connected fd events) :
    SocketLaw deadline events (.set_nonblocking fd)
  | local_addr {fd : Fd} (hown : Bound fd events ∨ Connected fd events) : SocketLaw deadline events (.local_addr fd)
  | connect_timeout {address : SocketAddr} {timeout t : Nat} (hheard : Heard address events)
    (htimed : Timed deadline t events)
    (htimeout : timeout = max (min (ms 10) (deadline - t)) 1000) : SocketLaw deadline events
    (.connect_timeout address timeout)
  | sleep {duration t : Nat} (htimed : Timed deadline t events) (hduration : duration ≤ ms 1) :
    SocketLaw deadline events (.sleep duration)
  | accept {fd : Fd} (hbound : Bound fd events) (harmed : Armed deadline events) :
    SocketLaw deadline events (.accept fd)
  | write {fd sender accepted : Fd} {bytes : List UInt8} (hpaired : Paired sender accepted events)
    (hend : fd = sender ∨ fd = accepted) (harmed : Armed deadline events) : SocketLaw deadline events (.write fd bytes)
  | read {fd sender accepted : Fd} {len : Nat} (hpaired : Paired sender accepted events)
    (hend : fd = sender ∨ fd = accepted) (harmed : Armed deadline events) : SocketLaw deadline events (.read fd len)
  | send_to {fd : Fd} {bytes : List UInt8} {address : SocketAddr} (hbound : Bound fd events)
    (hheard : Heard address events)
    (harmed : Armed deadline events) : SocketLaw deadline events (.send_to fd bytes address)
  | recv_from {fd : Fd} {len : Nat} (hbound : Bound fd events) (harmed : Armed deadline events) :
    SocketLaw deadline events (.recv_from fd len)

/-- The calls that read the clock or the flag. -/
def Syscall.clock : Syscall → Bool
  | .unix_ms | .now | .load => true
  | _ => false

/-- The error of a socket call. -/
def Event.failed : Event → Option SocketError
  | ⟨.tcp_bind _, .error e⟩ | ⟨.udp_bind _, .error e⟩ | ⟨.set_nonblocking _, .error e⟩ | ⟨.local_addr _, .error e⟩
  | ⟨.connect_timeout _ _, .error e⟩ | ⟨.accept _, .error e⟩ | ⟨.write _ _, .error e⟩ | ⟨.read _ _, .error e⟩
  | ⟨.send_to _ _ _, .error e⟩ | ⟨.recv_from _ _, .error e⟩ => some e
  | _ => none

/-- The flag was seen set, or a socket call was interrupted. -/
def Interrupted (events : List Event) : Prop :=
  ⟨.load, true⟩ ∈ events ∨ ∃ event ∈ events, ∃ error, event.failed = some error ∧ error.kind = .Interrupted

/-- More events, with nothing new of connections. -/
structure Steady (events events' : List Event) : Prop where
  later : events <+: events'
  same : links events' = links events

/-- An interruption has its reason. -/
def Blamed (failure : Failure) (events : List Event) : Prop :=
  ∀ error, failure = .io error → error.kind = .Interrupted → Interrupted events

/-- The clock may be read and the flag be looked at from now on. -/
def Ticks (Law : List Event → Syscall → Prop) (events : List Event) : Prop :=
  ∀ later, events <+: later → ∀ call : Syscall, call.clock = true → Law later call

/-- What a fixture may do from now on. -/
structure Grants (Law : List Event → Syscall → Prop) (deadline : Nat) (events : List Event) : Prop where
  clock : Ticks Law events
  socket : ∀ later, events <+: later → ∀ call, SocketLaw deadline later call → Law later call

/-- What comes in over a socket. -/
inductive Traffic
  | accepted (fd : Fd) (peer : SocketAddr)
  | read (fd : Fd) (bytes : List UInt8)
  | received (fd : Fd) (bytes : List UInt8) (peer : SocketAddr)

def Event.traffic : Event → Option Traffic
  | ⟨.accept _, .ok (fd, peer)⟩ => some (.accepted fd peer)
  | ⟨.read fd _, .ok buffer⟩ => some (.read fd buffer.val)
  | ⟨.recv_from fd _, .ok (buffer, peer)⟩ => some (.received fd buffer.val peer)
  | _ => none

def traffic (events : List Event) : List Traffic := events.filterMap Event.traffic

section

variable {Law : List Event → Syscall → Prop} {α : Type} {events events' : List Event} {receipts : List LocalReceipt}
  {Err : Failure → List LocalReceipt → List Event → Prop} {guard : Guard} {deadline : Nat} {fd : Fd}
  {address : SocketAddr}

theorem Grants.later (h : Grants Law deadline events) (hlater : events <+: events') : Grants Law deadline events' :=
  ⟨fun more hmore => h.clock more (hlater.trans hmore), fun more hmore => h.socket more (hlater.trans hmore)⟩

theorem Bound.later (h : Bound fd events) (hlater : events <+: events') : Bound fd events' :=
  h.imp (fun hmem => hlater.mem hmem) fun hmem => hlater.mem hmem

theorem Connected.later (h : Connected fd events) (hlater : events <+: events') : Connected fd events' :=
  h.imp (fun ⟨address, timeout, hmem⟩ => ⟨address, timeout, hlater.mem hmem⟩)
    fun ⟨listener, peer, hmem⟩ => ⟨listener, peer, hlater.mem hmem⟩

theorem Heard.later (h : Heard address events) (hlater : events <+: events') : Heard address events' := by
  obtain ⟨fd, hbound, hmem⟩ := h
  exact ⟨fd, hbound.later hlater, hlater.mem hmem⟩

theorem Interrupted.later (h : Interrupted events) (hlater : events <+: events') : Interrupted events' :=
  h.imp (fun hmem => hlater.mem hmem) fun ⟨event, hmem, herror⟩ => ⟨event, hlater.mem hmem, herror⟩

theorem Blamed.later {failure : Failure} (h : Blamed failure events) (hlater : events <+: events') :
    Blamed failure events' :=
  fun error hfailure hkind => (h error hfailure hkind).later hlater

/-- An error of another kind needs no reason. -/
theorem blamed_of_kind {error : SocketError} (h : error.kind ≠ .Interrupted) : Blamed (.io error) events := by
  rintro _ ⟨⟩ hkind
  exact absurd hkind h

theorem blamed_unfinished : Blamed .unfinished events := nofun

theorem blamed_of_failed {event : Event} {error : SocketError} (hmem : event ∈ events)
    (hfailed : event.failed = some error) :
    Blamed (.io error) events := by
  rintro _ ⟨⟩ hkind
  exact Or.inr ⟨event, hmem, error, hfailed, hkind⟩

/-- Where an error leaves the receipts as they are. -/
def Fails (Err : Failure → List LocalReceipt → List Event → Prop) (receipts : List LocalReceipt)
    (events : List Event) : Prop :=
  ∀ failure events', events <+: events' → Blamed failure events' → Err failure receipts events'

theorem Fails.later (h : Fails Err receipts events) (hlater : events <+: events') : Fails Err receipts events' :=
  fun failure more hmore => h failure more (hlater.trans hmore)

/-- A result with the receipts as they are: a value with what is known of it, or an error
that the system has told. -/
structure Result (G : α → List Event → Prop) (receipts : List LocalReceipt) (events : List Event)
    (result : Except SocketError α) (receipts' : List LocalReceipt) (events' : List Event) : Prop where
  receipts : receipts' = receipts
  later : events <+: events'
  ok : ∀ a, result = .ok a → G a events'
  error : ∀ error, result = .error error → Steady events events' ∧ ∃ event ∈ events', event.failed = some error

theorem links_append (events more : List Event) : links (events ++ more) = links events ++ links more :=
  List.filterMap_append

theorem Steady.refl (events : List Event) : Steady events events := ⟨List.prefix_rfl, rfl⟩

theorem Steady.trans {events'' : List Event} (h : Steady events events') (h' : Steady events' events'') :
    Steady events events'' := ⟨h.later.trans h'.later, h'.same.trans h.same⟩

theorem Steady.push {event : Event} (h : Steady events events') (hlink : event.link = none) :
    Steady events (events' ++ [event]) := by
  have hnone : links [event] = [] := List.filterMap_cons_none hlink
  exact ⟨h.later.trans (List.prefix_append _ _), by rw [links_append, hnone, List.append_nil, h.same]⟩

/-- A call that fails says nothing of connections. -/
theorem link_of_failed {event : Event} {error : SocketError} (h : event.failed = some error) : event.link = none := by
  unfold Event.failed at h
  split at h
  all_goals first | rfl | cases h

theorem Paired.later {sender accepted : Fd} (h : Paired sender accepted events) (hsteady : Steady events events') :
    Paired sender accepted events' := by
  obtain ⟨before, address, source, hheard, hlinks⟩ := h
  exact ⟨before, address, source, hheard.later hsteady.later, hsteady.same.trans hlinks⟩

/-- A check, which arms what comes next. -/
theorem check_traced {Post : Unit → List LocalReceipt → List Event → Prop} (hticks : Ticks Law events)
    (hfails : Fails Err receipts events)
    (hpost : ∀ events', Steady events events' → Armed guard.deadline events' → Post () receipts events') :
    guard.check.Traced Law Err Post receipts events := by
  unfold Guard.check
  refine Fixture.traced_bind (Fixture.traced_syscall (hticks _ List.prefix_rfl _ rfl) fun (cancelled : Bool) => ?_)
  have hload : events <+: events ++ [⟨.load, cancelled⟩] := List.prefix_append _ _
  refine Fixture.traced_bind (Fixture.traced_fail_if (fun hset => ?_) fun hclear => ?_)
  · refine hfails _ _ hload fun _ _ _ => Or.inl ?_
    obtain rfl : cancelled = true := hset
    exact List.mem_append_right _ List.mem_cons_self
  · obtain rfl : cancelled = false := Bool.not_eq_true _ |>.mp hclear
    refine Fixture.traced_bind (Fixture.traced_syscall (hticks _ hload _ rfl) fun (t : Nat) => ?_)
    have hnow := ((Steady.refl events).push (rfl : (⟨.load, false⟩ : Event).link = none)).push
      (rfl : (⟨.now, t⟩ : Event).link = none)
    refine Fixture.traced_fail_if (fun _ => hfails _ _ hnow.later (blamed_of_kind nofun)) fun hbefore => hpost _ hnow ?_
    exact ⟨events, t, by simp, Nat.lt_of_not_le hbefore⟩

theorem pause_until_traced {Post : Unit → List LocalReceipt → List Event → Prop}
    (hgrants : Grants Law guard.deadline events)
    (hfails : Fails Err receipts events) (until_ fuel : Nat)
    (hpost : ∀ events', Steady events events' → Post () receipts events') :
    (guard.pause_until until_ fuel).Traced Law Err Post receipts events := by
  induction fuel generalizing events with
  | zero => exact Fixture.traced_unfinished (hfails _ _ List.prefix_rfl blamed_unfinished)
  | succ fuel ih =>
    unfold Guard.pause_until
    refine Fixture.traced_bind (Fixture.traced_syscall (hgrants.clock _ List.prefix_rfl _ rfl) fun (t : Nat) => ?_)
    have hnow := (Steady.refl events).push (rfl : (⟨.now, t⟩ : Event).link = none)
    split
    · refine Fixture.traced_bind (check_traced (hgrants.later hnow.later).clock (hfails.later hnow.later)
        fun e he harmed => ?_)
      have he := hnow.trans he
      refine Fixture.traced_bind (Fixture.traced_syscall (hgrants.clock _ he.later _ rfl) fun (t' : Nat) => ?_)
      have he' := he.push (rfl : (⟨.now, t'⟩ : Event).link = none)
      have hsleep : SocketLaw guard.deadline (e ++ [⟨.now, t'⟩]) (.sleep (min (ms 1) (until_ - t'))) :=
        .sleep ⟨e, rfl, harmed⟩ (Nat.min_le_left _ _)
      refine Fixture.traced_bind (Fixture.traced_syscall (hgrants.socket _ he'.later _ hsleep) fun reply => ?_)
      have hslept := he'.push (rfl : (⟨.sleep (min (ms 1) (until_ - t')), reply⟩ : Event).link = none)
      exact ih (hgrants.later hslept.later) (hfails.later hslept.later) fun more hmore =>
        hpost more (hslept.trans hmore)
    · exact check_traced (hgrants.later hnow.later).clock (hfails.later hnow.later) fun e he _ =>
        hpost e (hnow.trans he)

theorem pause_traced {Post : Unit → List LocalReceipt → List Event → Prop} (hgrants : Grants Law guard.deadline events)
    (hfails : Fails Err receipts events) (fuel duration : Nat)
    (hpost : ∀ events', Steady events events' → Post () receipts events') :
    (guard.pause fuel duration).Traced Law Err Post receipts events := by
  unfold Guard.pause
  refine Fixture.traced_bind (Fixture.traced_syscall (hgrants.clock _ List.prefix_rfl _ rfl) fun (t : Nat) => ?_)
  have hnow := (Steady.refl events).push (rfl : (⟨.now, t⟩ : Event).link = none)
  exact pause_until_traced (hgrants.later hnow.later) (hfails.later hnow.later) _ fuel fun e he =>
    hpost e (hnow.trans he)

theorem elapsed_ms_traced {Post : UInt64 → List LocalReceipt → List Event → Prop} (hgrants : Grants Law deadline events)
    (hpost : ∀ elapsed events', Steady events events' → Post elapsed receipts events') :
    guard.elapsed_ms.Traced Law Err Post receipts events := by
  unfold Guard.elapsed_ms
  refine Fixture.traced_bind (Fixture.traced_syscall (hgrants.clock _ List.prefix_rfl _ rfl) fun (t : Nat) => ?_)
  exact Fixture.traced_pure (hpost _ _ ((Steady.refl events).push rfl))

/-- An operation is tried again until it gets through, each time after a check. -/
theorem retry_traced {G : α → List Event → Prop} {Post : α → List LocalReceipt → List Event → Prop}
    {operation : Fixture (Except SocketError α)} (hgrants : Grants Law guard.deadline events)
    (hfails : Fails Err receipts events)
    (hop : ∀ later, Steady events later → Armed guard.deadline later →
      operation.Traced Law Err (Result G receipts later) receipts later)
    (fuel : Nat) (hpost : ∀ a events', events <+: events' → G a events' → Post a receipts events') :
    (guard.retry operation fuel).Traced Law Err Post receipts events := by
  induction fuel generalizing events with
  | zero => exact Fixture.traced_unfinished (hfails _ _ List.prefix_rfl blamed_unfinished)
  | succ fuel ih =>
    unfold Guard.retry
    refine Fixture.traced_bind (check_traced hgrants.clock hfails fun e he harmed => ?_)
    refine Fixture.traced_bind ((hop e he harmed).imp ?_)
    rintro result receipts' e' ⟨rfl, hlater, hok, herror⟩
    cases result with
    | ok a => exact Fixture.traced_pure (hpost a e' (he.later.trans hlater) (hok a rfl))
    | error error =>
      obtain ⟨hsteady, event, hmem, hfailed⟩ := herror error rfl
      have he' := he.trans hsteady
      dsimp only
      split
      · refine Fixture.traced_bind (pause_traced (hgrants.later he'.later) (hfails.later he'.later) fuel _
          fun more hmore => ?_)
        have hmore := he'.trans hmore
        exact ih (hgrants.later hmore.later) (hfails.later hmore.later)
          (fun later hlater => hop later (hmore.trans hlater))
          fun a last hlast => hpost a last (hmore.later.trans hlast)
      · exact Fixture.traced_fail (hfails _ _ he'.later (blamed_of_failed hmem hfailed))

/-- The result of a socket call. -/
theorem Result.of_event {G : α → List Event → Prop} {result : Except SocketError α} {event : Event}
    (hok : ∀ a, result = .ok a → G a (events ++ [event]))
    (herror : ∀ error, result = .error error → event.failed = some error) :
    Result G receipts events result receipts (events ++ [event]) :=
  ⟨rfl, List.prefix_append _ _, hok, fun error h => ⟨(Steady.refl events).push (link_of_failed (herror error h)),
    event, List.mem_append_right _ List.mem_cons_self, herror error h⟩⟩

theorem of_traced {G : α → List Event → Prop} {Post : α → List LocalReceipt → List Event → Prop}
    {x : Fixture (Except SocketError α)} (hfails : Fails Err receipts events)
    (hx : x.Traced Law Err (Result G receipts events) receipts events)
    (hpost : ∀ a events', events <+: events' → G a events' → Post a receipts events') :
    (Fixture.of x).Traced Law Err Post receipts events := by
  refine Fixture.traced_of (hx.imp ?_)
  rintro (error | a) _ e ⟨rfl, hlater, hok, herror⟩
  · obtain ⟨-, event, hmem, hfailed⟩ := herror error rfl
    exact hfails _ _ hlater (blamed_of_failed hmem hfailed)
  · exact hpost a e hlater (hok a rfl)

theorem set_nonblocking_traced {Post : Unit → List LocalReceipt → List Event → Prop}
    (hgrants : Grants Law deadline events)
    (hfails : Fails Err receipts events) (hown : Bound fd events ∨ Connected fd events)
    (hpost : ∀ events', Steady events events' → Post () receipts events') :
    (Fixture.of (.set_nonblocking fd)).Traced Law Err Post receipts events := by
  refine of_traced (G := fun _ e => Steady events e) hfails ?_ fun _ e _ he => hpost e he
  refine Fixture.traced_syscall (hgrants.socket _ List.prefix_rfl _ (.set_nonblocking hown)) fun reply => ?_
  exact .of_event (fun _ _ => (Steady.refl events).push rfl) fun error h => by subst h; rfl

theorem local_addr_traced {Post : SocketAddr → List LocalReceipt → List Event → Prop}
    (hgrants : Grants Law deadline events)
    (hfails : Fails Err receipts events) (hown : Bound fd events ∨ Connected fd events)
    (hpost : ∀ address events', events <+: events' → ⟨.local_addr fd, Except.ok address⟩ ∈ events' →
      links events' = links events ++ [.named fd address] → Post address receipts events') :
    (Fixture.of (.local_addr fd)).Traced Law Err Post receipts events := by
  refine of_traced (G := fun address e => ⟨.local_addr fd, Except.ok address⟩ ∈ e ∧
    links e = links events ++ [.named fd address])
    hfails ?_ fun address e he hnamed => hpost address e he hnamed.1 hnamed.2
  refine Fixture.traced_syscall (hgrants.socket _ List.prefix_rfl _ (.local_addr hown)) fun reply => ?_
  refine .of_event (fun address h => ?_) fun error h => by subst h; rfl
  subst h
  exact ⟨List.mem_append_right _ List.mem_cons_self, links_append _ _⟩

theorem connect_timeout_traced {Post : Fd → List LocalReceipt → List Event → Prop} {address : SocketAddr} {t : Nat}
    (hgrants : Grants Law deadline events) (hfails : Fails Err receipts events) (hheard : Heard address events)
    (htimed : Timed deadline t events)
    (hpost : ∀ sender timeout events', events <+: events' →
      ⟨.connect_timeout address timeout, Except.ok sender⟩ ∈ events' →
      links events' = links events ++ [.connected sender address] → Post sender receipts events') :
    (Fixture.of (.connect_timeout address (max (min (ms 10) (deadline - t)) 1000))).Traced Law Err Post receipts
      events := by
  refine of_traced (G := fun sender e => ⟨.connect_timeout address (max (min (ms 10) (deadline - t)) 1000),
    Except.ok sender⟩ ∈ e ∧ links e = links events ++ [.connected sender address])
    hfails ?_ fun sender e he hsender => hpost sender _ e he hsender.1 hsender.2
  refine Fixture.traced_syscall (hgrants.socket _ List.prefix_rfl _ (.connect_timeout hheard htimed rfl))
    fun reply => ?_
  refine .of_event (fun sender h => ?_) fun error h => by subst h; rfl
  subst h
  exact ⟨List.mem_append_right _ List.mem_cons_self, links_append _ _⟩

theorem write_bounded_traced {Post : Unit → List LocalReceipt → List Event → Prop} {sender accepted : Fd}
    (hgrants : Grants Law guard.deadline events) (hfails : Fails Err receipts events)
    (hpaired : Paired sender accepted events)
    (hend : fd = sender ∨ fd = accepted) (bytes : List UInt8) (fuel : Nat)
    (hpost : ∀ events', Steady events events' → Post () receipts events') :
    (write_bounded guard fd bytes fuel).Traced Law Err Post receipts events := by
  induction fuel generalizing events bytes with
  | zero => exact Fixture.traced_unfinished (hfails _ _ List.prefix_rfl blamed_unfinished)
  | succ fuel ih =>
    unfold write_bounded
    split
    · exact Fixture.traced_pure (hpost _ (.refl events))
    · refine Fixture.traced_bind (retry_traced (G := fun _ e => Steady events e) hgrants hfails
        (fun later hlater harmed => ?_) _
        fun count e _ he => ?_)
      · refine Fixture.traced_syscall (hgrants.socket _ hlater.later _
          (.write (hpaired.later hlater) hend harmed)) fun reply => ?_
        exact .of_event (fun _ _ => hlater.push rfl) fun error h => by subst h; rfl
      · refine Fixture.traced_bind (Fixture.traced_fail_if (fun _ => hfails _ _ he.later (blamed_of_kind nofun))
          fun _ => ?_)
        exact ih (hgrants.later he.later) (hfails.later he.later) (hpaired.later he) _ fun more hmore =>
          hpost more (he.trans hmore)

theorem traffic_append (events more : List Event) : traffic (events ++ more) = traffic events ++ traffic more :=
  List.filterMap_append

/-- Bytes that came in over a socket after the events. -/
def Arrived (events : List Event) (fd : Fd) (bytes : List UInt8) (events' : List Event) : Prop :=
  ∃ reads : List (List UInt8), reads.flatten = bytes ∧ (traffic events ++ reads.map (Traffic.read fd)).Sublist
    (traffic events')

theorem traffic_later (h : events <+: events') : (traffic events).Sublist (traffic events') := by
  obtain ⟨more, rfl⟩ := h
  rw [traffic_append]
  exact List.sublist_append_left _ _

theorem read_bounded_traced {Post : List UInt8 → List LocalReceipt → List Event → Prop} {sender accepted : Fd}
    (hgrants : Grants Law guard.deadline events) (hfails : Fails Err receipts events)
    (hpaired : Paired sender accepted events)
    (hend : fd = sender ∨ fd = accepted) (len fuel : Nat)
    (hpost : ∀ bytes events', Steady events events' → Arrived events fd bytes events' → Post bytes receipts events') :
    (read_bounded guard fd len fuel).Traced Law Err Post receipts events := by
  induction fuel generalizing events len Post with
  | zero => exact Fixture.traced_unfinished (hfails _ _ List.prefix_rfl blamed_unfinished)
  | succ fuel ih =>
    unfold read_bounded
    split
    · exact Fixture.traced_pure (hpost _ _ (.refl events) ⟨[], rfl, by simp⟩)
    · refine Fixture.traced_bind (retry_traced
        (G := fun buffer e => Steady events e ∧ (traffic events ++ [Traffic.read fd buffer.val]).Sublist
          (traffic e)) hgrants hfails
        (fun later hlater harmed => ?_) _ fun buffer e _ hread => ?_)
      · refine Fixture.traced_syscall (hgrants.socket _ hlater.later _ (.read (hpaired.later hlater) hend harmed))
          fun reply => ?_
        refine .of_event (fun buffer h => ⟨hlater.push rfl, ?_⟩) fun error h => by subst h; rfl
        subst h
        rw [traffic_append]
        exact (traffic_later hlater.later).append_right _
      · obtain ⟨he, hread⟩ := hread
        refine Fixture.traced_bind (Fixture.traced_fail_if (fun _ => hfails _ _ he.later (blamed_of_kind nofun))
          fun _ => ?_)
        refine Fixture.traced_bind (ih (hgrants.later he.later) (hfails.later he.later) (hpaired.later he) _ ?_)
        rintro bytes e' he' ⟨reads, hbytes, hreads⟩
        refine Fixture.traced_pure (hpost _ e' (he.trans he') ⟨buffer.val :: reads, by simp [hbytes], ?_⟩)
        have hfirst := (hread.append_right (reads.map (Traffic.read fd))).trans hreads
        simpa using hfirst

end

end asmodeus.runner
