import Mathlib.Algebra.Order.BigOperators.Group.List
import Asmodeus.Runner.ProcedureLocal.Sockets

open FileTree UnixPath
open asmodeus.dsl

namespace asmodeus.runner

/-- What a receipt tells, but for the time. -/
structure PlannedReceipt where
  protocol : String
  receiver : String
  bytes : Nat
  sha256 : String
  payload_kind : String
  deriving DecidableEq

def LocalReceipt.planned (receipt : LocalReceipt) : PlannedReceipt :=
  ⟨receipt.protocol, receipt.receiver, receipt.bytes, receipt.sha256, receipt.payload_kind⟩

section

variable (digest : List UInt8 → List UInt8) (config : LocalProcedureConfig)

/-- The receipt of a request. -/
def tcp_planned (receiver : SocketAddr) (index : Nat) : PlannedReceipt :=
  let payload := tcp_payload config.beacon config.positive index
  let request := tcp_request receiver config.attempt_id payload.1 payload.2.1
  ⟨"http", receiver.to_string, request.length, sha256 digest request, payload.2.2⟩

/-- The receipt of a query. -/
def dns_planned (address : SocketAddr) (index : Nat) : PlannedReceipt :=
  let packet := dns_query digest index config.positive config.attempt_id
  ⟨"dns", address.to_string, packet.length, sha256 digest packet, dns_payload_kind config.positive⟩

/-- Everything the attempt is to send, by the address of its receiver. -/
def local_plan (receiver : SocketAddr) : List PlannedReceipt :=
  if config.procedure_id = "http-beacon" ∨ config.procedure_id = "synthetic-transfer" then
    (List.range (tcp_count config)).map (tcp_planned digest config receiver)
  else if config.procedure_id = "dns-pattern" then
    (List.range (dns_count config)).map (dns_planned digest config receiver)
  else []

end

/-- The bytes of a receipt came in at a socket that the attempt has bound, from another socket of
its own. -/
inductive Backed (digest : List UInt8 → List UInt8) (events : List Event) (receipt : LocalReceipt) : Prop
  | http {receiver peer : SocketAddr} {sender accepted : Fd} {timeout : Nat} {reads : List (List UInt8)}
    (hheard : Heard receiver events) (hreceiver : receipt.receiver = receiver.to_string)
    (hsender : ⟨.connect_timeout receiver timeout, Except.ok sender⟩ ∈ events)
    (hpeer : ⟨.local_addr sender, Except.ok peer⟩ ∈ events)
    (htraffic : (Traffic.accepted accepted peer :: reads.map (Traffic.read accepted)).Sublist (traffic events))
    (hbytes : receipt.bytes = reads.flatten.length) (hsha256 : receipt.sha256 = sha256 digest reads.flatten)
  | dns {receiver : Fd} {address source : SocketAddr} {bytes : List UInt8}
    (hheard : Heard address events) (hreceiver : receipt.receiver = address.to_string)
    (hsource : Heard source events) (hbound : Bound receiver events)
    (htraffic : Traffic.received receiver bytes source ∈ traffic events)
    (hbytes : receipt.bytes = bytes.length) (hsha256 : receipt.sha256 = sha256 digest bytes)

/-- The receipts of the first exchanges of a plan, all of them backed and within the budget. -/
structure Receipted (digest : List UInt8 → List UInt8) (item : Nat → PlannedReceipt) (n : Nat)
    (receipts : List LocalReceipt) (events : List Event) : Prop where
  planned : receipts.map LocalReceipt.planned = (List.range n).map item
  backed : ∀ receipt ∈ receipts, Backed digest events receipt
  budget : (receipts.map LocalReceipt.bytes).sum ≤ 4096

section

variable {digest : List UInt8 → List UInt8} {config : LocalProcedureConfig} {Law : List Event → Syscall → Prop}
  {Err : Failure → List LocalReceipt → List Event → Prop} {guard : Guard} {events events' : List Event}
  {receipts : List LocalReceipt} {receipt : LocalReceipt} {item : Nat → PlannedReceipt} {n count : Nat}

theorem Backed.later (h : Backed digest events receipt) (hlater : events <+: events') :
    Backed digest events' receipt := by
  cases h with
  | http hheard hreceiver hsender hpeer htraffic hbytes hsha256 =>
    exact .http (hheard.later hlater) hreceiver (hlater.mem hsender) (hlater.mem hpeer)
      (htraffic.trans (traffic_later hlater)) hbytes hsha256
  | dns hheard hreceiver hsource hbound htraffic hbytes hsha256 =>
    exact .dns (hheard.later hlater) hreceiver (hsource.later hlater) (hbound.later hlater)
      ((traffic_later hlater).mem htraffic) hbytes hsha256

theorem Receipted.later (h : Receipted digest item n receipts events) (hlater : events <+: events') :
    Receipted digest item n receipts events' :=
  ⟨h.planned, fun receipt hmem => (h.backed receipt hmem).later hlater, h.budget⟩

theorem Receipted.nil (digest : List UInt8 → List UInt8) (item : Nat → PlannedReceipt) (events : List Event) :
    Receipted digest item 0 [] events := ⟨rfl, nofun, Nat.zero_le _⟩

/-- One more receipt. -/
theorem Receipted.push (h : Receipted digest item n receipts events) (hplanned : receipt.planned = item n)
    (hbacked : Backed digest events receipt) (hbudget : (receipts.map LocalReceipt.bytes).sum + receipt.bytes ≤ 4096) :
    Receipted digest item (n + 1) (receipts ++ [receipt]) events where
  planned := by rw [List.map_append, h.planned, List.range_succ, List.map_append, List.map_singleton,
    List.map_singleton, hplanned]
  backed r hr := by
    rcases List.mem_append.mp hr with hr | hr
    · exact h.backed r hr
    · exact List.mem_singleton.mp hr ▸ hbacked
  budget := by
    rw [List.map_append, List.sum_append, List.map_singleton, List.sum_singleton]
    exact hbudget

/-- What is left behind by a fixture that fails, somewhere in its plan. -/
def Stops (Err : Failure → List LocalReceipt → List Event → Prop) (digest : List UInt8 → List UInt8)
    (item : Nat → PlannedReceipt) (count : Nat) (events : List Event) : Prop :=
  ∀ failure n receipts events', n ≤ count → events <+: events' → Receipted digest item n receipts events' →
    Blamed failure events' → Err failure receipts events'

theorem Stops.fails (h : Stops Err digest item count events) (hn : n ≤ count) (hlater : events <+: events')
    (hreceipted : Receipted digest item n receipts events') : Fails Err receipts events' :=
  fun failure more hmore hblamed => h failure n receipts more hn (hlater.trans hmore) (hreceipted.later hmore) hblamed

/-- The exchanges of a plan in turn. -/
theorem exchanges_traced {Post : Unit → List LocalReceipt → List Event → Prop} {exchange : Nat → Fixture Unit}
    {fuel : Nat}
    (hgrants : Grants Law guard.deadline events) (hstops : Stops Err digest item count events)
    (hexchange : ∀ n receipts later, n < count → events <+: later → Receipted digest item n receipts later →
      (exchange n).Traced Law Err (fun _ receipts events' => Receipted digest item (n + 1) receipts events' ∧
        later <+: events')
        receipts later)
    (hpost : ∀ receipts events', events <+: events' → Receipted digest item count receipts events' →
      Post () receipts events')
    (hn : n ≤ count) (hreceipted : Receipted digest item n receipts events) :
    (exchanges guard fuel exchange count (List.range' n (count - n))).Traced Law Err Post receipts events := by
  obtain ⟨left, rfl⟩ := Nat.exists_eq_add_of_le hn
  rw [Nat.add_sub_cancel_left]
  induction left generalizing n receipts events with
  | zero => exact Fixture.traced_pure (hpost receipts events List.prefix_rfl hreceipted)
  | succ left ih =>
    rw [List.range'_succ]
    unfold exchanges
    refine Fixture.traced_bind ((hexchange n receipts events (by omega) List.prefix_rfl hreceipted).imp ?_)
    rintro _ receipts' e ⟨hreceipted', he⟩
    have hrest {later : List Event} (hlater : e <+: later) :
        (exchanges guard fuel exchange (n + (left + 1)) (List.range' (n + 1) left)).Traced Law Err Post receipts'
          later := by
      have hall := he.trans hlater
      have hcount : n + (left + 1) = n + 1 + left := by omega
      rw [hcount] at hstops hexchange hpost ⊢
      exact ih (hgrants.later hall) (hreceipted'.later hlater)
        (fun failure m r e' hm he' => hstops failure m r e' hm (hall.trans he'))
        (fun m r e' hm he' => hexchange m r e' hm (hall.trans he')) (fun r e' he' => hpost r e' (hall.trans he'))
          (by omega)
    refine Fixture.traced_bind ?_
    split
    · exact pause_traced (hgrants.later he) (hstops.fails (by omega) he hreceipted') fuel _ fun later hlater =>
        hrest hlater.later
    · exact Fixture.traced_pure (hrest List.prefix_rfl)

/-- All exchanges of a plan. -/
theorem all_exchanges_traced {Post : Unit → List LocalReceipt → List Event → Prop} {exchange : Nat → Fixture Unit}
    {fuel : Nat}
    (hgrants : Grants Law guard.deadline events) (hstops : Stops Err digest item count events)
    (hexchange : ∀ n receipts later, n < count → events <+: later → Receipted digest item n receipts later →
      (exchange n).Traced Law Err (fun _ receipts events' => Receipted digest item (n + 1) receipts events' ∧
        later <+: events')
        receipts later)
    (hpost : ∀ receipts events', events <+: events' → Receipted digest item count receipts events' →
      Post () receipts events') :
    (exchanges guard fuel exchange count (List.range count)).Traced Law Err Post [] events := by
  have hall := @exchanges_traced digest Law Err guard events [] item 0 count Post exchange fuel hgrants hstops
    hexchange hpost
    (Nat.zero_le _) (.nil ..)
  rwa [Nat.sub_zero, ← List.range_eq_range'] at hall

/-- A connection is accepted, once there is one. -/
theorem accept_traced {Post : Fd × SocketAddr → List LocalReceipt → List Event → Prop} {listener : Fd}
    (hgrants : Grants Law guard.deadline events) (hfails : Fails Err receipts events) (hbound : Bound listener events)
    (fuel : Nat)
    (hpost : ∀ accepted peer events', events <+: events' →
      ⟨.accept listener, Except.ok (accepted, peer)⟩ ∈ events' →
      (traffic events ++ [Traffic.accepted accepted peer]).Sublist (traffic events') →
      links events' = links events ++ [.accepted accepted peer] → Post (accepted, peer) receipts events') :
    (guard.retry (.accept listener) fuel).Traced Law Err Post receipts events := by
  refine retry_traced (G := fun accepted e => ⟨.accept listener, Except.ok accepted⟩ ∈ e ∧
      (traffic events ++ [Traffic.accepted accepted.1 accepted.2]).Sublist (traffic e) ∧
      links e = links events ++ [.accepted accepted.1 accepted.2]) hgrants hfails
    (fun later hlater harmed => ?_) fuel
    fun accepted e he haccepted => hpost accepted.1 accepted.2 e he haccepted.1 haccepted.2.1 haccepted.2.2
  have hlaw : SocketLaw guard.deadline later (.accept listener) := .accept (hbound.later hlater.later) harmed
  refine Fixture.traced_syscall (hgrants.socket _ hlater.later _ hlaw) fun reply => ?_
  refine .of_event (fun accepted h => ?_) fun error h => by subst h; rfl
  subst h
  refine ⟨List.mem_append_right _ List.mem_cons_self, ?_, ?_⟩
  · rw [traffic_append]
    exact (traffic_later hlater.later).append_right _
  · rw [links_append, hlater.same]
    rfl

/-- The response, all of which must come back. -/
theorem tcp_response_traced {Post : Unit → List LocalReceipt → List Event → Prop} {sender accepted : Fd}
    (hgrants : Grants Law guard.deadline events) (hfails : Fails Err receipts events)
    (hpaired : Paired sender accepted events) (fuel : Nat)
    (hpost : ∀ events', events <+: events' → Post () receipts events') :
    (do
      write_bounded guard accepted TCP_RESPONSE fuel
      let received_response ← read_bounded guard sender TCP_RESPONSE.length fuel
      Fixture.fail_if (received_response ≠ TCP_RESPONSE)
        (.invalid "HTTP fixture response mismatch") : Fixture Unit).Traced Law Err Post receipts events := by
  refine Fixture.traced_bind (write_bounded_traced hgrants hfails hpaired (Or.inr rfl) _ fuel fun e he => ?_)
  refine Fixture.traced_bind (read_bounded_traced (hgrants.later he.later) (hfails.later he.later) (hpaired.later he)
    (Or.inl rfl) _ fuel fun response e' he' _ => ?_)
  have hend := (he.trans he').later
  exact Fixture.traced_fail_if (fun _ => hfails _ _ hend (blamed_of_kind nofun)) fun _ => hpost e' hend

theorem tcp_exchange_traced {listener : Fd} {receiver : SocketAddr} {fuel : Nat}
    (hgrants : Grants Law guard.deadline events)
    (hbound : Bound listener events) (hheard : Heard receiver events)
    (hstops : Stops Err digest (tcp_planned digest config receiver) count events) (hn : n < count)
    (hreceipted : Receipted digest (tcp_planned digest config receiver) n receipts events) :
    (tcp_exchange digest config guard fuel listener receiver n).Traced Law Err
      (fun _ receipts events' => Receipted digest (tcp_planned digest config receiver) (n + 1) receipts events' ∧
        events <+: events')
      receipts events := by
  have hfails {e : List Event} (he : events <+: e) : Fails Err receipts e :=
    hstops.fails (Nat.le_of_lt hn) he (hreceipted.later he)
  unfold tcp_exchange
  refine Fixture.traced_bind (check_traced hgrants.clock (hfails List.prefix_rfl) fun e₁ he₁ harmed => ?_)
  have he₁ := he₁.later
  dsimp only
  refine Fixture.traced_bind (Fixture.traced_get ?_)
  refine Fixture.traced_bind (Fixture.traced_fail_if
    (fun _ => hfails he₁ _ _ List.prefix_rfl (blamed_of_kind nofun)) fun hbudget => ?_)
  refine Fixture.traced_bind (Fixture.traced_syscall (hgrants.clock _ he₁ _ rfl) fun (t : Nat) => ?_)
  have he₂ := he₁.trans (List.prefix_append _ [(⟨.now, t⟩ : Event)])
  -- The connection: its sender is connected, and the peer that is accepted must be the sender.
  refine Fixture.traced_bind (connect_timeout_traced (hgrants.later he₂) (hfails he₂) (hheard.later he₂)
    ⟨e₁, rfl, harmed⟩ fun sender timeout e₃ he₃ hsender hlinks₃ => ?_)
  have he₃ := he₂.trans he₃
  have hconnected : Connected sender e₃ := Or.inl ⟨receiver, timeout, hsender⟩
  refine Fixture.traced_bind (set_nonblocking_traced (hgrants.later he₃) (hfails he₃) (Or.inr hconnected)
    fun e₄ hsteady₄ => ?_)
  have he₄ := hsteady₄.later
  have hall₄ := he₃.trans he₄
  refine Fixture.traced_bind (local_addr_traced (hgrants.later hall₄) (hfails hall₄) (Or.inr (hconnected.later he₄))
    fun source e₅ he₅ hsource hlinks₅ => ?_)
  have hall₅ := hall₄.trans he₅
  refine Fixture.traced_bind (accept_traced (hgrants.later hall₅) (hfails hall₅) (hbound.later hall₅) fuel
    fun accepted peer e₆ he₆ hmem htraffic hlinks₆ => ?_)
  have hall₆ := hall₅.trans he₆
  have hreached : Connected accepted e₆ := Or.inr ⟨listener, peer, hmem⟩
  dsimp only
  refine Fixture.traced_bind (set_nonblocking_traced (hgrants.later hall₆) (hfails hall₆) (Or.inr hreached)
    fun e₇ hsteady₇ => ?_)
  have he₇ := hsteady₇.later
  have hall₇ := hall₆.trans he₇
  refine Fixture.traced_bind (Fixture.traced_fail_if
    (fun _ => hfails hall₇ _ _ List.prefix_rfl (blamed_of_kind nofun)) fun hpeer => ?_)
  obtain rfl : peer = source := not_not.mp hpeer
  have hpaired : Paired sender accepted e₇ := by
    refine ⟨links (e₁ ++ [⟨.now, t⟩]), receiver, peer, hheard.later hall₇, ?_⟩
    rw [hsteady₇.same, hlinks₆, hlinks₅, hsteady₄.same, hlinks₃]
    simp
  -- The request, all of which must come in.
  refine Fixture.traced_bind (write_bounded_traced (hgrants.later hall₇) (hfails hall₇) hpaired (Or.inl rfl) _ fuel
    fun e₈ hsteady₈ => ?_)
  have he₈ := hsteady₈.later
  have hall₈ := hall₇.trans he₈
  refine Fixture.traced_bind (read_bounded_traced (hgrants.later hall₈) (hfails hall₈) (hpaired.later hsteady₈)
    (Or.inr rfl) _ fuel fun actual e₉ hsteady₉ harrived => ?_)
  have he₉ := hsteady₉.later
  have hall₉ := hall₈.trans he₉
  refine Fixture.traced_bind (Fixture.traced_fail_if
    (fun _ => hfails hall₉ _ _ List.prefix_rfl (blamed_of_kind nofun)) fun hactual => ?_)
  have hactual := not_not.mp hactual
  refine Fixture.traced_bind (elapsed_ms_traced (hgrants.later hall₉) fun elapsed e hsteady => ?_)
  have hlast := hsteady.later
  have hall := hall₉.trans hlast
  obtain ⟨reads, hreads, hsublist⟩ := harrived
  have hpushed : Receipted digest (tcp_planned digest config receiver) (n + 1)
      (receipts ++ [⟨"http", receiver.to_string, elapsed,
      actual.length, sha256 digest actual, (tcp_payload config.beacon config.positive n).2.2⟩]) e := by
    refine (hreceipted.later hall).push ?_ ?_ ?_
    · rw [hactual]
      rfl
    · have hlater := he₉.trans hlast
      refine @Backed.http digest e _ receiver peer sender accepted timeout reads (hheard.later hall) rfl
        ((he₄.trans (he₅.trans (he₆.trans (he₇.trans (he₈.trans hlater))))).mem hsender)
        ((he₆.trans (he₇.trans (he₈.trans hlater))).mem hsource) ?_ (congrArg List.length hreads.symm)
        (congrArg (sha256 digest) hreads.symm)
      have hfirst := (List.sublist_append_right (traffic e₅) _).trans (htraffic.trans (traffic_later (he₇.trans he₈)))
      exact ((hfirst.append_right _).trans hsublist).trans (traffic_later hlast)
    · have hfits := (not_or.mp hbudget).2
      rw [hactual]
      exact Nat.not_lt.mp hfits
  -- The receipt stays, whatever becomes of the response.
  refine Fixture.traced_bind (Fixture.traced_push ?_)
  have hrest {later : List Event} (hlater : e <+: later) : Fails Err _ later :=
    hstops.fails hn (hall.trans hlater) (hpushed.later hlater)
  exact tcp_response_traced (hgrants.later hall) (hrest List.prefix_rfl)
    (hpaired.later (hsteady₈.trans (hsteady₉.trans hsteady))) fuel
    fun f hf => ⟨hpushed.later hf, hall.trans hf⟩

theorem dns_label_lengths : (∀ index < 4, ∀ positive : Bool,
      (utf8 (if positive then "beacon" ++ toString index else "health")).length ≤ 7) ∧
    (utf8 "fixture").length = 7 ∧ (utf8 "test").length = 4 := by
  decide +kernel

theorem dns_query_length (digest : List UInt8 → List UInt8) (attempt_id : String) {index : Nat} (positive : Bool)
    (hindex : index < 4) : (dns_query digest index positive attempt_id).length ≤ 55 := by
  have htoken : ((utf8 (sha256 digest (utf8 attempt_id))).take 16).length ≤ 16 := List.length_take_le ..
  obtain ⟨hlabel, hfixture, htest⟩ := dns_label_lengths
  have hlabel := hlabel index hindex positive
  simp only [dns_query, dns_label, List.length_append, List.flatMap_cons, List.flatMap_nil, List.length_cons,
    List.length_nil]
  omega

theorem dns_count_le (config : LocalProcedureConfig) : dns_count config ≤ 4 := by
  unfold dns_count
  split <;> omega

/-- The queries fit into the budget. -/
theorem Receipted.dns_budget {address : SocketAddr}
    (h : Receipted digest (dns_planned digest config address) n receipts events)
    (hn : n < dns_count config) :
    (receipts.map LocalReceipt.bytes).sum + (dns_query digest n config.positive config.attempt_id).length ≤ 4096 := by
  have hcount := dns_count_le config
  have hbytes : receipts.map LocalReceipt.bytes =
      (List.range n).map fun index => (dns_query digest index config.positive config.attempt_id).length := by
    have hplanned := congrArg (List.map PlannedReceipt.bytes) h.planned
    rw [List.map_map, List.map_map] at hplanned
    exact hplanned
  have hsum : (receipts.map LocalReceipt.bytes).sum ≤ (receipts.map LocalReceipt.bytes).length • 55 := by
    refine List.sum_le_card_nsmul _ 55 fun length hlength => ?_
    rw [hbytes] at hlength
    obtain ⟨index, hindex, rfl⟩ := List.mem_map.mp hlength
    have hlt := List.mem_range.mp hindex
    exact dns_query_length digest _ _ (by omega)
  have hlength : (receipts.map LocalReceipt.bytes).length = n := by rw [hbytes, List.length_map, List.length_range]
  have hlast := dns_query_length digest config.attempt_id config.positive (by omega : n < 4)
  rw [hlength, Nat.nsmul_eq_mul] at hsum
  omega

theorem send_to_traced {fd : Fd} {address : SocketAddr} {bytes : List UInt8} {fuel : Nat}
    {Post : Fin (bytes.length + 1) → List LocalReceipt → List Event → Prop} (hgrants : Grants Law guard.deadline events)
    (hfails : Fails Err receipts events) (hbound : Bound fd events) (hheard : Heard address events)
    (hpost : ∀ sent events', events <+: events' → Post sent receipts events') :
    (guard.retry (.send_to fd bytes address) fuel).Traced Law Err Post receipts events := by
  refine retry_traced (G := fun _ _ => True) hgrants hfails (fun later hlater harmed => ?_) fuel
    fun sent e he _ => hpost sent e he
  have hlaw : SocketLaw guard.deadline later (.send_to fd bytes address) :=
    .send_to (hbound.later hlater.later) (hheard.later hlater.later) harmed
  refine Fixture.traced_syscall (hgrants.socket _ hlater.later _ hlaw) fun reply => ?_
  exact .of_event (fun _ _ => trivial) fun error h => by subst h; rfl

theorem recv_from_traced {fd : Fd} {fuel : Nat}
    {Post : Buffer 4096 × SocketAddr → List LocalReceipt → List Event → Prop}
    (hgrants : Grants Law guard.deadline events) (hfails : Fails Err receipts events) (hbound : Bound fd events)
    (hpost : ∀ received events', events <+: events' →
      Traffic.received fd received.1.val received.2 ∈ traffic events' → Post received receipts events') :
    (guard.retry (.recv_from fd 4096) fuel).Traced Law Err Post receipts events := by
  refine retry_traced (G := fun received e => Traffic.received fd received.1.val received.2 ∈ traffic e) hgrants hfails
    (fun later hlater harmed => ?_) fuel hpost
  refine Fixture.traced_syscall (hgrants.socket _ hlater.later _ (.recv_from (hbound.later hlater.later) harmed))
    fun reply => ?_
  refine .of_event (fun received h => ?_) fun error h => by subst h; rfl
  subst h
  rw [traffic_append]
  exact List.mem_append_right _ List.mem_cons_self

theorem dns_exchange_traced {receiver sender : Fd} {address source : SocketAddr} {fuel : Nat}
    (hgrants : Grants Law guard.deadline events) (hreceiver : Bound receiver events) (hsender : Bound sender events)
    (haddress : Heard address events) (hsource : Heard source events)
    (hstops : Stops Err digest (dns_planned digest config address) (dns_count config) events)
    (hn : n < dns_count config)
    (hreceipted : Receipted digest (dns_planned digest config address) n receipts events) :
    (dns_exchange digest config guard fuel receiver sender address source n).Traced Law Err
      (fun _ receipts events' => Receipted digest (dns_planned digest config address) (n + 1) receipts events' ∧
        events <+: events')
      receipts events := by
  have hfails {e : List Event} (he : events <+: e) : Fails Err receipts e :=
    hstops.fails (Nat.le_of_lt hn) he (hreceipted.later he)
  unfold dns_exchange
  dsimp only
  refine Fixture.traced_bind (send_to_traced hgrants (hfails List.prefix_rfl) hsender haddress fun sent e₁ he₁ => ?_)
  refine Fixture.traced_bind (Fixture.traced_fail_if
    (fun _ => hfails he₁ _ _ List.prefix_rfl (blamed_of_kind nofun)) fun _ => ?_)
  refine Fixture.traced_bind (recv_from_traced (hgrants.later he₁) (hfails he₁) (hreceiver.later he₁)
    fun received e₂ he₂ htraffic => ?_)
  obtain ⟨buffer, peer⟩ := received
  have hall₂ := he₁.trans he₂
  dsimp only at htraffic ⊢
  refine Fixture.traced_bind (Fixture.traced_fail_if
    (fun _ => hfails hall₂ _ _ List.prefix_rfl (blamed_of_kind nofun)) fun hsame => ?_)
  obtain ⟨hpeer, hbuffer⟩ := not_or.mp hsame
  obtain rfl : peer = source := not_not.mp hpeer
  have hbuffer := not_not.mp hbuffer
  refine Fixture.traced_bind (elapsed_ms_traced (hgrants.later hall₂) fun elapsed e hsteady => ?_)
  have he := hsteady.later
  have hall := hall₂.trans he
  have hpushed : Receipted digest (dns_planned digest config address) (n + 1)
      (receipts ++ [⟨"dns", address.to_string, elapsed,
      buffer.val.length, sha256 digest buffer.val, dns_payload_kind config.positive⟩]) e := by
    refine (hreceipted.later hall).push ?_ ?_ ?_
    · rw [hbuffer]
      rfl
    · exact .dns (haddress.later hall) rfl (hsource.later hall) (hreceiver.later hall)
        ((traffic_later he).mem htraffic) rfl rfl
    · rw [hbuffer]
      exact hreceipted.dns_budget hn
  refine Fixture.traced_bind (Fixture.traced_push ?_)
  have hrest {later : List Event} (hlater : e <+: later) : Fails Err _ later :=
    hstops.fails hn (hall.trans hlater) (hpushed.later hlater)
  refine Fixture.traced_bind (send_to_traced (hgrants.later hall) (hrest List.prefix_rfl) (hreceiver.later hall)
    (hsource.later hall) fun _ f₁ hf₁ => ?_)
  refine Fixture.traced_bind (recv_from_traced (hgrants.later (hall.trans hf₁)) (hrest hf₁)
    (hsender.later (hall.trans hf₁))
    fun received f₂ hf₂ _ => ?_)
  obtain ⟨buffer', peer'⟩ := received
  refine Fixture.traced_fail_if (fun _ => hrest (hf₁.trans hf₂) _ _ List.prefix_rfl (blamed_of_kind nofun)) fun _ => ?_
  exact ⟨hpushed.later (hf₁.trans hf₂), hall.trans (hf₁.trans hf₂)⟩

theorem tcp_fixture_traced {fuel : Nat} {Post : Bool → List LocalReceipt → List Event → Prop}
    (hgrants : Grants Law guard.deadline events)
    (hstops : ∀ receiver, Stops Err digest (tcp_planned digest config receiver) (tcp_count config) events)
    (hpost : ∀ receiver receipts events', events <+: events' →
      Receipted digest (tcp_planned digest config receiver) (tcp_count config) receipts events' →
        Post true receipts events') :
    (tcp_fixture digest config guard fuel).Traced Law Err Post [] events := by
  have hfails {e : List Event} (he : events <+: e) : Fails Err [] e :=
    (hstops .ephemeral).fails (Nat.zero_le _) he (.nil ..)
  unfold tcp_fixture
  refine Fixture.traced_bind (check_traced hgrants.clock (hfails List.prefix_rfl) fun e₁ hsteady₁ _ => ?_)
  have he₁ := hsteady₁.later
  refine Fixture.traced_bind (of_traced (G := fun fd e => Bound fd e) (hfails he₁) ?_ fun listener e₂ he₂ hbound => ?_)
  · refine Fixture.traced_syscall (hgrants.socket _ he₁ _ .tcp_bind) fun reply => ?_
    exact .of_event (fun fd h => by subst h; exact Or.inl (List.mem_append_right _ List.mem_cons_self))
      fun error h => by subst h; rfl
  have hall₂ := he₁.trans he₂
  refine Fixture.traced_bind (set_nonblocking_traced (hgrants.later hall₂) (hfails hall₂) (Or.inl hbound)
    fun e₃ hsteady₃ => ?_)
  have he₃ := hsteady₃.later
  have hall₃ := hall₂.trans he₃
  refine Fixture.traced_bind (local_addr_traced (hgrants.later hall₃) (hfails hall₃) (Or.inl (hbound.later he₃))
    fun receiver e₄ he₄ haddress _ => ?_)
  have hall₄ := hall₃.trans he₄
  have hheard : Heard receiver e₄ := ⟨listener, hbound.later (he₃.trans he₄), haddress⟩
  have hstops₄ : Stops Err digest (tcp_planned digest config receiver) (tcp_count config) e₄ :=
    fun failure n r e hn he => hstops receiver failure n r e hn (hall₄.trans he)
  refine Fixture.traced_bind (all_exchanges_traced (hgrants.later hall₄) hstops₄
    (fun n r later hn hlater hreceipted => ?_)
    fun r e he hreceipted => ?_)
  · exact tcp_exchange_traced ((hgrants.later hall₄).later hlater) (hbound.later (he₃.trans (he₄.trans hlater)))
      (hheard.later hlater) (fun failure n r e hn he => hstops₄ failure n r e hn (hlater.trans he)) hn hreceipted
  · have hall := hall₄.trans he
    refine Fixture.traced_bind (check_traced (hgrants.later hall).clock
      ((hstops receiver).fails (Nat.le_refl _) hall hreceipted)
      fun e' he' _ => ?_)
    exact Fixture.traced_pure (hpost receiver r e' (hall.trans he'.later) (hreceipted.later he'.later))

theorem udp_bind_traced {Post : Fd → List LocalReceipt → List Event → Prop} (hgrants : Grants Law guard.deadline events)
    (hfails : Fails Err receipts events)
    (hpost : ∀ fd events', events <+: events' → Bound fd events' → Post fd receipts events') :
    (Fixture.of (.udp_bind .ephemeral)).Traced Law Err Post receipts events := by
  refine of_traced (G := fun fd e => Bound fd e) hfails ?_ hpost
  refine Fixture.traced_syscall (hgrants.socket _ List.prefix_rfl _ .udp_bind) fun reply => ?_
  exact .of_event (fun fd h => by subst h; exact Or.inr (List.mem_append_right _ List.mem_cons_self))
    fun error h => by subst h; rfl

theorem dns_fixture_traced {fuel : Nat} {Post : Bool → List LocalReceipt → List Event → Prop}
    (hgrants : Grants Law guard.deadline events)
    (hstops : ∀ address, Stops Err digest (dns_planned digest config address) (dns_count config) events)
    (hpost : ∀ address receipts events', events <+: events' →
      Receipted digest (dns_planned digest config address) (dns_count config) receipts events' →
        Post true receipts events') :
    (dns_fixture digest config guard fuel).Traced Law Err Post [] events := by
  have hfails {e : List Event} (he : events <+: e) : Fails Err [] e :=
    (hstops .ephemeral).fails (Nat.zero_le _) he (.nil ..)
  unfold dns_fixture
  refine Fixture.traced_bind (check_traced hgrants.clock (hfails List.prefix_rfl) fun e₁ hsteady₁ _ => ?_)
  have he₁ := hsteady₁.later
  refine Fixture.traced_bind (udp_bind_traced (hgrants.later he₁) (hfails he₁) fun receiver e₂ he₂ hreceiver => ?_)
  have hall₂ := he₁.trans he₂
  refine Fixture.traced_bind (udp_bind_traced (hgrants.later hall₂) (hfails hall₂) fun sender e₃ he₃ hsender => ?_)
  have hall₃ := hall₂.trans he₃
  have hreceiver := hreceiver.later he₃
  refine Fixture.traced_bind (set_nonblocking_traced (hgrants.later hall₃) (hfails hall₃) (Or.inl hreceiver)
    fun e₄ hsteady₄ => ?_)
  have he₄ := hsteady₄.later
  have hall₄ := hall₃.trans he₄
  refine Fixture.traced_bind (set_nonblocking_traced (hgrants.later hall₄) (hfails hall₄) (Or.inl (hsender.later he₄))
    fun e₅ hsteady₅ => ?_)
  have he₅ := hsteady₅.later
  have hall₅ := hall₄.trans he₅
  refine Fixture.traced_bind (local_addr_traced (hgrants.later hall₅) (hfails hall₅)
    (Or.inl (hreceiver.later (he₄.trans he₅)))
    fun address e₆ he₆ haddress _ => ?_)
  have hall₆ := hall₅.trans he₆
  have hsince := he₄.trans (he₅.trans he₆)
  refine Fixture.traced_bind (local_addr_traced (hgrants.later hall₆) (hfails hall₆) (Or.inl (hsender.later hsince))
    fun source e₇ he₇ hsource _ => ?_)
  have hall₇ := hall₆.trans he₇
  have hreceiver := hreceiver.later (hsince.trans he₇)
  have hsender := hsender.later (hsince.trans he₇)
  have haddress : Heard address e₇ := ⟨receiver, hreceiver, he₇.mem haddress⟩
  have hsource : Heard source e₇ := ⟨sender, hsender, hsource⟩
  have hstops₇ : Stops Err digest (dns_planned digest config address) (dns_count config) e₇ :=
    fun failure n r e hn he => hstops address failure n r e hn (hall₇.trans he)
  refine Fixture.traced_bind (all_exchanges_traced (hgrants.later hall₇) hstops₇
    (fun n r later hn hlater hreceipted => ?_)
    fun r e he hreceipted => ?_)
  · exact dns_exchange_traced ((hgrants.later hall₇).later hlater) (hreceiver.later hlater) (hsender.later hlater)
      (haddress.later hlater) (hsource.later hlater) (fun failure n r e hn he =>
        hstops₇ failure n r e hn (hlater.trans he)) hn
      hreceipted
  · have hall := hall₇.trans he
    refine Fixture.traced_bind (check_traced (hgrants.later hall).clock
      ((hstops address).fails (Nat.le_refl _) hall hreceipted)
      fun e' he' _ => ?_)
    exact Fixture.traced_pure (hpost address r e' (hall.trans he'.later) (hreceipted.later he'.later))

/-- The receipts of an attempt: those of the first of its exchanges. -/
structure Accounted (digest : List UInt8 → List UInt8) (config : LocalProcedureConfig) (receipts : List LocalReceipt)
    (events : List Event) : Prop where
  planned : ∃ receiver, receipts.map LocalReceipt.planned <+: local_plan digest config receiver
  backed : ∀ receipt ∈ receipts, Backed digest events receipt
  budget : (receipts.map LocalReceipt.bytes).sum ≤ 4096

theorem Accounted.later (h : Accounted digest config receipts events) (hlater : events <+: events') :
    Accounted digest config receipts events' :=
  ⟨h.planned, fun receipt hmem => (h.backed receipt hmem).later hlater, h.budget⟩

theorem Accounted.nil (digest : List UInt8 → List UInt8) (config : LocalProcedureConfig) (events : List Event) :
    Accounted digest config [] events := ⟨⟨.ephemeral, List.nil_prefix⟩, nofun, Nat.zero_le _⟩

theorem Receipted.accounted {receiver : SocketAddr} (h : Receipted digest item n receipts events) (hn : n ≤ count)
    (hplan : local_plan digest config receiver = (List.range count).map item) :
      Accounted digest config receipts events := by
  refine ⟨⟨receiver, ?_⟩, h.backed, h.budget⟩
  rw [h.planned, hplan]
  obtain ⟨left, rfl⟩ := Nat.exists_eq_add_of_le hn
  rw [List.range_add, List.map_append]
  exact List.prefix_append _ _

/-- The slot has a fixture. -/
def LocalProcedureConfig.supported (config : LocalProcedureConfig) : Bool :=
  decide (config.procedure_id = "http-beacon") || decide (config.procedure_id = "synthetic-transfer") ||
    decide (config.procedure_id = "dns-pattern")

/-- What a fixture ends with. -/
structure Concluded (digest : List UInt8 → List UInt8) (config : LocalProcedureConfig) (executed : Bool)
    (receipts : List LocalReceipt) (events : List Event) : Prop where
  accounted : Accounted digest config receipts events
  supported : executed = config.supported
  complete : executed = true → ∃ receiver, receipts.map LocalReceipt.planned = local_plan digest config receiver
  none : executed = false → receipts = []

theorem local_fixture_traced (digest : List UInt8 → List UInt8) (guard : Guard) (fuel : Nat) (hticks : Ticks Law events)
    (hgrants : config.supported = true → Grants Law guard.deadline events) :
    (local_fixture digest config guard fuel).Traced Law
      (fun failure receipts events' => Accounted digest config receipts events' ∧ Blamed failure events')
      (fun executed receipts events' => Concluded digest config executed receipts events') [] events := by
  unfold local_fixture
  refine Fixture.traced_bind (check_traced hticks (fun failure later _ hblamed => ⟨.nil .., hblamed⟩)
    fun e₁ hsteady₁ _ => ?_)
  have he₁ := hsteady₁.later
  split
  · rename_i htcp
    have hplan (receiver : SocketAddr) : local_plan digest config receiver =
        (List.range (tcp_count config)).map (tcp_planned digest config receiver) := if_pos htcp
    have hsupported : config.supported = true := by
      unfold LocalProcedureConfig.supported
      rcases htcp with h | h <;> simp [h]
    refine tcp_fixture_traced ((hgrants hsupported).later he₁)
      (fun receiver failure n r e hn _ hreceipted hblamed => ⟨hreceipted.accounted hn (hplan receiver), hblamed⟩)
      fun receiver r e _ hreceipted => ⟨hreceipted.accounted (Nat.le_refl _) (hplan receiver), hsupported.symm,
        fun _ => ⟨receiver, hreceipted.planned.trans (hplan receiver).symm⟩, nofun⟩
  · rename_i htcp
    split
    · rename_i hdns
      have hplan (receiver : SocketAddr) : local_plan digest config receiver =
          (List.range (dns_count config)).map (dns_planned digest config receiver) := by
        rw [local_plan, if_neg htcp, if_pos hdns]
      have hsupported : config.supported = true := by simp [LocalProcedureConfig.supported, hdns]
      refine dns_fixture_traced ((hgrants hsupported).later he₁)
        (fun address failure n r e hn _ hreceipted hblamed => ⟨hreceipted.accounted hn (hplan address), hblamed⟩)
        fun address r e _ hreceipted => ⟨hreceipted.accounted (Nat.le_refl _) (hplan address), hsupported.symm,
          fun _ => ⟨address, hreceipted.planned.trans (hplan address).symm⟩, nofun⟩
    · rename_i hdns
      refine Fixture.traced_pure ⟨.nil .., ?_, nofun, fun _ => rfl⟩
      obtain ⟨hbeacon, htransfer⟩ := not_or.mp htcp
      simp [LocalProcedureConfig.supported, hbeacon, htransfer, hdns]

end

end asmodeus.runner
