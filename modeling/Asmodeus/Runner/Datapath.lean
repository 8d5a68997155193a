import Asmodeus.Runner.NetChaos

open asmodeus.dsl Octets

namespace asmodeus.runner

def CHAOS_FLAG_ARMED : BitVec 32 := 1
def LOSS_SCALE : Nat := 1000

/-- The one rule the datapath enforces. The destination is kept in network byte
order. -/
structure ChaosRule where
  dst_net_be : BitVec 32
  prefix_mask_be : BitVec 32
  loss_permille : Nat
  flags : BitVec 32
  deriving DecidableEq

def ChaosRule.is_armed (self : ChaosRule) : Bool := decide (self.flags &&& CHAOS_FLAG_ARMED ≠ 0)

def ChaosRule.matches_dst (self : ChaosRule) (dst_be : BitVec 32) : Bool :=
  decide (dst_be &&& self.prefix_mask_be = self.dst_net_be)

/-- The octets an address is read into, and the parts that remain. -/
def take_octets : Nat → List (List Char) → Option (List (BitVec 8) × List (List Char))
  | 0, parts => some ([], parts)
  | _ + 1, [] => none
  | n + 1, part :: parts => match Text.parseUnsigned 255 part with
    | none => none
    | some octet => (take_octets n parts).map fun read => (BitVec.ofNat 8 octet :: read.1, read.2)

def unparseable (cidr : String) : NetChaosError := .Backend ("unparseable target CIDR: " ++ cidr)

/-- Parse a validated `a.b.c.d/len` CIDR into its network and mask, both in
network byte order. -/
def parse_cidr_be (host : Endian) (cidr : String) : Except NetChaosError (BitVec 32 × BitVec 32) :=
  match Text.splitOnce '/' cidr.toList with
  | none => .error (unparseable cidr)
  | some (addr, len) => match Text.parseUnsigned (2 ^ 32 - 1) len with
    | none => .error (unparseable cidr)
    | some len =>
      if 32 < len then .error (unparseable cidr)
      else match take_octets 4 (addr.splitOn '.') with
        | some ([a, b, c, d], []) =>
          .ok (toBe host ((a ++ b ++ c ++ d) &&& prefixMask len), toBe host (prefixMask len))
        | _ => .error (unparseable cidr)

/-- The rule `AyaTcBackend::apply` installs for a specification. -/
def chaos_rule (host : Endian) (spec : NetChaosSpec) : Except NetChaosError ChaosRule :=
  if is_loopback spec.iface then
    .error (.Backend ("aya eBPF/TC loss datapath needs an Ethernet test interface (veth/dummy/test/chaos); " ++
      "loopback `" ++ spec.iface ++ "` has no L2 header and is refused — provision a dedicated test interface " ++
      "on the stand"))
  else match parse_cidr_be host spec.target_cidr with
    | .error e => .error e
    | .ok (dst_net_be, prefix_mask_be) =>
      .ok ⟨dst_net_be, prefix_mask_be, spec.loss_pct.toNat * (LOSS_SCALE / 100), CHAOS_FLAG_ARMED⟩

inductive Verdict
  | pass
  | drop
  deriving DecidableEq

/-- `TcContext::load` of the bytes of a frame into the host's words. A short
frame fails. -/
def load16 (host : Endian) (frame : List (BitVec 8)) (offset : Nat) : Option (BitVec 16) := do
  return word16 host (← frame[offset]?) (← frame[offset + 1]?)

def load32 (host : Endian) (frame : List (BitVec 8)) (offset : Nat) : Option (BitVec 32) := do
  return word32 host (← frame[offset]?) (← frame[offset + 1]?) (← frame[offset + 2]?) (← frame[offset + 3]?)

def ETH_P_IP : BitVec 16 := 0x0800
def OFF_ETHERTYPE : Nat := 12
def OFF_IPV4_DST : Nat := 14 + 16

/-- What the classifier does with a frame under the rule in the map, given the
random number it draws. -/
def decide_frame (host : Endian) (rule : Option ChaosRule) (frame : List (BitVec 8)) (draw : Nat) : Option Verdict :=
  match rule with
  | none => some .pass
  | some rule =>
    if !rule.is_armed then some .pass
    else do
      let ethertype ← load16 host frame OFF_ETHERTYPE
      if fromBe16 host ethertype ≠ ETH_P_IP then return .pass
      let dst_be ← load32 host frame OFF_IPV4_DST
      if !rule.matches_dst dst_be then return .pass
      if draw % LOSS_SCALE < rule.loss_permille then return .drop else return .pass

/-- The classifier passes what it cannot read. -/
def netchaos_egress (host : Endian) (rule : Option ChaosRule) (frame : List (BitVec 8)) (draw : Nat) : Verdict :=
  (decide_frame host rule frame draw).getD .pass

/-- The destination address of an IPv4 frame. -/
def destination (frame : List (BitVec 8)) : Option (BitVec 32) := load32 .big frame OFF_IPV4_DST

/-- Both parsers read the same octets off the same parts. -/
theorem read_octets_iff {parts : List (List Char)} {octets all : List (BitVec 8)} {n : Nat}
    (hlength : octets.length + n = 4) :
    (read_octets parts octets = some all ∧ all.length = 4) ↔
      ∃ read, all = octets ++ read ∧ take_octets n parts = some (read, []) := by
  induction parts generalizing octets n with
  | nil =>
    cases n with
    | zero =>
      rw [Nat.add_zero] at hlength
      simp only [read_octets, take_octets, Option.some.injEq, Prod.mk.injEq, and_true]
      constructor
      · rintro ⟨rfl, -⟩
        exact ⟨[], (List.append_nil _).symm, rfl⟩
      · rintro ⟨read, rfl, rfl⟩
        rw [List.append_nil]
        exact ⟨rfl, hlength⟩
    | succ n =>
      simp only [read_octets, take_octets, Option.some.injEq, reduceCtorEq, and_false, exists_false, iff_false, not_and]
      rintro rfl
      omega
  | cons part parts ih =>
    cases n with
    | zero =>
      rw [Nat.add_zero] at hlength
      simp only [read_octets, take_octets, if_pos hlength, reduceCtorEq, false_and, Option.some.injEq, Prod.mk.injEq,
        and_false, exists_false]
    | succ n =>
      rw [read_octets, if_neg (by omega), take_octets]
      cases Text.parseUnsigned 255 part with
      | none => simp
      | some octet =>
        refine (ih (n := n) (by rw [List.length_append, List.length_singleton]; omega)).trans ?_
        constructor
        · rintro ⟨read, rfl, htake⟩
          exact ⟨BitVec.ofNat 8 octet :: read, by simp, by rw [htake]; rfl⟩
        · rintro ⟨read, rfl, htake⟩
          obtain ⟨⟨read', rest⟩, htake', heq⟩ := Option.map_eq_some_iff.mp htake
          obtain ⟨rfl, rfl⟩ := Prod.mk.inj heq
          exact ⟨read', by simp, htake'⟩

/-- Both parsers accept the same texts and name the same network and prefix. -/
theorem parse_cidr_be_iff (host : Endian) (cidr : String) (rule : BitVec 32 × BitVec 32) :
    parse_cidr_be host cidr = .ok rule ↔
      ∃ net len, parse_ipv4_cidr cidr = some (net, len) ∧ rule = (toBe host net, toBe host (prefixMask len)) := by
  have hread : ∀ parts (a b c d : BitVec 8),
      read_octets parts [] = some [a, b, c, d] ↔ take_octets 4 parts = some ([a, b, c, d], []) := by
    intro parts a b c d
    have hlist : (read_octets parts [] = some [a, b, c, d] ∧ [a, b, c, d].length = 4) ↔
        ∃ read, [a, b, c, d] = [] ++ read ∧ take_octets 4 parts = some (read, []) := read_octets_iff rfl
    simpa using hlist
  unfold parse_cidr_be parse_ipv4_cidr
  cases Text.splitOnce '/' cidr.toList with
  | none => simp
  | some parts =>
    obtain ⟨addr, len⟩ := parts
    dsimp only
    cases Text.parseUnsigned (2 ^ 32 - 1) len with
    | none => simp
    | some len =>
      dsimp only
      split
      · simp
      · constructor
        · intro h
          split at h
          · rename_i a b c d htake
            rw [← hread] at htake
            exact ⟨_, len, by rw [htake], (Except.ok.inj h).symm⟩
          · cases h
        · rintro ⟨net, len', hparse, rfl⟩
          split at hparse
          · rename_i a b c d hoctets
            rw [hread] at hoctets
            obtain ⟨rfl, rfl⟩ := Prod.mk.inj (Option.some.inj hparse)
            rw [hoctets]
          · cases hparse

/-- The kernel's comparison, in the byte order of any host, is membership in the
named block. -/
theorem matches_dst_iff (host : Endian) {net : BitVec 32} {len : Nat} (hlen : len ≤ 32)
    (hnet : net &&& prefixMask len = net) (rule : ChaosRule) (hdst : rule.dst_net_be = toBe host net)
    (hmask : rule.prefix_mask_be = toBe host (prefixMask len)) (address : BitVec 32) :
    rule.matches_dst (toBe host address) = true ↔ InBlock (net, len) address := by
  rw [ChaosRule.matches_dst, decide_eq_true_eq, hdst, hmask, toBe_and, (toBe_injective host).eq_iff, InBlock,
    ← and_prefixMask_eq_iff hlen]
  dsimp only
  rw [hnet]

theorem load32_toBe (host : Endian) (frame : List (BitVec 8)) (offset : Nat) :
    load32 host frame offset = (load32 .big frame offset).map (toBe host) := by
  unfold load32
  cases frame[offset]? <;> cases frame[offset + 1]? <;> cases frame[offset + 2]? <;> cases frame[offset + 3]? <;>
    try rfl
  rename_i a b c d
  exact congrArg some (toBe_append host a b c d).symm

/-- A dropped frame is an IPv4 frame to an address the rule names, and the draw
fell under the loss. -/
theorem netchaos_egress_drop {host : Endian} {rule : ChaosRule} {frame : List (BitVec 8)} {draw : Nat}
    (h : netchaos_egress host (some rule) frame draw = .drop) :
    ∃ address, destination frame = some address ∧ rule.matches_dst (toBe host address) = true ∧
      draw % LOSS_SCALE < rule.loss_permille := by
  unfold netchaos_egress decide_frame at h
  dsimp only at h
  split at h
  · cases h
  · cases hether : load16 host frame OFF_ETHERTYPE with
    | none => rw [hether] at h; cases h
    | some ethertype =>
      rw [hether] at h
      dsimp only [Option.bind_eq_bind, Option.bind_some] at h
      split at h
      · cases h
      · rw [load32_toBe] at h
        cases hdst : load32 .big frame OFF_IPV4_DST with
        | none => rw [hdst] at h; cases h
        | some address =>
          rw [hdst] at h
          dsimp only [Option.map_some, Option.bind_some] at h
          split at h
          · cases h
          · rename_i hmatch
            split at h
            · rename_i hdraw
              refine ⟨address, hdst, ?_, hdraw⟩
              simpa using hmatch
            · cases h

/-- Whatever the classifier drops under the rule of a block in scope, in the byte
order of any host and for any random draw, was sent into that block and so into a
reserved test block. -/
theorem classifier_confined {host : Endian} {spec : NetChaosSpec} {net : BitVec 32} {len : Nat} {rule : ChaosRule}
    (hscope : net_target_in_scope spec.target_cidr = true) (hparse : parse_ipv4_cidr spec.target_cidr = some (net, len))
    (hrule : chaos_rule host spec = .ok rule) {frame : List (BitVec 8)} {draw : Nat}
    (hdrop : netchaos_egress host (some rule) frame draw = .drop) :
    ∃ address, destination frame = some address ∧ InBlock (net, len) address ∧
      ∃ block ∈ NET_TEST_BLOCKS, InBlock block address := by
  obtain ⟨net', len', hparse', hlen, block, hblock, hinside⟩ := net_target_in_scope_spec hscope
  rw [hparse, Option.some.injEq] at hparse'
  obtain ⟨rfl, rfl⟩ := Prod.mk.inj hparse'
  have hbe := (parse_cidr_be_iff host spec.target_cidr _).mpr ⟨net, len, hparse, rfl⟩
  unfold chaos_rule at hrule
  split at hrule
  · cases hrule
  · rw [hbe] at hrule
    obtain rfl := Except.ok.inj hrule
    obtain ⟨address, hdestination, hmatch, -⟩ := netchaos_egress_drop hdrop
    have hin := (matches_dst_iff host hlen (parse_ipv4_cidr_spec hparse).2 _ rfl rfl address).mp hmatch
    exact ⟨address, hdestination, hin, block, hblock, hinside address hin⟩

/-- The network blast radius holds down to the datapath, and both parsers accept
the same texts and name the same network and prefix. -/
theorem datapath_blast_radius (host : Endian) :
    (∀ spec : NetChaosSpec, net_target_in_scope spec.target_cidr = true →
      ∃ net len, parse_ipv4_cidr spec.target_cidr = some (net, len) ∧
        parse_cidr_be host spec.target_cidr = .ok (toBe host net, toBe host (prefixMask len)) ∧
        ∀ rule, chaos_rule host spec = .ok rule → ∀ frame draw,
          netchaos_egress host (some rule) frame draw = .drop →
          ∃ address, destination frame = some address ∧ InBlock (net, len) address ∧
            ∃ block ∈ NET_TEST_BLOCKS, InBlock block address) ∧
      ∀ cidr rule, parse_cidr_be host cidr = .ok rule ↔
        ∃ net len, parse_ipv4_cidr cidr = some (net, len) ∧ rule = (toBe host net, toBe host (prefixMask len)) := by
  refine ⟨fun spec hscope => ?_, parse_cidr_be_iff host⟩
  obtain ⟨net, len, hparse, -, -⟩ := net_target_in_scope_spec hscope
  refine ⟨net, len, hparse, (parse_cidr_be_iff host _ _).mpr ⟨net, len, hparse, rfl⟩,
    fun rule hrule frame draw hdrop => ?_⟩
  exact classifier_confined hscope hparse hrule hdrop

/-- An untagged IPv4 frame to an address. -/
def ipv4_frame (a b c d : BitVec 8) : List (BitVec 8) :=
  List.replicate 12 0 ++ [0x08, 0x00] ++ List.replicate 16 0 ++ [a, b, c, d]

def test_net_spec : NetChaosSpec := ⟨"veth0", "203.0.113.0/24", 2500, 250, 25, 5000⟩

/-- A frame into the block of the rule that a little-endian host drops. -/
theorem test_net_frame_confined : ∃ rule, chaos_rule .little test_net_spec = .ok rule ∧
    netchaos_egress .little (some rule) (ipv4_frame 203 0 113 7) 1249 = .drop ∧
    ∃ address, destination (ipv4_frame 203 0 113 7) = some address ∧
      ∃ block ∈ NET_TEST_BLOCKS, InBlock block address := by
  have hrule : chaos_rule .little test_net_spec = .ok ⟨0x007100CB, 0x00FFFFFF, 250, 1⟩ := by decide +kernel
  have hdrop : netchaos_egress .little (some ⟨0x007100CB, 0x00FFFFFF, 250, 1⟩) (ipv4_frame 203 0 113 7) 1249 =
    .drop := by
    decide +kernel
  obtain ⟨net, len, -, -, hconfined⟩ := (datapath_blast_radius .little).1 test_net_spec (by decide +kernel)
  obtain ⟨address, hdestination, -, hblock⟩ := hconfined _ hrule _ _ hdrop
  exact ⟨_, hrule, hdrop, address, hdestination, hblock⟩

end asmodeus.runner
