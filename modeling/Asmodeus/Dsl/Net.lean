import Asmodeus.Lib.Octets
import Asmodeus.Lib.Text

open Octets

namespace asmodeus.dsl

/-- Network blast radius: the only address blocks a chaos action may perturb. -/
def NET_TEST_BLOCKS : List (BitVec 32 × Nat) :=
  [(0x7F000000, 8), (0xC0000200, 24), (0xC6336400, 24), (0xCB007100, 24)]

/-- The loop over the dotted parts of an address. -/
def read_octets : List (List Char) → List (BitVec 8) → Option (List (BitVec 8))
  | [], octets => some octets
  | part :: parts, octets =>
    if octets.length = 4 then none
    else match Text.parseUnsigned 255 part with
      | none => none
      | some octet => read_octets parts (octets ++ [BitVec.ofNat 8 octet])

/-- Parse an IPv4 `a.b.c.d/len` CIDR into its network and prefix length. -/
def parse_ipv4_cidr (cidr : String) : Option (BitVec 32 × Nat) :=
  match Text.splitOnce '/' cidr.toList with
  | none => none
  | some (addr, len) => match Text.parseUnsigned (2 ^ 32 - 1) len with
    | none => none
    | some len =>
      if 32 < len then none
      else match read_octets (addr.splitOn '.') [] with
        | some [a, b, c, d] => some ((a ++ b ++ c ++ d) &&& prefixMask len, len)
        | _ => none

/-- The block is fully contained in one reserved test block. -/
def net_target_in_scope (cidr : String) : Bool :=
  match parse_ipv4_cidr cidr with
  | none => false
  | some (net, len) => NET_TEST_BLOCKS.any fun block =>
      !decide (len < block.2) && decide (net &&& prefixMask block.2 = block.1)

/-- The address lies inside a block. -/
def InBlock (block : BitVec 32 × Nat) (address : BitVec 32) : Prop := SamePrefix block.2 address block.1

theorem parse_ipv4_cidr_spec {cidr : String} {net : BitVec 32} {len : Nat}
    (h : parse_ipv4_cidr cidr = some (net, len)) :
    len ≤ 32 ∧ net &&& prefixMask len = net := by
  unfold parse_ipv4_cidr at h
  split at h
  · cases h
  · split at h
    · cases h
    · split at h
      · cases h
      · rename_i hlen
        split at h
        · obtain ⟨rfl, rfl⟩ := Prod.mk.inj (Option.some.inj h)
          refine ⟨by omega, ?_⟩
          rw [BitVec.and_assoc, BitVec.and_self]
        · cases h

/-- Every reserved block is a network. -/
theorem net_test_blocks_masked : ∀ block ∈ NET_TEST_BLOCKS, block.2 ≤ 32 ∧ block.1 &&& prefixMask block.2 =
    block.1 := by
  decide

/-- Every address of a block in scope lies inside a reserved test block. -/
theorem net_target_in_scope_spec {cidr : String} (hscope : net_target_in_scope cidr = true) :
    ∃ net len, parse_ipv4_cidr cidr = some (net, len) ∧ len ≤ 32 ∧
      ∃ block ∈ NET_TEST_BLOCKS, ∀ address, InBlock (net, len) address → InBlock block address := by
  unfold net_target_in_scope at hscope
  split at hscope
  · cases hscope
  · rename_i net len hparse
    obtain ⟨hlen, hnet⟩ := parse_ipv4_cidr_spec hparse
    obtain ⟨block, hblock, hinside⟩ := List.any_eq_true.mp hscope
    rw [Bool.and_eq_true, Bool.not_eq_true', decide_eq_false_iff_not, Nat.not_lt, decide_eq_true_eq] at hinside
    obtain ⟨hspecific, hmask⟩ := hinside
    obtain ⟨hblocklen, hblocknet⟩ := net_test_blocks_masked block hblock
    refine ⟨net, len, hparse, hlen, block, hblock, fun address haddress => ?_⟩
    have hsame : SamePrefix block.2 net block.1 :=
      (and_prefixMask_eq_iff hblocklen).mp (hmask.trans hblocknet.symm)
    exact (haddress.shorter hspecific hlen).trans hsame

end asmodeus.dsl
