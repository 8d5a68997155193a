import Mathlib.Data.Nat.Bitwise

namespace Octets

/-- The byte order of a host. -/
inductive Endian
  | little
  | big
  deriving DecidableEq

/-- The word whose bytes in a host's memory are those given, in that order. -/
def word16 : Endian → BitVec 8 → BitVec 8 → BitVec 16
  | .big, a, b => a ++ b
  | .little, a, b => b ++ a

def word32 : Endian → BitVec 8 → BitVec 8 → BitVec 8 → BitVec 8 → BitVec 32
  | .big, a, b, c, d => a ++ b ++ c ++ d
  | .little, a, b, c, d => d ++ c ++ b ++ a

/-- The word whose bytes in the host's memory are in network order those of the
number. -/
def toBe (host : Endian) (x : BitVec 32) : BitVec 32 :=
  word32 host (x.extractLsb' 24 8) (x.extractLsb' 16 8) (x.extractLsb' 8 8) (x.extractLsb' 0 8)

/-- The number whose bytes in network order are the word's in the host's memory. -/
def fromBe16 (host : Endian) (x : BitVec 16) : BitVec 16 :=
  match host with
  | .big => x
  | .little => x.extractLsb' 0 8 ++ x.extractLsb' 8 8

/-- The mask of the first bits of a word. -/
def prefixMask (length : Nat) : BitVec 32 := if length = 0 then 0 else BitVec.allOnes 32 <<< (32 - length)

/-- Two words agree on their first bits. -/
def SamePrefix (length : Nat) (x y : BitVec 32) : Prop := x.toNat / 2 ^ (32 - length) = y.toNat / 2 ^ (32 - length)

instance (length : Nat) (x y : BitVec 32) : Decidable (SamePrefix length x y) :=
  inferInstanceAs (Decidable (_ = _))

/-- A word is made of its bytes. -/
theorem append_extract (x : BitVec 32) :
    x.extractLsb' 24 8 ++ x.extractLsb' 16 8 ++ x.extractLsb' 8 8 ++ x.extractLsb' 0 8 = x := by
  apply BitVec.eq_of_getLsbD_eq
  intro i hi
  simp only [BitVec.getLsbD_append, BitVec.getLsbD_extractLsb']
  grind

theorem extract_append (a b c d : BitVec 8) :
    (a ++ b ++ c ++ d).extractLsb' 24 8 = a ∧ (a ++ b ++ c ++ d).extractLsb' 16 8 = b ∧
      (a ++ b ++ c ++ d).extractLsb' 8 8 = c ∧ (a ++ b ++ c ++ d).extractLsb' 0 8 = d := by
  refine ⟨?_, ?_, ?_, ?_⟩ <;>
    (apply BitVec.eq_of_getLsbD_eq
     intro i hi
     simp only [BitVec.getLsbD_append, BitVec.getLsbD_extractLsb']
     grind)

/-- The number that four bytes in network order stand for is stored as those
bytes. -/
theorem toBe_append (host : Endian) (a b c d : BitVec 8) : toBe host (a ++ b ++ c ++ d) = word32 host a b c d := by
  obtain ⟨ha, hb, hc, hd⟩ := extract_append a b c d
  rw [toBe, ha, hb, hc, hd]

theorem word32_injective {host : Endian} {a b c d a' b' c' d' : BitVec 8}
    (h : word32 host a b c d = word32 host a' b' c' d') : a = a' ∧ b = b' ∧ c = c' ∧ d = d' := by
  cases host with
  | big =>
    obtain ⟨ha, hb, hc, hd⟩ := extract_append a b c d
    obtain ⟨ha', hb', hc', hd'⟩ := extract_append a' b' c' d'
    rw [word32, word32] at h
    rw [h] at ha hb hc hd
    exact ⟨ha.symm.trans ha', hb.symm.trans hb', hc.symm.trans hc', hd.symm.trans hd'⟩
  | little =>
    obtain ⟨hd, hc, hb, ha⟩ := extract_append d c b a
    obtain ⟨hd', hc', hb', ha'⟩ := extract_append d' c' b' a'
    rw [word32, word32] at h
    rw [h] at ha hb hc hd
    exact ⟨ha.symm.trans ha', hb.symm.trans hb', hc.symm.trans hc', hd.symm.trans hd'⟩

theorem word32_and (host : Endian) (a b c d a' b' c' d' : BitVec 8) :
    word32 host a b c d &&& word32 host a' b' c' d' = word32 host (a &&& a') (b &&& b') (c &&& c') (d &&& d') := by
  cases host <;>
    (apply BitVec.eq_of_getLsbD_eq
     intro i hi
     simp only [word32, BitVec.getLsbD_and, BitVec.getLsbD_append]
     split_ifs <;> rfl)

/-- Masking commutes with the byte order. -/
theorem toBe_and (host : Endian) (x y : BitVec 32) : toBe host x &&& toBe host y = toBe host (x &&& y) := by
  rw [toBe, toBe, toBe, word32_and, BitVec.extractLsb'_and, BitVec.extractLsb'_and, BitVec.extractLsb'_and,
    BitVec.extractLsb'_and]

theorem toBe_injective (host : Endian) : Function.Injective (toBe host) := by
  intro x y h
  obtain ⟨ha, hb, hc, hd⟩ := word32_injective h
  rw [← append_extract x, ← append_extract y, ha, hb, hc, hd]

/-- Masking keeps the first bits and clears the others. -/
theorem and_prefixMask (x : BitVec 32) {length : Nat} (hlength : length ≤ 32) :
    (x &&& prefixMask length).toNat = x.toNat / 2 ^ (32 - length) * 2 ^ (32 - length) := by
  unfold prefixMask
  split
  · rename_i hzero
    change (x &&& 0#32).toNat = _
    rw [hzero, BitVec.and_zero, Nat.div_eq_of_lt x.isLt, Nat.zero_mul, BitVec.toNat_zero]
  · have hshift : x &&& BitVec.allOnes 32 <<< (32 - length) = (x >>> (32 - length)) <<< (32 - length) := by
      apply BitVec.eq_of_getLsbD_eq
      intro i hi
      simp only [BitVec.getLsbD_and, BitVec.getLsbD_shiftLeft, BitVec.getLsbD_allOnes, BitVec.getLsbD_ushiftRight]
      grind
    have hle : x.toNat / 2 ^ (32 - length) * 2 ^ (32 - length) ≤ x.toNat := Nat.div_mul_le_self _ _
    rw [hshift, BitVec.toNat_shiftLeft, BitVec.toNat_ushiftRight, Nat.shiftRight_eq_div_pow, Nat.shiftLeft_eq,
      Nat.mod_eq_of_lt (hle.trans_lt x.isLt)]

/-- Words with the same mask image agree on their first bits, and conversely. -/
theorem and_prefixMask_eq_iff {x y : BitVec 32} {length : Nat} (hlength : length ≤ 32) :
    x &&& prefixMask length = y &&& prefixMask length ↔ SamePrefix length x y := by
  rw [← BitVec.toNat_inj, and_prefixMask x hlength, and_prefixMask y hlength, SamePrefix]
  exact Nat.mul_left_inj (Nat.two_pow_pos _).ne'

/-- Words that agree on a longer prefix agree on a shorter one. -/
theorem SamePrefix.shorter {x y : BitVec 32} {length shorter : Nat} (h : SamePrefix length x y)
    (hshorter : shorter ≤ length) (hlength : length ≤ 32) : SamePrefix shorter x y := by
  have hsplit : 2 ^ (32 - shorter) = 2 ^ (32 - length) * 2 ^ (length - shorter) := by
    rw [← Nat.pow_add]
    congr 1
    omega
  rw [SamePrefix, hsplit, ← Nat.div_div_eq_div_mul, ← Nat.div_div_eq_div_mul, h]

theorem SamePrefix.symm {x y : BitVec 32} {length : Nat} (h : SamePrefix length x y) : SamePrefix length y x :=
  Eq.symm h

theorem SamePrefix.trans {x y z : BitVec 32} {length : Nat} (h : SamePrefix length x y) (h' : SamePrefix length y z) :
    SamePrefix length x z := Eq.trans h h'

end Octets
