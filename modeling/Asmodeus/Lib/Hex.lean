import Asmodeus.Lib.Chunks
import Asmodeus.Lib.Text
import Mathlib.Tactic.SplitIfs

open Chunks

namespace Hex

/-- The value of a hexadecimal digit of either case. -/
def digit? (c : Char) : Option Nat :=
  if 48 ≤ c.toNat ∧ c.toNat ≤ 57 then some (c.toNat - 48)
  else if 97 ≤ c.toNat ∧ c.toNat ≤ 102 then some (c.toNat - 87)
  else if 65 ≤ c.toNat ∧ c.toNat ≤ 70 then some (c.toNat - 55)
  else none

def IsDigit (c : Char) : Prop := (digit? c).isSome

instance : DecidablePred IsDigit := fun c => inferInstanceAs (Decidable ((digit? c).isSome = true))

/-- The text of an unsigned integer in base 16: an optional plus sign and digits, at least
one, that do not overflow. -/
def parseUnsigned (bound : Nat) (text : List Char) : Option Nat :=
  let digits := Text.unsignedDigits text
  if digits.isEmpty then none
  else (digits.mapM digit?).bind fun values =>
    let value := values.foldl (fun n d => 16 * n + d) 0
    if value ≤ bound then some value else none

def encodeByte (b : UInt8) : List Char := [Nat.digitChar (b.toNat / 16), Nat.digitChar (b.toNat % 16)]

/-- Two lower-case digits for each byte. -/
def encode (bytes : List UInt8) : List Char := bytes.flatMap encodeByte

/-- The byte two digits stand for. -/
def byte? (pair : Char × Char) : Option UInt8 := do
  let high ← digit? pair.1
  let low ← digit? pair.2
  return UInt8.ofNat (16 * high + low)

/-- The byte a text stands for in base 16. -/
def parseByte (text : List Char) : Option UInt8 := (parseUnsigned 255 text).map UInt8.ofNat

/-- The bytes of a text of pairs that are read as integers. -/
def decodeParsed (text : List Char) : Option (List UInt8) :=
  if text.length % 2 = 0 then (pairs text).mapM fun pair => parseByte [pair.1, pair.2] else none

/-- The texts of hexadecimal digits, two for each byte. -/
def Wellformed (text : List Char) : Prop := (∀ c ∈ text, IsDigit c) ∧ text.length % 2 = 0

instance (text : List Char) : Decidable (Wellformed text) :=
  @instDecidableAnd _ _ (List.decidableBAll IsDigit text) (inferInstanceAs (Decidable (text.length % 2 = 0)))

/-- The bytes of a text of pairs of digits. -/
def decode (text : List Char) : Option (List UInt8) :=
  if text.length % 2 = 0 then (pairs text).mapM byte? else none

theorem digit?_lt {c : Char} {n : Nat} (h : digit? c = some n) : n < 16 ∧ c.toNat < 128 := by
  unfold digit? at h
  split_ifs at h <;> grind

theorem digitChar_eq_toLower :
    ∀ k < 128, ∀ n < 16, digit? (Char.ofNat k) = some n → Nat.digitChar n = (Char.ofNat k).toLower := by
  decide +kernel

theorem digit?_toLower {c : Char} {n : Nat} (h : digit? c = some n) : Nat.digitChar n = c.toLower := by
  obtain ⟨hn, hc⟩ := digit?_lt h
  have hchar := digitChar_eq_toLower c.toNat hc n hn
  rw [Char.ofNat_toNat] at hchar
  exact hchar h

theorem digit?_digitChar : ∀ n < 16, digit? (Nat.digitChar n) = some n := by
  decide

theorem byte?_eq_some {pair : Char × Char} {b : UInt8} (h : byte? pair = some b) :
    digit? pair.1 = some (b.toNat / 16) ∧ digit? pair.2 = some (b.toNat % 16) := by
  unfold byte? at h
  cases hhigh : digit? pair.1 with
  | none => simp [hhigh] at h
  | some high =>
    cases hlow : digit? pair.2 with
    | none => simp [hhigh, hlow] at h
    | some low =>
      obtain ⟨hlt, -⟩ := digit?_lt hhigh
      obtain ⟨hlt', -⟩ := digit?_lt hlow
      simp only [hhigh, hlow, Option.bind_eq_bind, Option.bind_some, Option.pure_def, Option.some.injEq] at h
      rw [← h, UInt8.toNat_ofNat', Nat.mod_eq_of_lt (by omega)]
      exact ⟨by congr 1; omega, by congr 1; omega⟩

theorem byte?_isSome (pair : Char × Char) : (byte? pair).isSome ↔ IsDigit pair.1 ∧ IsDigit pair.2 := by
  unfold byte? IsDigit
  cases digit? pair.1 <;> cases digit? pair.2 <;> simp

theorem mapM_isSome {α β : Type} (f : α → Option β) (l : List α) :
    (l.mapM f).isSome ↔ ∀ x ∈ l, (f x).isSome := by
  induction l with
  | nil => simp
  | cons x l ih =>
    rw [List.mapM_cons, List.forall_mem_cons, ← ih]
    cases f x with
    | none => simp
    | some y => cases l.mapM f <;> simp

theorem mapM_cons_some {α β : Type} {f : α → Option β} {x : α} {l : List α} {ys : List β}
    (h : (x :: l).mapM f = some ys) : ∃ y ys', f x = some y ∧ l.mapM f = some ys' ∧ ys = y :: ys' := by
  rw [List.mapM_cons] at h
  cases hx : f x with
  | none => simp [hx] at h
  | some y =>
    cases hl : l.mapM f with
    | none => simp [hx, hl] at h
    | some ys' => exact ⟨y, ys', rfl, rfl, by simpa [hx, hl, eq_comm] using h⟩

theorem decode_isSome_iff (text : List Char) : (decode text).isSome ↔ Wellformed text := by
  unfold decode Wellformed
  by_cases heven : text.length % 2 = 0
  · rw [if_pos heven, mapM_isSome, ← forall_pairs IsDigit text heven]
    simp only [byte?_isSome, heven, and_true]
  · simp [heven]

theorem encode_length (bytes : List UInt8) : (encode bytes).length = 2 * bytes.length := by
  induction bytes with
  | nil => rfl
  | cons b bytes ih =>
    rw [encode, List.flatMap_cons, List.length_append, List.length_cons, ← encode, ih]
    simp [encodeByte]
    omega

theorem byte?_encode (b : UInt8) :
    byte? (Nat.digitChar (b.toNat / 16), Nat.digitChar (b.toNat % 16)) = some b := by
  have hb := b.toNat_lt
  have hhigh := digit?_digitChar (b.toNat / 16) (by omega)
  have hlow := digit?_digitChar (b.toNat % 16) (by omega)
  have hvalue : 16 * (b.toNat / 16) + b.toNat % 16 = b.toNat := by omega
  simp only [byte?, hhigh, hlow, Option.bind_eq_bind, Option.bind_some, Option.pure_def, hvalue, UInt8.ofNat_toNat]

theorem pairs_encode (bytes : List UInt8) : (pairs (encode bytes)).mapM byte? = some bytes := by
  induction bytes with
  | nil => rfl
  | cons b bytes ih =>
    rw [encode, List.flatMap_cons, ← encode, encodeByte, List.cons_append, List.cons_append, List.nil_append,
      pairs, List.mapM_cons, byte?_encode, ih]
    rfl

theorem decode_encode (bytes : List UInt8) : decode (encode bytes) = some bytes := by
  rw [decode, encode_length, if_pos (by omega), pairs_encode]

theorem encode_of_pairs {text : List Char} (heven : text.length % 2 = 0) {bytes : List UInt8}
    (h : (pairs text).mapM byte? = some bytes) : encode bytes = text.map Char.toLower := by
  fun_induction pairs text generalizing bytes with
  | case1 first second rest ih =>
    obtain ⟨b, bytes', hbyte, hrest, rfl⟩ := mapM_cons_some h
    obtain ⟨hhigh, hlow⟩ := byte?_eq_some hbyte
    simp only [List.length_cons] at heven
    rw [encode, List.flatMap_cons, ← encode, ih (by omega) hrest, encodeByte, digit?_toLower hhigh,
      digit?_toLower hlow]
    rfl
  | case2 text hshort =>
    obtain rfl | ⟨c, rfl⟩ := short_cases hshort
    · obtain rfl := Option.some.inj h
      rfl
    · simp at heven

/-- Encoding what was decoded gives the text in lower case. -/
theorem encode_of_decode {text : List Char} {bytes : List UInt8} (h : decode text = some bytes) :
    encode bytes = text.map Char.toLower := by
  unfold decode at h
  split at h
  · rename_i heven
    exact encode_of_pairs heven h
  · cases h

/-- The texts of pairs that integer parsing takes and that are not all two digits: a plus sign
stands for the first of some pair. -/
def SignedPairs (text : List Char) : Prop :=
  text.length % 2 = 0 ∧ (∀ pair ∈ pairs text, (pair.1 = '+' ∨ IsDigit pair.1) ∧ IsDigit pair.2) ∧
    ∃ pair ∈ pairs text, pair.1 = '+'

theorem not_isDigit_plus : ¬ IsDigit '+' := by decide

theorem isDigit_ascii {c : Char} (h : IsDigit c) : c.val ≤ 127 := by
  obtain ⟨n, hn⟩ := Option.isSome_iff_exists.mp h
  have hlt := (digit?_lt hn).2
  rw [UInt32.le_iff_toNat_le]
  exact Nat.le_of_lt_succ hlt

theorem parseByte_signed (c : Char) : parseByte ['+', c] = (digit? c).map UInt8.ofNat := by
  unfold parseByte parseUnsigned
  cases hc : digit? c with
  | none => simp [Text.unsignedDigits, hc]
  | some n =>
    have hn := (digit?_lt hc).1
    simp [Text.unsignedDigits, hc]
    omega

theorem parseByte_unsigned {first : Char} (second : Char) (h : first ≠ '+') :
    parseByte [first, second] = byte? (first, second) := by
  have hdigits : Text.unsignedDigits [first, second] = [first, second] := by
    unfold Text.unsignedDigits
    split
    · rename_i rest hrest
      exact absurd (List.cons.inj hrest).1 h
    · rfl
  unfold parseByte parseUnsigned byte?
  rw [hdigits]
  cases hfirst : digit? first with
  | none => simp [hfirst]
  | some high =>
    cases hsecond : digit? second with
    | none => simp [hfirst, hsecond]
    | some low =>
      have hhigh := (digit?_lt hfirst).1
      have hlow := (digit?_lt hsecond).1
      have hvalue : 16 * high + low ≤ 255 := by omega
      simp [hfirst, hsecond, hvalue]

theorem parseByte_isSome (first second : Char) :
    (parseByte [first, second]).isSome ↔ (first = '+' ∨ IsDigit first) ∧ IsDigit second := by
  by_cases hsign : first = '+'
  · subst hsign
    rw [parseByte_signed, Option.isSome_map]
    simp [IsDigit]
  · rw [parseByte_unsigned second hsign, byte?_isSome]
    simp [hsign]

/-- Integer parsing takes the texts of digits, and those with a sign. -/
theorem decodeParsed_isSome_iff (text : List Char) :
    (decodeParsed text).isSome ↔ Wellformed text ∨ SignedPairs text := by
  unfold decodeParsed SignedPairs Wellformed
  by_cases heven : text.length % 2 = 0
  · rw [if_pos heven, mapM_isSome, ← forall_pairs IsDigit text heven]
    simp only [parseByte_isSome, heven, true_and, and_true]
    constructor
    · intro h
      by_cases hsign : ∃ pair ∈ pairs text, pair.1 = '+'
      · exact Or.inr ⟨h, hsign⟩
      · refine Or.inl fun pair hpair => ⟨(h pair hpair).1.resolve_left ?_, (h pair hpair).2⟩
        exact fun heq => hsign ⟨pair, hpair, heq⟩
    · rintro (h | h) pair hpair
      · exact ⟨Or.inr (h pair hpair).1, (h pair hpair).2⟩
      · exact h.1 pair hpair
  · simp [heven]

theorem SignedPairs.not_wellformed {text : List Char} (h : SignedPairs text) : ¬ Wellformed text := by
  obtain ⟨heven, -, pair, hpair, hsign⟩ := h
  rintro ⟨hdigits, -⟩
  have hdigit := ((forall_pairs IsDigit text heven).mpr hdigits pair hpair).1
  rw [hsign] at hdigit
  exact not_isDigit_plus hdigit

theorem mapM_congr {α β : Type} {f g : α → Option β} {l : List α} (h : ∀ x ∈ l, f x = g x) :
    l.mapM f = l.mapM g := by
  induction l with
  | nil => rfl
  | cons x l ih =>
    obtain ⟨hx, hl⟩ := List.forall_mem_cons.mp h
    rw [List.mapM_cons, List.mapM_cons, hx, ih hl]

/-- Without a sign the pairs are read as digits. -/
theorem decodeParsed_eq {text : List Char} (h : ¬ SignedPairs text) : decodeParsed text = decode text := by
  cases hparsed : decodeParsed text with
  | none =>
    have hnone : ¬ (decode text).isSome := by
      rw [decode_isSome_iff]
      intro hwell
      have hsome := (decodeParsed_isSome_iff text).mpr (Or.inl hwell)
      rw [hparsed] at hsome
      cases hsome
    exact (Option.not_isSome_iff_eq_none.mp hnone).symm
  | some bytes =>
    have hwell : Wellformed text :=
      ((decodeParsed_isSome_iff text).mp (by rw [hparsed]; rfl)).resolve_right h
    rw [← hparsed, decodeParsed, decode, if_pos hwell.2, if_pos hwell.2]
    refine mapM_congr fun pair hpair => parseByte_unsigned pair.2 ?_
    intro hsign
    have hdigit := ((forall_pairs IsDigit text hwell.2).mpr hwell.1 pair hpair).1
    rw [hsign] at hdigit
    exact not_isDigit_plus hdigit

/-- What integer parsing takes is ASCII. -/
theorem decodeParsed_ascii {text : List Char} (h : (decodeParsed text).isSome) : ∀ c ∈ text, c.val ≤ 127 := by
  unfold decodeParsed at h
  by_cases heven : text.length % 2 = 0
  · rw [if_pos heven, mapM_isSome] at h
    refine (forall_pairs _ text heven).mp fun pair hpair => ?_
    obtain ⟨hfirst, hsecond⟩ := (parseByte_isSome pair.1 pair.2).mp (h pair hpair)
    refine ⟨?_, isDigit_ascii hsecond⟩
    obtain hsign | hdigit := hfirst
    · rw [hsign]
      decide
    · exact isDigit_ascii hdigit
  · rw [if_neg heven] at h
    cases h

end Hex
