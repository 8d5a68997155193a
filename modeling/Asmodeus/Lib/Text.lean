import Mathlib.Data.List.Basic

namespace Text

/-- The parts of a text before and after the first separator. -/
def splitOnce (separator : Char) : List Char → Option (List Char × List Char)
  | [] => none
  | c :: rest =>
    if c = separator then some ([], rest) else (splitOnce separator rest).map fun parts => (c :: parts.1, parts.2)

/-- The number a run of decimal digits stands for. -/
def digitsValue (digits : List Char) : Nat := digits.foldl (fun n c => 10 * n + (c.toNat - '0'.toNat)) 0

/-- A leading plus sign is not part of the digits. -/
def unsignedDigits : List Char → List Char
  | '+' :: rest => rest
  | text => text

/-- The text of an unsigned integer: an optional plus sign and decimal digits, at
least one, that do not overflow. -/
def parseUnsigned (bound : Nat) (text : List Char) : Option Nat :=
  let digits := unsignedDigits text
  if !digits.isEmpty && digits.all Char.isDigit && decide (digitsValue digits ≤ bound) then some (digitsValue digits)
  else none

/-- The text of a signed integer: an optional sign and decimal digits, at least one,
that lie within the bounds. -/
def parseSigned (low high : Int) (text : List Char) : Option Int :=
  let value : Option Int := match text with
    | '-' :: digits => if !digits.isEmpty && digits.all Char.isDigit then some (-(digitsValue digits : Int)) else none
    | text =>
      let digits := unsignedDigits text
      if !digits.isEmpty && digits.all Char.isDigit then some (digitsValue digits : Int) else none
  value.filter fun n => decide (low ≤ n ∧ n ≤ high)

/-- The decimal text of an integer. -/
def integer (n : Int) : List Char := if n < 0 then '-' :: Nat.toDigits 10 n.natAbs else Nat.toDigits 10 n.natAbs

/-- The last digits of a number in hexadecimal. -/
def hex : Nat → Nat → List Char
  | 0, _ => []
  | width + 1, n => hex width (n / 16) ++ [Nat.digitChar (n % 16)]

/-- Equality of texts up to the case of ASCII letters. -/
def eqIgnoreAsciiCase (a b : String) : Bool := decide (a.toList.map Char.toLower = b.toList.map Char.toLower)

theorem eqIgnoreAsciiCase_iff {a b : String} :
    eqIgnoreAsciiCase a b = true ↔ a.toList.map Char.toLower = b.toList.map Char.toLower := decide_eq_true_iff

@[simp] theorem hex_length (width n : Nat) : (hex width n).length = width := by
  induction width generalizing n with
  | zero => rfl
  | succ width ih => rw [hex, List.length_append, ih, List.length_singleton]

/-- A text starts as its first piece and ends as its last one. -/
theorem ends_append {first second third last : String} {c d : Char} (hfirst : first.toList.head? = some c)
    (hlast : last.toList.getLast? = some d) : (first ++ second ++ third ++ last).toList.head? = some c ∧
      (first ++ second ++ third ++ last).toList.getLast? = some d := by
  constructor
  · simp only [String.toList_append, List.head?_append, hfirst, Option.some_or]
  · rw [String.toList_append, List.getLast?_append, hlast, Option.some_or]

theorem digitChar_alphanum : ∀ d < 16, (Nat.digitChar d).isAlphanum = true := by
  decide

theorem hex_alphanum (width n : Nat) : ∀ c ∈ hex width n, c.isAlphanum = true := by
  induction width generalizing n with
  | zero => exact fun c hc => absurd hc List.not_mem_nil
  | succ width ih =>
    intro c hc
    rcases List.mem_append.mp hc with hc | hc
    · exact ih (n / 16) c hc
    · obtain rfl := List.mem_singleton.mp hc
      exact digitChar_alphanum (n % 16) (Nat.mod_lt n (by decide))

theorem alphanum_ascii {c : Char} (h : c.isAlphanum = true) : c.val ≤ 127 := by
  have hletter : ((decide (c.val ≥ 'A'.val ∧ c.val ≤ 'Z'.val) || (c.val ≥ 'a'.val && c.val ≤ 'z'.val)) ||
      (c.val ≥ '0'.val && c.val ≤ '9'.val)) = true := h
  simp only [Bool.or_eq_true, Bool.and_eq_true, decide_eq_true_eq] at hletter
  grind

theorem splitOnce_append {separator : Char} {before : List Char} (after : List Char) (h : separator ∉ before) :
    splitOnce separator (before ++ separator :: after) = some (before, after) := by
  induction before with
  | nil => rw [List.nil_append, splitOnce, if_pos rfl]
  | cons c before ih =>
    obtain ⟨hc, hbefore⟩ := not_or.mp (List.mem_cons.not.mp h)
    rw [List.cons_append, splitOnce, if_neg (Ne.symm hc), ih hbefore]
    rfl

theorem splitOnce_some {separator : Char} {text before after : List Char}
    (h : splitOnce separator text = some (before, after)) : text = before ++ separator :: after ∧
      separator ∉ before := by
  induction text generalizing before with
  | nil => cases h
  | cons c text ih =>
    rw [splitOnce] at h
    split at h
    · rename_i hc
      obtain ⟨rfl, rfl⟩ := Prod.mk.inj (Option.some.inj h)
      exact ⟨by rw [hc, List.nil_append], List.not_mem_nil⟩
    · rename_i hc
      obtain ⟨⟨before', after'⟩, hsplit, heq⟩ := Option.map_eq_some_iff.mp h
      obtain ⟨rfl, rfl⟩ := Prod.mk.inj heq
      obtain ⟨rfl, hbefore⟩ := ih hsplit
      refine ⟨rfl, fun hmem => ?_⟩
      obtain heq | hmem := List.mem_cons.mp hmem
      · exact hc heq.symm
      · exact hbefore hmem

theorem digitsValue_toDigits (n : Nat) : digitsValue (Nat.toDigits 10 n) = n := Nat.ofDigitChars_ten_toDigits

theorem toDigits_all_isDigit (n : Nat) : (Nat.toDigits 10 n).all Char.isDigit = true :=
  List.all_eq_true.mpr fun _ hc => Nat.isDigit_of_mem_toDigits (by decide) (by decide) hc

theorem unsignedDigits_of_isDigit {digits : List Char} (h : digits.all Char.isDigit = true) :
    unsignedDigits digits = digits := by
  unfold unsignedDigits
  split
  · simp at h
  · rfl

/-- A run of decimal digits of a value within a bound. -/
structure Decimal (bound : Nat) (digits : List Char) (value : Nat) : Prop where
  nonempty : digits ≠ []
  all_digits : ∀ c ∈ digits, c.isDigit = true
  value_eq : digitsValue digits = value
  bounded : value ≤ bound

/-- A run of decimal digits with an optional plus sign before it. -/
def SignedDecimal (bound : Nat) (text : List Char) (value : Nat) : Prop :=
  Decimal bound text value ∨ ∃ digits, text = '+' :: digits ∧ Decimal bound digits value

theorem Decimal.rebound {bound bound' value : Nat} {digits : List Char} (h : Decimal bound digits value)
    (hvalue : value ≤ bound') : Decimal bound' digits value :=
  ⟨h.nonempty, h.all_digits, h.value_eq, hvalue⟩

theorem SignedDecimal.bounded {bound value : Nat} {text : List Char} (h : SignedDecimal bound text value) :
    value ≤ bound := by
  obtain h | ⟨digits, -, h⟩ := h
  · exact h.bounded
  · exact h.bounded

theorem SignedDecimal.rebound {bound bound' value : Nat} {text : List Char} (h : SignedDecimal bound text value)
    (hvalue : value ≤ bound') : SignedDecimal bound' text value := by
  obtain h | ⟨digits, rfl, h⟩ := h
  · exact Or.inl (h.rebound hvalue)
  · exact Or.inr ⟨digits, rfl, h.rebound hvalue⟩

theorem Decimal.unsigned {bound value : Nat} {digits : List Char} (h : Decimal bound digits value) :
    unsignedDigits digits = digits := unsignedDigits_of_isDigit (List.all_eq_true.mpr h.all_digits)

/-- Parsing an unsigned integer takes the decimal digits, and a sign before them. -/
theorem parseUnsigned_iff {bound value : Nat} {text : List Char} :
    parseUnsigned bound text = some value ↔ SignedDecimal bound text value := by
  have hdigits : parseUnsigned bound text = some value ↔ Decimal bound (unsignedDigits text) value := by
    unfold parseUnsigned
    dsimp only
    split
    · rename_i h
      simp only [Bool.and_eq_true, decide_eq_true_eq, Bool.not_eq_true', List.isEmpty_eq_false_iff,
        List.all_eq_true] at h
      obtain ⟨⟨hne, hall⟩, hbound⟩ := h
      constructor
      · intro heq
        obtain rfl := Option.some.inj heq
        exact ⟨hne, hall, rfl, hbound⟩
      · exact fun hdecimal => congrArg some hdecimal.value_eq
    · rename_i h
      refine iff_of_false (by simp) fun hdecimal => h ?_
      simp only [Bool.and_eq_true, decide_eq_true_eq, Bool.not_eq_true', List.isEmpty_eq_false_iff,
        List.all_eq_true]
      exact ⟨⟨hdecimal.nonempty, hdecimal.all_digits⟩, hdecimal.value_eq ▸ hdecimal.bounded⟩
  rw [hdigits]
  constructor
  · intro h
    unfold unsignedDigits at h
    split at h
    · exact Or.inr ⟨_, rfl, h⟩
    · exact Or.inl h
  · rintro (h | ⟨digits, rfl, h⟩)
    · rwa [h.unsigned]
    · exact h

theorem integer_chars (n : Int) : ∀ c ∈ integer n, c = '-' ∨ c.isDigit = true := by
  intro c hc
  unfold integer at hc
  split at hc
  · obtain rfl | hc := List.mem_cons.mp hc
    · exact Or.inl rfl
    · exact Or.inr (List.all_eq_true.mp (toDigits_all_isDigit n.natAbs) c hc)
  · exact Or.inr (List.all_eq_true.mp (toDigits_all_isDigit n.natAbs) c hc)

theorem integer_ne_nil (n : Int) : integer n ≠ [] := by
  unfold integer
  split
  · exact List.cons_ne_nil _ _
  · exact Nat.toDigits_ne_nil

/-- The decimal text of an integer within the bounds stands for it. -/
theorem parseSigned_integer {low high n : Int} (hlow : low ≤ n) (hhigh : n ≤ high) :
    parseSigned low high (integer n) = some n := by
  have hne : (Nat.toDigits 10 n.natAbs).isEmpty = false := by simp [Nat.toDigits_ne_nil]
  have hall := toDigits_all_isDigit n.natAbs
  unfold parseSigned integer
  by_cases hneg : n < 0
  · have hvalue : -(n.natAbs : Int) = n := by omega
    simp only [if_pos hneg, hne, hall, digitsValue_toDigits, hvalue, Bool.not_false, Bool.and_self, if_true,
      Option.filter_some, decide_eq_true_eq, if_pos (And.intro hlow hhigh)]
  · rw [if_neg hneg]
    split
    · rename_i digits hdigits
      rw [hdigits] at hall
      simp at hall
    · dsimp only
      rw [unsignedDigits_of_isDigit hall, hne, hall, digitsValue_toDigits]
      have hn : (n.natAbs : Int) = n := by omega
      simp [hn, hlow, hhigh]

end Text
