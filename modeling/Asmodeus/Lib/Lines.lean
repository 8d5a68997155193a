import Mathlib.Data.List.TakeWhile

namespace Lines

def newline : UInt8 := 10
def carriageReturn : UInt8 := 13

/-- The lines of a byte stream without their terminators, a line feed or a
carriage return and a line feed. What follows the last terminator is a line of
its own unless it is empty. -/
def split : List UInt8 → List (List UInt8)
  | [] => []
  | b :: rest =>
    if b = newline then [] :: split rest
    else if b = carriageReturn ∧ rest.head? = some newline then split rest
    else match split rest with
      | [] => [[b]]
      | line :: lines => (b :: line) :: lines

/-- A terminated line comes off the front of the stream. -/
theorem split_terminated {line : List UInt8} (rest : List UInt8) (hline : newline ∉ line)
    (hlast : line.getLast? ≠ some carriageReturn) :
    split (line ++ newline :: rest) = line :: split rest := by
  induction line with
  | nil => rw [List.nil_append, split, if_pos rfl]
  | cons b line ih =>
    have hb : b ≠ newline := fun h => hline (h ▸ List.mem_cons_self)
    have htail : newline ∉ line := fun h => hline (List.mem_cons_of_mem b h)
    have hreturn : ¬ (b = carriageReturn ∧ (line ++ newline :: rest).head? = some newline) := by
      rintro ⟨rfl, hhead⟩
      cases line with
      | nil => exact hlast rfl
      | cons c cs =>
        rw [List.cons_append, List.head?_cons, Option.some.injEq] at hhead
        exact htail (hhead ▸ List.mem_cons_self)
    have hlast' : line.getLast? ≠ some carriageReturn := by
      cases line with
      | nil => simp
      | cons c cs => simpa [List.getLast?_cons_cons] using hlast
    rw [List.cons_append, split, if_neg hb, if_neg hreturn, ih htail hlast']

/-- The unterminated end of a stream is one line. -/
theorem split_unterminated {line : List UInt8} (hne : line ≠ []) (hline : newline ∉ line) :
    split line = [line] := by
  induction line with
  | nil => exact absurd rfl hne
  | cons b line ih =>
    have hb : b ≠ newline := fun h => hline (h ▸ List.mem_cons_self)
    have htail : newline ∉ line := fun h => hline (List.mem_cons_of_mem b h)
    have hreturn : ¬ (b = carriageReturn ∧ line.head? = some newline) := by
      rintro ⟨-, hhead⟩
      exact htail (List.mem_of_mem_head? hhead)
    rw [split, if_neg hb, if_neg hreturn]
    cases line with
    | nil => rfl
    | cons c cs => rw [ih (List.cons_ne_nil c cs) htail]

/-- The characters with Unicode's `White_Space` property. -/
def isWhitespace (c : Char) : Bool :=
  let n := c.toNat
  (0x09 ≤ n && n ≤ 0x0d) || n == 0x20 || n == 0x85 || n == 0xa0 || n == 0x1680 ||
    (0x2000 ≤ n && n ≤ 0x200a) || n == 0x2028 || n == 0x2029 || n == 0x202f || n == 0x205f || n == 0x3000

/-- The lines of a text without their terminators. -/
def ofText (text : List Char) : List (List Char) :=
  let parts := text.splitOn '\n'
  let terminated := parts.dropLast.map fun line => if line.getLast? = some '\r' then line.dropLast else line
  terminated ++ parts.getLast?.toList.filter fun line => !line.isEmpty

/-- The text without the whitespace at its start. -/
def trimStart (text : List Char) : List Char := text.dropWhile isWhitespace

/-- The text without the whitespace at its two ends. -/
def trim (text : List Char) : List Char :=
  ((text.dropWhile isWhitespace).reverse.dropWhile isWhitespace).reverse

theorem trim_nil : trim [] = [] := rfl

theorem trim_prefix {c : Char} {text : List Char} (hc : isWhitespace c = false) :
    trim (c :: text) <+: c :: text := by
  rw [trim, List.dropWhile_cons_of_neg (by simp [hc])]
  have hsuffix : (c :: text).reverse.dropWhile isWhitespace <:+ (c :: text).reverse :=
    List.dropWhile_suffix isWhitespace
  rw [← List.reverse_suffix, List.reverse_reverse]
  exact hsuffix

theorem trim_ne_nil {c : Char} {text : List Char} (hc : isWhitespace c = false) :
    trim (c :: text) ≠ [] := by
  rw [trim, List.dropWhile_cons_of_neg (by simp [hc]), ne_eq, List.reverse_eq_nil_iff,
    List.dropWhile_eq_nil_iff]
  intro hall
  have hspace := hall c (by simp)
  rw [hc] at hspace
  cases hspace

/-- Nothing is trimmed between two ends that are not whitespace. -/
theorem trim_eq_self {c d : Char} {text : List Char} (hfirst : text.head? = some c)
    (hlast : text.getLast? = some d) (hc : isWhitespace c = false) (hd : isWhitespace d = false) :
    trim text = text := by
  cases text with
  | nil => rfl
  | cons e es =>
    rw [List.head?_cons, Option.some.injEq] at hfirst
    subst hfirst
    rw [trim, List.dropWhile_cons_of_neg (by simp [hc])]
    have hreverse : (e :: es).reverse.head? = some d := by rw [List.head?_reverse, hlast]
    cases hrev : (e :: es).reverse with
    | nil => rw [hrev] at hreverse; cases hreverse
    | cons f fs =>
      rw [hrev, List.head?_cons, Option.some.injEq] at hreverse
      subst hreverse
      rw [List.dropWhile_cons_of_neg (by simp [hd]), ← hrev, List.reverse_reverse]

theorem splitOn_terminated {lines : List (List Char)} (hlines : ∀ line ∈ lines, '\n' ∉ line) :
    (lines.flatMap fun line => line ++ ['\n']).splitOn '\n' = lines ++ [[]] := by
  induction lines with
  | nil => rfl
  | cons line lines ih =>
    have hrest := ih fun other hother => hlines other (List.mem_cons_of_mem line hother)
    rw [List.flatMap_cons, List.append_assoc, List.singleton_append,
      List.splitOn_append_cons_self_of_not_mem (hlines line List.mem_cons_self), hrest, List.cons_append]

/-- Terminated lines are read back, when none ends in what a terminator may take with it. -/
theorem ofText_terminated {lines : List (List Char)}
    (hlines : ∀ line ∈ lines, '\n' ∉ line ∧ line.getLast? ≠ some '\r') :
    ofText (lines.flatMap fun line => line ++ ['\n']) = lines := by
  have hkept : (lines.map fun line => if line.getLast? = some '\r' then line.dropLast else line) = lines := by
    refine (List.map_congr_left fun line hline => ?_).trans (List.map_id lines)
    rw [if_neg (hlines line hline).2, id]
  rw [ofText, splitOn_terminated fun line hline => (hlines line hline).1]
  simp [hkept]

theorem trimStart_replicate (n : Nat) (text : List Char) :
    trimStart (List.replicate n ' ' ++ text) = trimStart text := by
  induction n with
  | zero => rfl
  | succ n ih =>
    rw [List.replicate_succ, List.cons_append, trimStart, List.dropWhile_cons_of_pos (by decide)]
    exact ih

theorem trim_replicate (n : Nat) (text : List Char) : trim (List.replicate n ' ' ++ text) = trim text := by
  have hstart := trimStart_replicate n text
  rw [trimStart, trimStart] at hstart
  rw [trim, trim, hstart]

theorem trimStart_eq_self {c : Char} {text : List Char} (hfirst : text.head? = some c)
    (hc : isWhitespace c = false) : trimStart text = text := by
  cases text with
  | nil => rfl
  | cons d text =>
    obtain rfl := Option.some.inj hfirst
    rw [trimStart, List.dropWhile_cons_of_neg (by simp [hc])]

/-- A text of one line without whitespace at its ends. -/
structure Tidy (text : List Char) : Prop where
  first : ∃ c, text.head? = some c ∧ isWhitespace c = false
  last : ∃ c, text.getLast? = some c ∧ isWhitespace c = false
  no_newline : '\n' ∉ text

theorem Tidy.trim {text : List Char} (h : Tidy text) : trim text = text := by
  obtain ⟨c, hfirst, hc⟩ := h.first
  obtain ⟨d, hlast, hd⟩ := h.last
  exact trim_eq_self hfirst hlast hc hd

theorem Tidy.ne_nil {text : List Char} (h : Tidy text) : text ≠ [] := by
  obtain ⟨c, hfirst, -⟩ := h.first
  rintro rfl
  cases hfirst

theorem tidy_of_solid {text : List Char} (hne : text ≠ []) (hsolid : ∀ c ∈ text, isWhitespace c = false) :
    Tidy text := by
  refine ⟨⟨text.head hne, List.head?_eq_some_head hne, hsolid _ (List.head_mem hne)⟩,
    ⟨text.getLast hne, List.getLast?_eq_some_getLast hne, hsolid _ (List.getLast_mem hne)⟩, ?_⟩
  intro hnewline
  have hspace := hsolid '\n' hnewline
  exact absurd hspace (by decide)

theorem tidy_of_all {text : List Char} (hne : text ≠ []) (hall : text.all (fun c => !isWhitespace c) = true) :
    Tidy text := by
  refine tidy_of_solid hne fun c hc => ?_
  have hc := List.all_eq_true.mp hall c hc
  rwa [Bool.not_eq_true'] at hc

theorem isWhitespace_of_isDigit {c : Char} (h : c.isDigit = true) : isWhitespace c = false := by
  simp only [Char.isDigit, Bool.and_eq_true, decide_eq_true_eq, UInt32.le_iff_toNat_le] at h
  have hlow : 48 ≤ c.toNat := h.1
  have hhigh : c.toNat ≤ 57 := h.2
  simp only [isWhitespace, Bool.or_eq_false_iff, Bool.and_eq_false_iff, decide_eq_false_iff_not,
    beq_eq_false_iff_ne]
  omega

end Lines
