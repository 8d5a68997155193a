import Asmodeus.Lib.PrefixCode
import Mathlib.Data.List.TakeWhile

open PrefixCode

/-- A JSON document whose numbers are natural. -/
inductive Json
  | null
  | bool (value : Bool)
  | num (value : Nat)
  | str (value : String)
  | arr (items : List Json)
  | obj (fields : List (String × Json))

namespace Json

def quote : Char := Char.ofNat 34
def backslash : Char := Char.ofNat 92

/-- Characters that a string literal cannot hold verbatim. -/
def mustEscape (c : Char) : Bool := c.toNat < 0x20 || c == quote || c == backslash

/-- The text after the backslash: a short form where there is one, else the
four hexadecimal digits of the control character. -/
def escapeCode (c : Char) : List Char :=
  if c = quote then [quote]
  else if c = backslash then [backslash]
  else if c = '\n' then ['n']
  else if c = '\r' then ['r']
  else if c = '\t' then ['t']
  else if c.toNat = 0x08 then ['b']
  else if c.toNat = 0x0c then ['f']
  else ['u', '0', '0', Nat.digitChar (c.toNat / 16), Nat.digitChar (c.toNat % 16)]

def escape (c : Char) : List Char := if mustEscape c then backslash :: escapeCode c else [c]

def quoted (s : String) : List Char := quote :: (s.toList.flatMap escape ++ [quote])

def digits (n : Nat) : List Char := Nat.toDigits 10 n

/-- Line breaks and separators of a writer. A break may only add blanks. -/
structure Layout where
  newline : Nat → List Char
  colon : List Char
  blank : ∀ depth, ∀ c ∈ newline depth, c = '\n' ∨ c = ' '

def compact : Layout where
  newline _ := []
  colon := [':']
  blank := by simp

def pretty : Layout where
  newline depth := '\n' :: List.replicate (2 * depth) ' '
  colon := [':', ' ']
  blank depth c hc := by
    rcases List.mem_cons.mp hc with rfl | hspace
    · exact Or.inl rfl
    · exact Or.inr (List.eq_of_mem_replicate hspace)

mutual

/-- The text of a document. Items after the first carry their own separator. -/
def render (layout : Layout) (depth : Nat) : Json → List Char
  | .null => ['n', 'u', 'l', 'l']
  | .bool true => ['t', 'r', 'u', 'e']
  | .bool false => ['f', 'a', 'l', 's', 'e']
  | .num value => digits value
  | .str value => quoted value
  | .arr [] => ['[', ']']
  | .arr (item :: items) =>
    '[' :: (layout.newline (depth + 1) ++ (render layout (depth + 1) item ++ renderItems layout depth items))
  | .obj [] => ['\x7b', '\x7d']
  | .obj ((key, value) :: fields) =>
    '\x7b' :: (layout.newline (depth + 1) ++ (quoted key ++ (layout.colon ++
      (render layout (depth + 1) value ++ renderFields layout depth fields))))

def renderItems (layout : Layout) (depth : Nat) : List Json → List Char
  | [] => layout.newline depth ++ [']']
  | item :: items =>
    ',' :: (layout.newline (depth + 1) ++ (render layout (depth + 1) item ++ renderItems layout depth items))

def renderFields (layout : Layout) (depth : Nat) : List (String × Json) → List Char
  | [] => layout.newline depth ++ ['\x7d']
  | (key, value) :: fields =>
    ',' :: (layout.newline (depth + 1) ++ (quoted key ++ (layout.colon ++
      (render layout (depth + 1) value ++ renderFields layout depth fields))))

end

/-- The codes of the characters a string must escape. -/
def escapedCodes : List Nat := List.range 32 ++ [34, 92]

theorem escaped_chars (c : Char) (hc : mustEscape c = true) : ∃ n ∈ escapedCodes, Char.ofNat n = c := by
  simp only [mustEscape, Bool.or_eq_true, decide_eq_true_eq, beq_iff_eq] at hc
  rcases hc with (hlow | rfl) | rfl
  · exact ⟨c.toNat, List.mem_append_left _ (List.mem_range.mpr hlow), Char.ofNat_toNat c⟩
  · exact ⟨34, by decide, rfl⟩
  · exact ⟨92, by decide, rfl⟩

private theorem escapeCode_prefix_free :
    ∀ m ∈ escapedCodes, ∀ n ∈ escapedCodes,
      escapeCode (Char.ofNat m) <+: escapeCode (Char.ofNat n) → m = n := by
  decide +kernel

theorem escape_ne_nil (c : Char) : escape c ≠ [] := by
  unfold escape
  split <;> simp

theorem backslash_mustEscape : mustEscape backslash = true := by decide

theorem escape_unambiguous : Unambiguous escape := by
  apply Unambiguous.of_prefix_free
  intro a b hpre
  unfold escape at hpre
  split at hpre <;> split at hpre
  · rename_i ha hb
    rw [List.cons_prefix_cons] at hpre
    obtain ⟨m, hm, rfl⟩ := escaped_chars a ha
    obtain ⟨n, hn, rfl⟩ := escaped_chars b hb
    rw [escapeCode_prefix_free m hm n hn hpre.2]
  · rename_i hb
    rw [List.cons_prefix_cons] at hpre
    exact absurd (hpre.1 ▸ backslash_mustEscape) hb
  · rename_i ha _
    rw [List.cons_prefix_cons] at hpre
    exact absurd (hpre.1.symm ▸ backslash_mustEscape) ha
  · rw [List.cons_prefix_cons] at hpre
    exact hpre.1

theorem escape_head_ne_quote (c : Char) : (escape c).head? ≠ some quote := by
  unfold escape
  split
  · rw [List.head?_cons]
    decide
  · rename_i hplain
    intro h
    simp only [List.head?_cons, Option.some.injEq] at h
    subst h
    exact hplain (by decide)

theorem quoted_unambiguous : Unambiguous quoted := by
  intro a b rest rest' h
  simp only [quoted, List.cons_append, List.cons.injEq, true_and] at h
  obtain ⟨hab, htail⟩ := Unambiguous.escaped escape_unambiguous escape_ne_nil escape_head_ne_quote
    a.toList b.toList rest rest' h
  exact ⟨String.toList_injective hab, htail⟩

def IsDigit (c : Char) : Prop := c.isDigit = true

instance : DecidablePred IsDigit := fun c => inferInstanceAs (Decidable (c.isDigit = true))

theorem digits_all (n : Nat) : ∀ c ∈ digits n, IsDigit c :=
  fun _ hc => Nat.isDigit_of_mem_toDigits (by decide) (by decide) hc

/-- A decimal numeral ends where the digits end. -/
theorem digits_unambiguous : UnambiguousBefore IsDigit digits := by
  intro a b rest rest' hrest hrest' h
  have takeDigits : ∀ (n : Nat) (text : List Char), NotAhead IsDigit text →
      (digits n ++ text).takeWhile Char.isDigit = digits n := by
    intro n text htext
    rw [List.takeWhile_append_of_pos (digits_all n)]
    cases text with
    | nil => simp
    | cons c cs =>
      have hc : c.isDigit = false := Bool.eq_false_iff.mpr ((notAhead_cons IsDigit c cs).mp htext)
      simp [hc]
  have hdigits : digits a = digits b := by
    rw [← takeDigits a rest hrest, ← takeDigits b rest' hrest', h]
  have hab : a = b := by
    have hvalue := congrArg (fun text => Nat.ofDigitChars 10 text 0) hdigits
    simpa only [digits, Nat.ofDigitChars_ten_toDigits] using hvalue
  subst hab
  exact ⟨rfl, List.append_cancel_left h⟩

/-- The kinds of documents that a reader tells apart by one character. -/
inductive Kind
  | null | true | false | num | str | arr | obj
  deriving DecidableEq

def kind : Json → Kind
  | .null => .null
  | .bool true => .true
  | .bool false => .false
  | .num _ => .num
  | .str _ => .str
  | .arr _ => .arr
  | .obj _ => .obj

/-- The kind of document a character starts, if it starts one. -/
def kindOf (c : Char) : Option Kind :=
  if c.isDigit then some .num
  else if c = 'n' then some .null
  else if c = 't' then some .true
  else if c = 'f' then some .false
  else if c = quote then some .str
  else if c = '[' then some .arr
  else if c = '\x7b' then some .obj
  else none

theorem render_leads (layout : Layout) (depth : Nat) (value : Json) :
    ∃ c rest, render layout depth value = c :: rest ∧ kindOf c = some value.kind := by
  cases value with
  | null => exact ⟨'n', _, by rw [render], rfl⟩
  | bool value => cases value <;> exact ⟨_, _, by rw [render], rfl⟩
  | num value =>
    obtain ⟨c, rest, hdigits⟩ := List.exists_cons_of_ne_nil (Nat.toDigits_ne_nil (n := value) (b := 10))
    have hc : IsDigit c := digits_all value c (by rw [digits, hdigits]; exact List.mem_cons_self)
    exact ⟨c, rest, by rw [render]; exact hdigits, by rw [kindOf, if_pos (show c.isDigit = true from hc), kind]⟩
  | str value => exact ⟨quote, _, by rw [render, quoted], rfl⟩
  | arr items => cases items <;> exact ⟨'[', _, by rw [render], rfl⟩
  | obj fields =>
    cases fields with
    | nil => exact ⟨'\x7b', _, by rw [render], rfl⟩
    | cons field fields => exact ⟨'\x7b', _, by rw [render], rfl⟩

/-- Texts that start with two documents and agree start with one kind. -/
theorem kind_eq_of_render_append_eq (layout : Layout) (depth : Nat) {v w : Json} {text text' : List Char}
    (h : render layout depth v ++ text = render layout depth w ++ text') : v.kind = w.kind := by
  obtain ⟨c, rest, hv, hkv⟩ := render_leads layout depth v
  obtain ⟨d, rest', hw, hkw⟩ := render_leads layout depth w
  rw [hv, hw, List.cons_append, List.cons_append, List.cons.injEq] at h
  rw [← h.1, hkv, Option.some.injEq] at hkw
  exact hkw

/-- A break in front of a text starts with a blank or with that text. -/
theorem break_head_ne (layout : Layout) (depth : Nat) {c d : Char} {text text' : List Char}
    (hcd : c ≠ d) (hline : d ≠ '\n') (hspace : d ≠ ' ') :
    layout.newline depth ++ c :: text ≠ d :: text' := by
  intro h
  cases hbreak : layout.newline depth with
  | nil =>
    rw [hbreak, List.nil_append, List.cons.injEq] at h
    exact hcd h.1
  | cons e es =>
    rw [hbreak, List.cons_append, List.cons.injEq] at h
    rcases layout.blank depth e (by rw [hbreak]; exact List.mem_cons_self) with rfl | rfl
    · exact hline h.1.symm
    · exact hspace h.1.symm

theorem renderItems_notAhead (layout : Layout) (depth : Nat) (items : List Json) (text : List Char) :
    NotAhead IsDigit (renderItems layout depth items ++ text) := by
  cases items with
  | cons item items => rw [renderItems, List.cons_append, notAhead_cons]; decide
  | nil =>
    rw [renderItems, List.append_assoc]
    cases hbreak : layout.newline depth with
    | nil => rw [List.nil_append, List.singleton_append, notAhead_cons]; decide
    | cons e es =>
      rw [List.cons_append, notAhead_cons]
      rcases layout.blank depth e (by rw [hbreak]; exact List.mem_cons_self) with rfl | rfl <;> decide

theorem renderFields_notAhead (layout : Layout) (depth : Nat) (fields : List (String × Json))
    (text : List Char) : NotAhead IsDigit (renderFields layout depth fields ++ text) := by
  cases fields with
  | cons field fields => rw [renderFields, List.cons_append, notAhead_cons]; decide
  | nil =>
    rw [renderFields, List.append_assoc]
    cases hbreak : layout.newline depth with
    | nil => rw [List.nil_append, List.singleton_append, notAhead_cons]; decide
    | cons e es =>
      rw [List.cons_append, notAhead_cons]
      rcases layout.blank depth e (by rw [hbreak]; exact List.mem_cons_self) with rfl | rfl <;> decide

theorem render_ne_close (layout : Layout) (depth : Nat) (item : Json) (text text' : List Char) :
    layout.newline (depth + 1) ++ (render layout (depth + 1) item ++ text) ≠ ']' :: text' := by
  obtain ⟨c, rest, hrender, hleads⟩ := render_leads layout (depth + 1) item
  rw [hrender, List.cons_append]
  refine break_head_ne layout (depth + 1) ?_ (by decide) (by decide)
  rintro rfl
  rw [show kindOf ']' = none by decide] at hleads
  cases hleads

theorem field_ne_close (layout : Layout) (depth : Nat) (key : String) (text text' : List Char) :
    layout.newline (depth + 1) ++ (quoted key ++ text) ≠ '\x7d' :: text' := by
  rw [quoted, List.cons_append]
  exact break_head_ne layout (depth + 1) (by decide) (by decide) (by decide)

mutual

/-- Documents of one layout and depth can be read off the front of any text;
only after a number must the text not continue the numeral. -/
theorem render_unambiguous (layout : Layout) (depth : Nat) :
    ∀ (v w : Json) (rest rest' : List Char),
      (v.kind = .num → NotAhead IsDigit rest ∧ NotAhead IsDigit rest') →
      render layout depth v ++ rest = render layout depth w ++ rest' → v = w ∧ rest = rest'
  | .null, w, rest, rest', _, h => by
    have hkind := kind_eq_of_render_append_eq layout depth h
    cases w with
    | null => exact ⟨rfl, List.append_cancel_left h⟩
    | bool value => cases value <;> cases hkind
    | _ => cases hkind
  | .bool value, w, rest, rest', _, h => by
    have hkind := kind_eq_of_render_append_eq layout depth h
    cases w with
    | bool value' =>
      cases value <;> cases value' <;> first
        | exact ⟨rfl, List.append_cancel_left h⟩
        | cases hkind
    | _ => cases value <;> cases hkind
  | .num value, w, rest, rest', hends, h => by
    have hkind := kind_eq_of_render_append_eq layout depth h
    cases w with
    | num value' =>
      rw [render, render] at h
      obtain ⟨hvalue, htail⟩ := digits_unambiguous value value' rest rest'
        (hends rfl).1 (hends rfl).2 h
      exact ⟨by rw [hvalue], htail⟩
    | bool value' => cases value' <;> cases hkind
    | _ => cases hkind
  | .str value, w, rest, rest', _, h => by
    have hkind := kind_eq_of_render_append_eq layout depth h
    cases w with
    | str value' =>
      rw [render, render] at h
      obtain ⟨hvalue, htail⟩ := quoted_unambiguous value value' rest rest' h
      exact ⟨by rw [hvalue], htail⟩
    | bool value' => cases value' <;> cases hkind
    | _ => cases hkind
  | .arr items, w, rest, rest', _, h => by
    have hkind := kind_eq_of_render_append_eq layout depth h
    cases w with
    | arr items' =>
      cases items with
      | nil =>
        cases items' with
        | nil => exact ⟨rfl, List.append_cancel_left h⟩
        | cons item' items' =>
          simp only [render, List.cons_append, List.nil_append, List.append_assoc, List.cons.injEq,
            true_and] at h
          exact absurd h.symm (render_ne_close layout depth item' _ _)
      | cons item items =>
        cases items' with
        | nil =>
          simp only [render, List.cons_append, List.nil_append, List.append_assoc, List.cons.injEq,
            true_and] at h
          exact absurd h (render_ne_close layout depth item _ _)
        | cons item' items' =>
          simp only [render, List.cons_append, List.append_assoc, List.cons.injEq, true_and] at h
          obtain ⟨hitem, htail⟩ := render_unambiguous layout (depth + 1) item item' _ _
            (fun _ => ⟨renderItems_notAhead layout depth items rest, renderItems_notAhead layout depth items' rest'⟩)
            (List.append_cancel_left h)
          obtain ⟨hitems, hrest⟩ := renderItems_unambiguous layout depth items items' rest rest' htail
          exact ⟨by rw [hitem, hitems], hrest⟩
    | bool value' => cases value' <;> cases hkind
    | _ => cases hkind
  | .obj fields, w, rest, rest', _, h => by
    have hkind := kind_eq_of_render_append_eq layout depth h
    cases w with
    | obj fields' =>
      match fields, fields' with
      | [], [] => exact ⟨rfl, List.append_cancel_left h⟩
      | [], (key', value') :: fields' =>
        simp only [render, List.cons_append, List.nil_append, List.append_assoc, List.cons.injEq,
          true_and] at h
        exact absurd h.symm (field_ne_close layout depth key' _ _)
      | (key, value) :: fields, [] =>
        simp only [render, List.cons_append, List.nil_append, List.append_assoc, List.cons.injEq,
          true_and] at h
        exact absurd h (field_ne_close layout depth key _ _)
      | (key, value) :: fields, (key', value') :: fields' =>
        simp only [render, List.cons_append, List.append_assoc, List.cons.injEq, true_and] at h
        obtain ⟨hkey, hcolon⟩ := quoted_unambiguous key key' _ _ (List.append_cancel_left h)
        obtain ⟨hvalue, htail⟩ := render_unambiguous layout (depth + 1) value value' _ _
          (fun _ => ⟨renderFields_notAhead layout depth fields rest, renderFields_notAhead layout depth fields' rest'⟩)
          (List.append_cancel_left hcolon)
        obtain ⟨hfields, hrest⟩ := renderFields_unambiguous layout depth fields fields' rest rest' htail
        exact ⟨by rw [hkey, hvalue, hfields], hrest⟩
    | bool value' => cases value' <;> cases hkind
    | _ => cases hkind

theorem renderItems_unambiguous (layout : Layout) (depth : Nat) :
    ∀ (items items' : List Json) (rest rest' : List Char),
      renderItems layout depth items ++ rest = renderItems layout depth items' ++ rest' →
      items = items' ∧ rest = rest'
  | [], [], rest, rest', h => ⟨rfl, List.append_cancel_left h⟩
  | [], item' :: items', rest, rest', h => by
    simp only [renderItems, List.append_assoc, List.cons_append, List.nil_append] at h
    exact absurd h (break_head_ne layout depth (by decide) (by decide) (by decide))
  | item :: items, [], rest, rest', h => by
    simp only [renderItems, List.append_assoc, List.cons_append, List.nil_append] at h
    exact absurd h.symm (break_head_ne layout depth (by decide) (by decide) (by decide))
  | item :: items, item' :: items', rest, rest', h => by
    simp only [renderItems, List.cons_append, List.append_assoc, List.cons.injEq, true_and] at h
    obtain ⟨hitem, htail⟩ := render_unambiguous layout (depth + 1) item item' _ _
      (fun _ => ⟨renderItems_notAhead layout depth items rest, renderItems_notAhead layout depth items' rest'⟩)
      (List.append_cancel_left h)
    obtain ⟨hitems, hrest⟩ := renderItems_unambiguous layout depth items items' rest rest' htail
    exact ⟨by rw [hitem, hitems], hrest⟩

theorem renderFields_unambiguous (layout : Layout) (depth : Nat) :
    ∀ (fields fields' : List (String × Json)) (rest rest' : List Char),
      renderFields layout depth fields ++ rest = renderFields layout depth fields' ++ rest' →
      fields = fields' ∧ rest = rest'
  | [], [], rest, rest', h => ⟨rfl, List.append_cancel_left h⟩
  | [], (key', value') :: fields', rest, rest', h => by
    simp only [renderFields, List.append_assoc, List.cons_append, List.nil_append] at h
    exact absurd h (break_head_ne layout depth (by decide) (by decide) (by decide))
  | (key, value) :: fields, [], rest, rest', h => by
    simp only [renderFields, List.append_assoc, List.cons_append, List.nil_append] at h
    exact absurd h.symm (break_head_ne layout depth (by decide) (by decide) (by decide))
  | (key, value) :: fields, (key', value') :: fields', rest, rest', h => by
    simp only [renderFields, List.cons_append, List.append_assoc, List.cons.injEq, true_and] at h
    obtain ⟨hkey, hcolon⟩ := quoted_unambiguous key key' _ _ (List.append_cancel_left h)
    obtain ⟨hvalue, htail⟩ := render_unambiguous layout (depth + 1) value value' _ _
      (fun _ => ⟨renderFields_notAhead layout depth fields rest, renderFields_notAhead layout depth fields' rest'⟩)
      (List.append_cancel_left hcolon)
    obtain ⟨hfields, hrest⟩ := renderFields_unambiguous layout depth fields fields' rest rest' htail
    exact ⟨by rw [hkey, hvalue, hfields], hrest⟩

end

end Json
