import Asmodeus.Lib.Json

open PrefixCode

namespace Json

private theorem escapeCode_no_newline :
    ∀ n ∈ escapedCodes, '\n' ∉ escapeCode (Char.ofNat n) := by
  decide +kernel

theorem escape_no_newline (c : Char) : '\n' ∉ escape c := by
  unfold escape
  split
  · rename_i hc
    intro hmem
    rcases List.mem_cons.mp hmem with h | h
    · exact absurd h (by decide)
    · obtain ⟨n, hn, rfl⟩ := escaped_chars c hc
      exact escapeCode_no_newline n hn h
  · rename_i hplain
    intro hmem
    rw [List.mem_singleton] at hmem
    subst hmem
    exact hplain (by decide)

theorem quoted_no_newline (s : String) : '\n' ∉ quoted s := by
  simp only [quoted, List.mem_cons, List.mem_append, List.mem_flatMap, List.not_mem_nil, or_false,
    not_or, not_exists, not_and]
  exact ⟨by decide, fun c _ => escape_no_newline c, by decide⟩

theorem digits_no_newline (n : Nat) : '\n' ∉ digits n :=
  fun hmem => absurd (digits_all n '\n' hmem) (by decide)

mutual

/-- The compact writer stays on one line: control characters are escaped. -/
theorem render_compact_no_newline (depth : Nat) : ∀ v : Json, '\n' ∉ render compact depth v
  | .null => by rw [render]; decide
  | .bool true => by rw [render]; decide
  | .bool false => by rw [render]; decide
  | .num value => by rw [render]; exact digits_no_newline value
  | .str value => by rw [render]; exact quoted_no_newline value
  | .arr [] => by rw [render]; decide
  | .arr (item :: items) => by
    simp only [render, compact, List.nil_append, List.mem_cons, List.mem_append, not_or]
    exact ⟨by decide, render_compact_no_newline (depth + 1) item, renderItems_compact_no_newline depth items⟩
  | .obj [] => by rw [render]; decide
  | .obj ((key, value) :: fields) => by
    simp only [render, compact, List.nil_append, List.mem_cons, List.mem_append, List.not_mem_nil,
      or_false, not_or]
    exact ⟨by decide, quoted_no_newline key, by decide, render_compact_no_newline (depth + 1) value,
      renderFields_compact_no_newline depth fields⟩

theorem renderItems_compact_no_newline (depth : Nat) :
    ∀ items : List Json, '\n' ∉ renderItems compact depth items
  | [] => by rw [renderItems]; exact (by decide : '\n' ∉ [']'])
  | item :: items => by
    simp only [renderItems, compact, List.nil_append, List.mem_cons, List.mem_append, not_or]
    exact ⟨by decide, render_compact_no_newline (depth + 1) item, renderItems_compact_no_newline depth items⟩

theorem renderFields_compact_no_newline (depth : Nat) :
    ∀ fields : List (String × Json), '\n' ∉ renderFields compact depth fields
  | [] => by rw [renderFields]; exact (by decide : '\n' ∉ ['\x7d'])
  | (key, value) :: fields => by
    simp only [renderFields, compact, List.nil_append, List.mem_cons, List.mem_append, List.not_mem_nil,
      or_false, not_or]
    exact ⟨by decide, quoted_no_newline key, by decide, render_compact_no_newline (depth + 1) value,
      renderFields_compact_no_newline depth fields⟩

end

theorem renderFields_getLast? (layout : Layout) (depth : Nat) (fields : List (String × Json)) :
    (renderFields layout depth fields).getLast? = some '\x7d' := by
  induction fields with
  | nil => rw [renderFields, List.getLast?_append_of_ne_nil _ (by simp)]; rfl
  | cons field fields ih =>
    have hne : renderFields layout depth fields ≠ [] := by
      rintro hnil
      rw [hnil] at ih
      cases ih
    obtain ⟨key, value⟩ := field
    rw [renderFields, List.getLast?_cons_of_ne_nil (by simp [hne]),
      List.getLast?_append_of_ne_nil _ (by simp [hne]), List.getLast?_append_of_ne_nil _ (by simp [hne]),
      List.getLast?_append_of_ne_nil _ (by simp [hne]), List.getLast?_append_of_ne_nil _ hne, ih]

/-- An object stands between its braces. -/
theorem render_obj_braces (layout : Layout) (depth : Nat) (fields : List (String × Json)) :
    (render layout depth (.obj fields)).head? = some '\x7b' ∧
      (render layout depth (.obj fields)).getLast? = some '\x7d' := by
  cases fields with
  | nil => rw [render]; exact ⟨rfl, rfl⟩
  | cons field fields =>
    have hlast := renderFields_getLast? layout depth fields
    have hne : renderFields layout depth fields ≠ [] := by
      rintro hnil
      rw [hnil] at hlast
      cases hlast
    obtain ⟨key, value⟩ := field
    refine ⟨by rw [render]; rfl, ?_⟩
    rw [render, List.getLast?_cons_of_ne_nil (by simp [hne]),
      List.getLast?_append_of_ne_nil _ (by simp [hne]), List.getLast?_append_of_ne_nil _ (by simp [hne]),
      List.getLast?_append_of_ne_nil _ (by simp [hne]), List.getLast?_append_of_ne_nil _ hne, hlast]

/-- A type written as a JSON object loses nothing and is read off the front of
any text. -/
theorem render_obj_unambiguous {α : Type*} (layout : Layout) {fields : α → List (String × Json)}
    (hfields : Function.Injective fields) : Unambiguous (fun a => render layout 0 (.obj (fields a))) := by
  intro a b rest rest' h
  obtain ⟨hab, hrest⟩ := render_unambiguous layout 0 (.obj (fields a)) (.obj (fields b)) rest rest'
    (fun hkind => by cases hkind) h
  rw [Json.obj.injEq] at hab
  exact ⟨hfields hab, hrest⟩

/-- What JSON allows between and after its tokens. -/
def isBlank (c : Char) : Bool := c == ' ' || c == '\n' || c == '\t' || c == '\r'

/-- A JSON reader for one type and the texts its writer produces. It reads back
what was written; a written text cut short is an unexpected end of input;
anything but a blank after a complete text is trailing characters. What it
does on every other text is left open. -/
structure Reader (α : Type*) (to_string : α → List Char) where
  from_str : List Char → Except String α
  round_trip : ∀ a, from_str (to_string a) = .ok a
  truncated : ∀ a text, text <+: to_string a → text ≠ to_string a → ∃ e, from_str text = .error e
  trailing : ∀ a c text, isBlank c = false → ∃ e, from_str (to_string a ++ c :: text) = .error e

open Classical in
/-- The strictest reader of an unambiguous writer: it accepts exactly the
written texts. -/
noncomputable def Reader.strict {α : Type*} {to_string : α → List Char}
    (hcode : Unambiguous to_string) : Reader α to_string where
  from_str text := if h : ∃ a, to_string a = text then .ok h.choose else .error "expected value"
  round_trip a := by
    have h : ∃ b, to_string b = to_string a := ⟨a, rfl⟩
    rw [dif_pos h]
    congr 1
    exact (hcode.before (fun _ => False)).injective h.choose_spec
  truncated a text hpre hne := by
    refine ⟨_, dif_neg ?_⟩
    rintro ⟨b, rfl⟩
    exact hne (by rw [hcode.eq_of_prefix hpre])
  trailing a c text _ := by
    refine ⟨_, dif_neg ?_⟩
    rintro ⟨b, hb⟩
    obtain ⟨-, hrest⟩ := hcode b a [] (c :: text) (by simpa using hb)
    cases hrest

end Json
