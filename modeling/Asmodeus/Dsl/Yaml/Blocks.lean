import Asmodeus.Dsl.Yaml

namespace asmodeus.dsl

mutual

/-- The keys of a document at all depths, in document order. -/
def document_keys : Value → List String
  | .Null | .Bool _ | .Number _ | .String _ => []
  | .Array items => item_keys items
  | .Object fields => field_keys fields

def item_keys : List Value → List String
  | [] => []
  | item :: items => document_keys item ++ item_keys items

def field_keys : List (String × Value) → List String
  | [] => []
  | (key, value) :: fields => key :: (document_keys value ++ field_keys fields)

end

mutual

/-- No mapping of the document, at any depth, has a key twice. -/
def WellKeyed : Value → Prop
  | .Null | .Bool _ | .Number _ | .String _ => True
  | .Array items => ItemsWellKeyed items
  | .Object fields => (fields.map Prod.fst).Nodup ∧ FieldsWellKeyed fields

def ItemsWellKeyed : List Value → Prop
  | [] => True
  | item :: items => WellKeyed item ∧ ItemsWellKeyed items

def FieldsWellKeyed : List (String × Value) → Prop
  | [] => True
  | (_, value) :: fields => WellKeyed value ∧ FieldsWellKeyed fields

end

theorem field_keys_append (fields more : List (String × Value)) :
    field_keys (fields ++ more) = field_keys fields ++ field_keys more := by
  induction fields with
  | nil => rfl
  | cons field fields ih =>
    rw [List.cons_append, field_keys, field_keys, ih, List.cons_append, List.append_assoc]

theorem fieldsWellKeyed_append (fields more : List (String × Value)) :
    FieldsWellKeyed (fields ++ more) ↔ FieldsWellKeyed fields ∧ FieldsWellKeyed more := by
  induction fields with
  | nil => simp [FieldsWellKeyed]
  | cons field fields ih => simp only [List.cons_append, FieldsWellKeyed, ih, and_assoc]

/-- The key of a line of a mapping. -/
def YamlLine.key (line : YamlLine) : String :=
  match Text.splitOnce ':' line.text with
  | some (key_raw, _) => String.ofList (Lines.trim key_raw)
  | none => ""

section

variable (parse_f64 : String → Option UInt64)

/-- The block and the lines it leaves. -/
def read_block (current_indent : Nat) (map : List (String × Value)) (lines : List YamlLine) :
    Except ManifestValidationError (List (String × Value) × List YamlLine) :=
  (parse_yaml_map parse_f64 current_indent map lines).map fun read => (read.1, read.2.val)

/-- The value of a line, with the child block it may open. -/
def read_value (indent : Nat) (val_raw : List Char) (rest : List YamlLine) :
    Except ManifestValidationError (Value × List YamlLine) :=
  if Lines.trim val_raw ≠ [] then .ok (parse_scalar_value parse_f64 (Lines.trim val_raw), rest)
  else match rest.head?.filter fun next => decide (indent < next.indent) with
    | none => .ok (.Null, rest)
    | some next => (read_block parse_f64 next.indent [] rest).map fun read => (.Object read.1, read.2)

variable {parse_f64}

theorem read_block_nil (current_indent : Nat) (map : List (String × Value)) :
    read_block parse_f64 current_indent map [] = .ok (map, []) := by
  rw [read_block, parse_yaml_map]
  rfl

theorem read_block_dedent {current_indent : Nat} {line : YamlLine} (map : List (String × Value))
    (rest : List YamlLine) (hdedent : line.indent < current_indent) :
    read_block parse_f64 current_indent map (line :: rest) = .ok (map, line :: rest) := by
  rw [read_block, parse_yaml_map, if_pos hdedent]
  rfl

theorem read_block_cons {current_indent : Nat} {line : YamlLine} (map : List (String × Value))
    (rest : List YamlLine) (hindent : line.indent = current_indent) {key_raw val_raw : List Char}
    (hsplit : Text.splitOnce ':' line.text = some (key_raw, val_raw)) :
    read_block parse_f64 current_indent map (line :: rest) =
      match read_value parse_f64 line.indent val_raw rest with
      | .error e => .error e
      | .ok (value, left) =>
        if map.any fun field => decide (field.1 = line.key) then .error (.ParseError ("duplicate key: " ++ line.key))
        else read_block parse_f64 current_indent (map ++ [(line.key, value)]) left := by
  have hkey : line.key = String.ofList (Lines.trim key_raw) := by rw [YamlLine.key, hsplit]
  rw [read_block, parse_yaml_map, if_neg (by omega), if_neg (by omega), hsplit, read_value]
  dsimp only
  rw [← hkey]
  by_cases hval : Lines.trim val_raw ≠ []
  · simp only [if_pos hval, read_block]
    split
    · rfl
    · cases parse_yaml_map parse_f64 current_indent
        (map ++ [(line.key, parse_scalar_value parse_f64 (Lines.trim val_raw))]) rest <;> rfl
  · simp only [if_neg hval]
    cases rest.head?.filter fun next => decide (line.indent < next.indent) with
    | none =>
      simp only [read_block]
      split
      · rfl
      · cases parse_yaml_map parse_f64 current_indent (map ++ [(line.key, .Null)]) rest <;> rfl
    | some next =>
      simp only [read_block]
      cases parse_yaml_map parse_f64 next.indent [] rest with
      | error e => rfl
      | ok read =>
        obtain ⟨fields, left, hleft⟩ := read
        by_cases hdup : (map.any fun field => decide (field.1 = line.key)) = true
        · simp only [Except.map, if_pos hdup]
        · simp only [Except.map, if_neg hdup]
          cases parse_yaml_map parse_f64 current_indent (map ++ [(line.key, .Object fields)]) left <;> rfl

theorem parse_yaml_ok_iff {yaml_str : List Char} {v : Value} :
    parse_yaml_to_json_value parse_f64 yaml_str = .ok v ↔
      yaml_lines yaml_str ≠ [] ∧ ∃ fields rest, v = .Object fields ∧
        read_block parse_f64 0 [] (yaml_lines yaml_str) = .ok (fields, rest) := by
  rw [parse_yaml_to_json_value, read_block]
  by_cases hlines : yaml_lines yaml_str = []
  · simp [hlines]
  · simp only [if_neg hlines]
    cases parse_yaml_map parse_f64 0 [] (yaml_lines yaml_str) with
    | error e => simp [Except.map]
    | ok read => simp [Except.map, hlines, eq_comm]

/-- A block ends at a line that is indented less, or reads the line at its own indentation. -/
theorem read_block_cases {current_indent : Nat} {map fields : List (String × Value)} {lines rest : List YamlLine}
    (h : read_block parse_f64 current_indent map lines = .ok (fields, rest)) :
    (fields = map ∧ rest = lines ∧ ∀ next ∈ lines.head?, next.indent < current_indent) ∨
    ∃ line tail val_raw value left, lines = line :: tail ∧ line.key ∉ map.map Prod.fst ∧
      read_value parse_f64 line.indent val_raw tail = .ok (value, left) ∧
      read_block parse_f64 current_indent (map ++ [(line.key, value)]) left = .ok (fields, rest) := by
  cases lines with
  | nil =>
    rw [read_block_nil] at h
    obtain ⟨rfl, rfl⟩ := Prod.mk.inj (Except.ok.inj h)
    exact Or.inl ⟨rfl, rfl, by simp⟩
  | cons line tail =>
    by_cases hdedent : line.indent < current_indent
    · rw [read_block_dedent map tail hdedent] at h
      obtain ⟨rfl, rfl⟩ := Prod.mk.inj (Except.ok.inj h)
      exact Or.inl ⟨rfl, rfl, by simpa using hdedent⟩
    · right
      by_cases hindent : current_indent < line.indent
      · rw [read_block, parse_yaml_map, if_neg hdedent, if_pos hindent] at h
        cases h
      · cases hsplit : Text.splitOnce ':' line.text with
        | none =>
          rw [read_block, parse_yaml_map, if_neg hdedent, if_neg hindent, hsplit] at h
          cases h
        | some parts =>
          obtain ⟨key_raw, val_raw⟩ := parts
          rw [read_block_cons map tail (by omega) hsplit] at h
          cases hvalue : read_value parse_f64 line.indent val_raw tail with
          | error e => simp [hvalue] at h
          | ok read =>
            obtain ⟨value, left⟩ := read
            rw [hvalue] at h
            dsimp only at h
            by_cases hdup : (map.any fun field => decide (field.1 = line.key)) = true
            · rw [if_pos hdup] at h
              cases h
            · rw [if_neg hdup] at h
              have hfresh : line.key ∉ map.map Prod.fst := by simpa using hdup
              exact ⟨line, tail, val_raw, value, left, rfl, hfresh, hvalue, h⟩

theorem parse_scalar_value_flat (raw : List Char) :
    document_keys (parse_scalar_value parse_f64 raw) = [] ∧ WellKeyed (parse_scalar_value parse_f64 raw) := by
  unfold parse_scalar_value
  dsimp only
  repeat' split
  all_goals simp [document_keys, WellKeyed]

/-- The value of a line is a scalar, or the block on the lines below. -/
theorem read_value_cases {indent : Nat} {val_raw : List Char} {lines left : List YamlLine} {value : Value}
    (h : read_value parse_f64 indent val_raw lines = .ok (value, left)) :
    (left = lines ∧ document_keys value = [] ∧ WellKeyed value) ∨
    ∃ child_indent fields, value = .Object fields ∧
      read_block parse_f64 child_indent [] lines = .ok (fields, left) := by
  unfold read_value at h
  by_cases hval : Lines.trim val_raw ≠ []
  · rw [if_pos hval] at h
    obtain ⟨rfl, rfl⟩ := Prod.mk.inj (Except.ok.inj h)
    exact Or.inl ⟨rfl, parse_scalar_value_flat _⟩
  · rw [if_neg hval] at h
    cases hnext : lines.head?.filter fun next => decide (indent < next.indent) with
    | none =>
      rw [hnext] at h
      obtain ⟨rfl, rfl⟩ := Prod.mk.inj (Except.ok.inj h)
      exact Or.inl ⟨rfl, by simp [document_keys], by simp [WellKeyed]⟩
    | some next =>
      rw [hnext] at h
      cases hblock : read_block parse_f64 next.indent [] lines with
      | error e => simp [hblock, Except.map] at h
      | ok read =>
        simp only [hblock, Except.map, Except.ok.injEq, Prod.mk.injEq] at h
        obtain ⟨rfl, rfl⟩ := h
        exact Or.inr ⟨next.indent, read.1, rfl, hblock⟩

/-- What a block makes of its lines: every line gives one key, and no key is given twice. -/
structure BlockOf (current_indent : Nat) (map : List (String × Value)) (lines : List YamlLine)
    (fields : List (String × Value)) (rest : List YamlLine) : Prop where
  keys : ∃ taken, lines = taken ++ rest ∧ field_keys fields = field_keys map ++ taken.map YamlLine.key
  nodup : (map.map Prod.fst).Nodup → (fields.map Prod.fst).Nodup
  wellKeyed : FieldsWellKeyed map → FieldsWellKeyed fields
  ends : ∀ next ∈ rest.head?, next.indent < current_indent

theorem read_block_spec {current_indent : Nat} {map fields : List (String × Value)} {lines rest : List YamlLine}
    (h : read_block parse_f64 current_indent map lines = .ok (fields, rest)) :
    BlockOf current_indent map lines fields rest := by
  induction hlength : lines.length using Nat.strong_induction_on generalizing current_indent map lines fields rest with
  | _ length ih =>
    obtain ⟨rfl, rfl, hends⟩ | ⟨line, tail, val_raw, value, left, rfl, hfresh, hvalue, hleft⟩ := read_block_cases h
    · exact ⟨⟨[], rfl, by simp⟩, id, id, hends⟩
    · rw [List.length_cons] at hlength
      -- The value takes the lines of its own block, if it opens one.
      have hchild : ∃ taken, tail = taken ++ left ∧ document_keys value = taken.map YamlLine.key ∧ WellKeyed value := by
        obtain ⟨rfl, hkeys, hwell⟩ | ⟨child_indent, children, rfl, hblock⟩ := read_value_cases hvalue
        · exact ⟨[], rfl, by simpa using hkeys, hwell⟩
        · have hof := ih tail.length (by omega) hblock rfl
          obtain ⟨taken, htail, hkeys⟩ := hof.keys
          refine ⟨taken, htail, ?_, ?_⟩
          · simpa [document_keys, field_keys] using hkeys
          · exact ⟨hof.nodup (by simp), hof.wellKeyed trivial⟩
      obtain ⟨below, rfl, hkeys, hwell⟩ := hchild
      rw [List.length_append] at hlength
      have hof := ih left.length (by omega) hleft rfl
      obtain ⟨taken, rfl, hafter⟩ := hof.keys
      refine ⟨⟨line :: (below ++ taken), by simp, ?_⟩, ?_, ?_, hof.ends⟩
      · rw [hafter, field_keys_append, List.map_cons, List.map_append, ← hkeys]
        simp [field_keys]
      · intro hnodup
        refine hof.nodup ?_
        rw [List.map_append, List.map_cons, List.map_nil, List.nodup_append]
        refine ⟨hnodup, by simp, fun key hkey other hother => ?_⟩
        rw [List.mem_singleton.mp hother]
        rintro rfl
        exact hfresh hkey
      · intro hmap
        exact hof.wellKeyed ((fieldsWellKeyed_append _ _).mpr ⟨hmap, hwell, trivial⟩)

/-- The outermost block takes every line. -/
theorem parse_yaml_keys {yaml_str : List Char} {v : Value}
    (h : parse_yaml_to_json_value parse_f64 yaml_str = .ok v) :
    document_keys v = (yaml_lines yaml_str).map YamlLine.key ∧ WellKeyed v := by
  obtain ⟨-, fields, rest, rfl, hblock⟩ := parse_yaml_ok_iff.mp h
  have hof := read_block_spec hblock
  obtain ⟨taken, hlines, hkeys⟩ := hof.keys
  have hrest : rest = [] := by
    cases rest with
    | nil => rfl
    | cons next _ => exact absurd (hof.ends next rfl) (Nat.not_lt_zero _)
  rw [hrest, List.append_nil] at hlines
  rw [hlines]
  exact ⟨by simpa [document_keys, field_keys] using hkeys, hof.nodup (by simp), hof.wellKeyed trivial⟩

end

end asmodeus.dsl
