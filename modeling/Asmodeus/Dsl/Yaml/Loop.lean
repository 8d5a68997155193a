import Asmodeus.Dsl.Yaml.Blocks

namespace asmodeus.dsl

section

variable (parse_f64 : String → Option UInt64)

/-- The reader over one vector of lines and the index it shares with the blocks below.
Every round of the loop and every call takes one from the budget. -/
def yaml_map_loop (lines : List YamlLine) :
    Nat → Nat → Nat → List (String × Value) →
      Option (Except ManifestValidationError (List (String × Value) × Nat))
  | 0, _, _, _ => none
  | budget + 1, idx, current_indent, map =>
    match lines[idx]? with
    | none => some (.ok (map, idx))
    | some line =>
      if line.indent < current_indent then some (.ok (map, idx))
      else if current_indent < line.indent then
        some (.error (.ParseError ("unexpected indentation at line: " ++ String.ofList line.text)))
      else match Text.splitOnce ':' line.text with
        | none => some (.error (.ParseError ("expected key: value pair, found: " ++ String.ofList line.text)))
        | some (_, val_raw) =>
          let value : Option (Except ManifestValidationError (Value × Nat)) :=
            if Lines.trim val_raw ≠ [] then some (.ok (parse_scalar_value parse_f64 (Lines.trim val_raw), idx + 1))
            else match lines[idx + 1]?.filter fun next => decide (line.indent < next.indent) with
              | none => some (.ok (.Null, idx + 1))
              | some next => (yaml_map_loop lines budget (idx + 1) next.indent []).map
                  fun block => block.map fun read => (.Object read.1, read.2)
          match value with
          | none => none
          | some (.error e) => some (.error e)
          | some (.ok (value, idx)) =>
            if map.any fun field => decide (field.1 = line.key) then
              some (.error (.ParseError ("duplicate key: " ++ line.key)))
            else yaml_map_loop lines budget idx current_indent (map ++ [(line.key, value)])

variable {parse_f64}

theorem read_block_indented {current_indent : Nat} {line : YamlLine} (map : List (String × Value))
    (rest : List YamlLine) (hindent : current_indent < line.indent) :
    read_block parse_f64 current_indent map (line :: rest) =
      .error (.ParseError ("unexpected indentation at line: " ++ String.ofList line.text)) := by
  rw [read_block, parse_yaml_map, if_neg (by omega), if_pos hindent]
  rfl

theorem read_block_unsplit {current_indent : Nat} {line : YamlLine} (map : List (String × Value))
    (rest : List YamlLine) (hindent : line.indent = current_indent) (hsplit : Text.splitOnce ':' line.text = none) :
    read_block parse_f64 current_indent map (line :: rest) =
      .error (.ParseError ("expected key: value pair, found: " ++ String.ofList line.text)) := by
  rw [read_block, parse_yaml_map, if_neg (by omega), if_neg (by omega), hsplit]
  rfl

theorem read_block_suffix {current_indent : Nat} {map fields : List (String × Value)} {lines rest : List YamlLine}
    (h : read_block parse_f64 current_indent map lines = .ok (fields, rest)) : rest <:+ lines := by
  obtain ⟨taken, hlines, -⟩ := (read_block_spec h).keys
  exact ⟨taken, hlines.symm⟩

/-- Where a block stops, as an index. -/
def indexed (lines : List YamlLine) {α : Type} (read : α × List YamlLine) : α × Nat :=
  (read.1, lines.length - read.2.length)

theorem drop_of_suffix {lines rest : List YamlLine} (h : rest <:+ lines) :
    lines.drop (lines.length - rest.length) = rest :=
  (List.suffix_iff_eq_drop.mp h).symm

theorem read_value_suffix {indent : Nat} {val_raw : List Char} {lines left : List YamlLine} {value : Value}
    (h : read_value parse_f64 indent val_raw lines = .ok (value, left)) : left <:+ lines := by
  obtain ⟨rfl, -, -⟩ | ⟨child_indent, fields, -, hblock⟩ := read_value_cases h
  · exact List.suffix_refl left
  · exact read_block_suffix hblock

/-- The value of a line, when the loop reads the block below it. -/
theorem loop_value {lines : List YamlLine} {budget idx indent : Nat} {val_raw : List Char} (hidx : idx < lines.length)
    (hblock : ∀ child_indent, yaml_map_loop parse_f64 lines budget (idx + 1) child_indent [] =
      some ((read_block parse_f64 child_indent [] (lines.drop (idx + 1))).map (indexed lines))) :
    (if Lines.trim val_raw ≠ [] then
        some (.ok (parse_scalar_value parse_f64 (Lines.trim val_raw), idx + 1))
      else match lines[idx + 1]?.filter fun next => decide (indent < next.indent) with
        | none => some (.ok (.Null, idx + 1))
        | some next => (yaml_map_loop parse_f64 lines budget (idx + 1) next.indent []).map
            fun block => block.map fun read => (.Object read.1, read.2)) =
      some ((read_value parse_f64 indent val_raw (lines.drop (idx + 1))).map (indexed lines)) := by
  have hnext : lines.length - (lines.drop (idx + 1)).length = idx + 1 := by
    rw [List.length_drop]
    omega
  rw [read_value, List.head?_drop]
  by_cases hval : Lines.trim val_raw ≠ []
  · rw [if_pos hval, if_pos hval]
    simp only [Except.map, indexed, hnext]
  · rw [if_neg hval, if_neg hval]
    cases lines[idx + 1]?.filter fun next => decide (indent < next.indent) with
    | none => simp only [Except.map, indexed, hnext]
    | some next =>
      dsimp only
      rw [hblock]
      cases read_block parse_f64 next.indent [] (lines.drop (idx + 1)) with
      | error e => rfl
      | ok read => rfl

/-- A budget above the number of lines left is enough: the loop ends, with the result of the
reader over the lines. -/
theorem yaml_map_loop_ends (lines : List YamlLine) (budget idx current_indent : Nat) (map : List (String × Value))
    (hidx : idx ≤ lines.length) (hbudget : lines.length - idx < budget) :
    yaml_map_loop parse_f64 lines budget idx current_indent map =
      some ((read_block parse_f64 current_indent map (lines.drop idx)).map (indexed lines)) := by
  induction budget generalizing idx current_indent map with
  | zero => omega
  | succ budget ih =>
    rw [yaml_map_loop]
    cases hline : lines[idx]? with
    | none =>
      have hend : lines.length ≤ idx := List.getElem?_eq_none_iff.mp hline
      obtain rfl : idx = lines.length := by omega
      rw [List.drop_length, read_block_nil]
      simp [Except.map, indexed]
    | some line =>
      obtain ⟨hlt, rfl⟩ := List.getElem?_eq_some_iff.mp hline
      rw [List.drop_eq_getElem_cons hlt]
      have hhere : (lines[idx] :: lines.drop (idx + 1)).length = lines.length - idx := by
        rw [← List.drop_eq_getElem_cons hlt, List.length_drop]
      dsimp only
      by_cases hdedent : lines[idx].indent < current_indent
      · rw [if_pos hdedent, read_block_dedent map _ hdedent]
        simp only [Except.map, indexed, hhere]
        congr 3
        omega
      · by_cases hindent : current_indent < lines[idx].indent
        · rw [if_neg hdedent, if_pos hindent, read_block_indented map _ hindent]
          rfl
        · rw [if_neg hdedent, if_neg hindent]
          cases hsplit : Text.splitOnce ':' lines[idx].text with
          | none =>
            rw [read_block_unsplit map _ (by omega) hsplit]
            rfl
          | some parts =>
            obtain ⟨key_raw, val_raw⟩ := parts
            rw [read_block_cons map _ (by omega) hsplit]
            dsimp only
            rw [loop_value hlt fun child_indent => ih (idx + 1) child_indent [] hlt (by omega)]
            cases hvalue : read_value parse_f64 lines[idx].indent val_raw (lines.drop (idx + 1)) with
            | error e => rfl
            | ok read =>
              obtain ⟨value, left⟩ := read
              have hleft : left <:+ lines := (read_value_suffix hvalue).trans (List.drop_suffix _ _)
              have hshorter : left.length ≤ lines.length - (idx + 1) := by
                have hle := (read_value_suffix hvalue).length_le
                rwa [List.length_drop] at hle
              dsimp only [Except.map, indexed]
              split
              · rfl
              · rw [ih _ current_indent _ (by omega) (by omega), drop_of_suffix hleft]
                rfl

end

end asmodeus.dsl
