import Asmodeus.Dsl.Manifest
import Mathlib.Algebra.Group.Int.Defs

namespace asmodeus.dsl

/-- A line of a document: its indentation in bytes and its trimmed text. -/
structure YamlLine where
  indent : Nat
  text : List Char
  deriving DecidableEq

/-- The lines that are neither blank nor a comment. -/
def yaml_lines (text : List Char) : List YamlLine :=
  (Lines.ofText text).filterMap fun line =>
    let trimmed := Lines.trim line
    if trimmed = [] ∨ trimmed.head? = some '#' then none
    else some ⟨(String.ofList line).utf8ByteSize - (String.ofList (Lines.trimStart line)).utf8ByteSize, trimmed⟩

def i64_value (n : Int) : Number := if 0 ≤ n then .PosInt n.toNat else .NegInt n

def quoted_by (quote : Char) (s : List Char) : Bool :=
  decide (s.head? = some quote) && decide (s.getLast? = some quote)

section

-- The standard parser of floats: the bits of the finite number a text denotes.
variable (parse_f64 : String → Option UInt64)

def parse_scalar_value (raw : List Char) : Value :=
  let s := Lines.trim raw
  if (quoted_by '"' s || quoted_by (Char.ofNat 39) s) && decide (2 ≤ s.length) then
    .String (String.ofList s.tail.dropLast)
  else if s = "true".toList then .Bool true
  else if s = "false".toList then .Bool false
  else if s = "null".toList then .Null
  else match Text.parseSigned (-2 ^ 63) (2 ^ 63 - 1) s with
    | some n => .Number (i64_value n)
    | none => match parse_f64 (String.ofList s) with
      | some bits => .Number (.Float bits)
      | none => .String (String.ofList s)

/-- The loop over the lines of one block, with the fields read so far. It returns
the lines it leaves, which are no more than those it was given. -/
def parse_yaml_map (current_indent : Nat) (map : List (String × Value)) (lines : List YamlLine) :
    Except ManifestValidationError (List (String × Value) × {rest : List YamlLine // rest.length ≤ lines.length}) :=
  match lines with
  | [] => .ok (map, ⟨[], Nat.le_refl _⟩)
  | line :: rest =>
    if line.indent < current_indent then .ok (map, ⟨line :: rest, Nat.le_refl _⟩)
    else if current_indent < line.indent then
      .error (.ParseError ("unexpected indentation at line: " ++ String.ofList line.text))
    else match Text.splitOnce ':' line.text with
      | none => .error (.ParseError ("expected key: value pair, found: " ++ String.ofList line.text))
      | some (key_raw, val_raw) =>
        let key := String.ofList (Lines.trim key_raw)
        let val_trimmed := Lines.trim val_raw
        -- The child block, when the value is empty and the next line is indented further.
        let value : Except ManifestValidationError (Value × {left : List YamlLine // left.length ≤ rest.length}) :=
          if val_trimmed ≠ [] then .ok (parse_scalar_value parse_f64 val_trimmed, ⟨rest, Nat.le_refl _⟩)
          else match (rest.head?.filter fun next => decide (line.indent < next.indent)) with
            | none => .ok (.Null, ⟨rest, Nat.le_refl _⟩)
            | some next => match parse_yaml_map next.indent [] rest with
              | .error e => .error e
              | .ok (fields, left) => .ok (.Object fields, left)
        match value with
        | .error e => .error e
        | .ok (value, ⟨left, hleft⟩) =>
          if map.any fun field => decide (field.1 = key) then .error (.ParseError ("duplicate key: " ++ key))
          else match parse_yaml_map current_indent (map ++ [(key, value)]) left with
            | .error e => .error e
            | .ok (fields, ⟨left', hleft'⟩) =>
              .ok (fields, ⟨left', hleft'.trans (hleft.trans (Nat.le_succ _))⟩)
termination_by lines.length

/-- Lightweight translator for indented key-value mappings. -/
def parse_yaml_to_json_value (yaml_str : List Char) : Except ManifestValidationError Value :=
  let lines := yaml_lines yaml_str
  if lines = [] then .error (.ParseError "empty manifest input")
  else match parse_yaml_map parse_f64 0 [] lines with
    | .error e => .error e
    | .ok (fields, _) => .ok (.Object fields)

end

end asmodeus.dsl
