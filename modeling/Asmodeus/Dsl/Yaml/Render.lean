import Asmodeus.Dsl.Yaml.Loop

namespace asmodeus.dsl

/-- A key as a line can carry it. -/
structure PlainKey (key : String) : Prop where
  no_colon : ':' ∉ key.toList
  no_newline : '\n' ∉ key.toList
  first : ∀ c ∈ key.toList.head?, Lines.isWhitespace c = false ∧ c ≠ '#'
  last : ∀ c ∈ key.toList.getLast?, Lines.isWhitespace c = false

mutual

/-- The documents of nested mappings, none of them empty, whose leaves are null, booleans,
integers and texts of one line. -/
def Renderable : Value → Prop
  | .Null | .Bool _ => True
  | .Number n => ∃ i : Int, -2 ^ 63 ≤ i ∧ i ≤ 2 ^ 63 - 1 ∧ n = i64_value i
  | .String s => '\n' ∉ s.toList
  | .Array _ => False
  | .Object fields => fields ≠ [] ∧ (fields.map Prod.fst).Nodup ∧ FieldsRenderable fields

def FieldsRenderable : List (String × Value) → Prop
  | [] => True
  | (key, value) :: fields => PlainKey key ∧ Renderable value ∧ FieldsRenderable fields

end

/-- The indentation of the mappings at every depth. -/
structure Indentation where
  width : Nat → Nat
  outermost : width 0 = 0
  increasing : ∀ depth, width depth < width (depth + 1)

def integer_text : Number → List Char
  | .PosInt n => Text.integer n
  | .NegInt n => Text.integer n
  | .Float _ => []

/-- The text of a leaf, a string between double quotes. -/
def scalar_text : Value → List Char
  | .Null => "null".toList
  | .Bool b => if b then "true".toList else "false".toList
  | .Number n => integer_text n
  | .String s => '"' :: (s.toList ++ ['"'])
  | .Array _ | .Object _ => []

mutual

/-- What follows the colon of a key, and the lines below it. -/
def render_value (indentation : Indentation) (depth : Nat) : Value → List Char × List YamlLine
  | .Object fields => ([], render_fields indentation (depth + 1) fields)
  | .Null => (' ' :: scalar_text .Null, [])
  | .Bool b => (' ' :: scalar_text (.Bool b), [])
  | .Number n => (' ' :: scalar_text (.Number n), [])
  | .String s => (' ' :: scalar_text (.String s), [])
  | .Array items => (' ' :: scalar_text (.Array items), [])

def render_fields (indentation : Indentation) (depth : Nat) : List (String × Value) → List YamlLine
  | [] => []
  | (key, value) :: fields =>
    ⟨indentation.width depth, key.toList ++ ':' :: (render_value indentation depth value).1⟩ ::
      ((render_value indentation depth value).2 ++ render_fields indentation depth fields)

end

def YamlLine.raw (line : YamlLine) : List Char := List.replicate line.indent ' ' ++ line.text

/-- The text of a document, one key on a line. -/
def render_yaml (indentation : Indentation) : Value → List Char
  | .Object fields => (render_fields indentation 0 fields).flatMap fun line => line.raw ++ ['\n']
  | _ => []

theorem integer_text_i64 (i : Int) : integer_text (i64_value i) = Text.integer i := by
  unfold i64_value
  split
  · rename_i hpos
    rw [integer_text, Int.toNat_of_nonneg hpos]
  · rfl

theorem integer_tidy (i : Int) : Lines.Tidy (Text.integer i) := by
  refine Lines.tidy_of_solid (Text.integer_ne_nil i) fun c hc => ?_
  obtain rfl | hdigit := Text.integer_chars i c hc
  · decide
  · exact Lines.isWhitespace_of_isDigit hdigit

theorem quoted_tidy {s : List Char} (h : '\n' ∉ s) : Lines.Tidy ('"' :: (s ++ ['"'])) := by
  refine ⟨⟨'"', rfl, by decide⟩, ⟨'"', ?_, by decide⟩, by simpa using h⟩
  rw [← List.cons_append, List.getLast?_append, List.getLast?_singleton, Option.some_or]

section

variable {parse_f64 : String → Option UInt64}

theorem integer_head_ne (i : Int) {c : Char} (hminus : c ≠ '-') (hdigit : c.isDigit = false) :
    (Text.integer i).head? ≠ some c := by
  intro hc
  obtain h | h := Text.integer_chars i c (List.mem_of_mem_head? hc)
  · exact hminus h
  · rw [hdigit] at h
    cases h

theorem integer_ne_word (i : Int) {c : Char} {word : List Char} (hword : word.head? = some c) (hminus : c ≠ '-')
    (hdigit : c.isDigit = false) : Text.integer i ≠ word := by
  rintro rfl
  exact integer_head_ne i hminus hdigit hword

theorem parse_scalar_integer {i : Int} (hlow : -2 ^ 63 ≤ i) (hhigh : i ≤ 2 ^ 63 - 1) :
    parse_scalar_value parse_f64 (Text.integer i) = .Number (i64_value i) := by
  have hquote : ∀ quote : Char, quote ≠ '-' → quote.isDigit = false → quoted_by quote (Text.integer i) = false := by
    intro quote hminus hdigit
    rw [quoted_by, decide_eq_false (integer_head_ne i hminus hdigit), Bool.false_and]
  unfold parse_scalar_value
  dsimp only
  rw [(integer_tidy i).trim, hquote '"' (by decide) (by decide), hquote (Char.ofNat 39) (by decide) (by decide),
    if_neg (by simp), if_neg (integer_ne_word i (show "true".toList.head? = some 't' from rfl) (by decide) (by decide)),
    if_neg (integer_ne_word i (show "false".toList.head? = some 'f' from rfl) (by decide) (by decide)),
    if_neg (integer_ne_word i (show "null".toList.head? = some 'n' from rfl) (by decide) (by decide)),
    Text.parseSigned_integer hlow hhigh]

theorem parse_scalar_quoted {s : String} (h : '\n' ∉ s.toList) :
    parse_scalar_value parse_f64 ('"' :: (s.toList ++ ['"'])) = .String s := by
  have hquoted : quoted_by '"' ('"' :: (s.toList ++ ['"'])) = true := by
    simp only [quoted_by, List.head?_cons, Bool.and_eq_true, decide_eq_true_eq, true_and]
    rw [← List.cons_append, List.getLast?_append, List.getLast?_singleton, Option.some_or]
  unfold parse_scalar_value
  dsimp only
  rw [(quoted_tidy h).trim, if_pos (by simp [hquoted])]
  simp

theorem scalar_tidy {v : Value} (h : Renderable v) (hleaf : ∀ fields, v ≠ .Object fields) :
    Lines.Tidy (scalar_text v) := by
  cases v with
  | Null => exact Lines.tidy_of_all (by decide) (by decide)
  | Bool b => cases b <;> exact Lines.tidy_of_all (by decide) (by decide)
  | Number n =>
    obtain ⟨i, -, -, rfl⟩ := h
    rw [scalar_text, integer_text_i64]
    exact integer_tidy i
  | String s => exact quoted_tidy h
  | Array items => exact h.elim
  | Object fields => exact absurd rfl (hleaf fields)

/-- A leaf is read back from its text. -/
theorem parse_scalar_text {v : Value} (h : Renderable v) (hleaf : ∀ fields, v ≠ .Object fields) :
    parse_scalar_value parse_f64 (scalar_text v) = v := by
  cases v with
  | Null => rfl
  | Bool b => cases b <;> rfl
  | Number n =>
    obtain ⟨i, hlow, hhigh, rfl⟩ := h
    rw [scalar_text, integer_text_i64]
    exact parse_scalar_integer hlow hhigh
  | String s => exact parse_scalar_quoted h
  | Array items => exact h.elim
  | Object fields => exact absurd rfl (hleaf fields)

theorem PlainKey.trim {key : String} (h : PlainKey key) : Lines.trim key.toList = key.toList := by
  cases hfirst : key.toList.head? with
  | none => rw [List.head?_eq_none_iff.mp hfirst, Lines.trim_nil]
  | some c =>
    have hne : key.toList ≠ [] := by
      intro hnil
      rw [hnil] at hfirst
      cases hfirst
    have hlast := List.getLast?_eq_some_getLast hne
    exact Lines.trim_eq_self hfirst hlast (h.first c hfirst).1 (h.last _ hlast)

theorem PlainKey.split {key : String} (h : PlainKey key) (indent : Nat) (text : List Char) :
    Text.splitOnce ':' (⟨indent, key.toList ++ ':' :: text⟩ : YamlLine).text = some (key.toList, text) :=
  Text.splitOnce_append text h.no_colon

theorem PlainKey.line_key {key : String} (h : PlainKey key) (indent : Nat) (text : List Char) :
    (⟨indent, key.toList ++ ':' :: text⟩ : YamlLine).key = key := by
  rw [YamlLine.key, h.split]
  dsimp only
  rw [h.trim, String.ofList_toList]

theorem render_value_leaf (indentation : Indentation) (depth : Nat) {v : Value} (hleaf : ∀ fields, v ≠ .Object fields) :
    render_value indentation depth v = (' ' :: scalar_text v, []) := by
  cases v with
  | Object fields => exact absurd rfl (hleaf fields)
  | _ => rw [render_value]

/-- The lines of a block stand at the indentation of its depth or below. -/
theorem render_fields_head (indentation : Indentation) (depth : Nat) (fields : List (String × Value))
    {rest : List YamlLine} (hrest : ∀ next ∈ rest.head?, next.indent ≤ indentation.width depth) :
    ∀ next ∈ (render_fields indentation depth fields ++ rest).head?, next.indent ≤ indentation.width depth := by
  cases fields with
  | nil => simpa [render_fields] using hrest
  | cons field fields => simp [render_fields]

theorem read_block_stop {current_indent : Nat} (map : List (String × Value)) {rest : List YamlLine}
    (hrest : ∀ next ∈ rest.head?, next.indent < current_indent) :
    read_block parse_f64 current_indent map rest = .ok (map, rest) := by
  cases rest with
  | nil => exact read_block_nil current_indent map
  | cons next rest => exact read_block_dedent map rest (hrest next rfl)

theorem read_leaf (indentation : Indentation) (depth : Nat) {v : Value} (h : Renderable v) (rest : List YamlLine)
    (hleaf : ∀ fields, v ≠ .Object fields) :
    read_value parse_f64 (indentation.width depth) (render_value indentation depth v).1
      ((render_value indentation depth v).2 ++ rest) = .ok (v, rest) := by
  have htidy : Lines.Tidy (scalar_text v) := scalar_tidy h hleaf
  have hparse : parse_scalar_value parse_f64 (scalar_text v) = v := parse_scalar_text h hleaf
  have htrim : Lines.trim (' ' :: scalar_text v) = scalar_text v :=
    (Lines.trim_replicate 1 (scalar_text v)).trans htidy.trim
  rw [render_value_leaf indentation depth hleaf, read_value]
  dsimp only
  rw [htrim, if_pos htidy.ne_nil, hparse, List.nil_append]

mutual

/-- A value is read back from what follows its key. -/
theorem read_value_render (indentation : Indentation) (depth : Nat) :
    ∀ (v : Value) (rest : List YamlLine), Renderable v →
      (∀ next ∈ rest.head?, next.indent ≤ indentation.width depth) →
      read_value parse_f64 (indentation.width depth) (render_value indentation depth v).1
        ((render_value indentation depth v).2 ++ rest) = .ok (v, rest)
  | .Object [], _, h, _ => absurd rfl h.1
  | .Object (field :: fields), rest, h, hrest => by
    have hdeeper : indentation.width depth < indentation.width (depth + 1) := indentation.increasing depth
    have hblock := read_block_render indentation (depth + 1) (field :: fields) [] rest h.2.2 h.2.1
      fun next hnext => (hrest next hnext).trans hdeeper.le
    rw [List.nil_append, read_block_stop _ fun next hnext => (hrest next hnext).trans_lt hdeeper] at hblock
    rw [read_value, render_value, Lines.trim_nil, if_neg (by simp)]
    have hnext : ((render_fields indentation (depth + 1) (field :: fields) ++ rest).head?.filter
        fun next => decide (indentation.width depth < next.indent)).map YamlLine.indent =
          some (indentation.width (depth + 1)) := by
      simp [render_fields, hdeeper]
    cases hhead : (render_fields indentation (depth + 1) (field :: fields) ++ rest).head?.filter
        fun next => decide (indentation.width depth < next.indent) with
    | none =>
      rw [hhead] at hnext
      cases hnext
    | some next =>
      rw [hhead, Option.map_some, Option.some.injEq] at hnext
      dsimp only
      rw [hnext, hblock]
      rfl
  | .Null, rest, h, _ => read_leaf indentation depth h rest (by simp)
  | .Bool _, rest, h, _ => read_leaf indentation depth h rest (by simp)
  | .Number _, rest, h, _ => read_leaf indentation depth h rest (by simp)
  | .String _, rest, h, _ => read_leaf indentation depth h rest (by simp)
  | .Array _, _, h, _ => h.elim

/-- The fields of a mapping are read back, after those read before. -/
theorem read_block_render (indentation : Indentation) (depth : Nat) :
    ∀ (fields map : List (String × Value)) (rest : List YamlLine), FieldsRenderable fields →
      ((map ++ fields).map Prod.fst).Nodup →
      (∀ next ∈ rest.head?, next.indent ≤ indentation.width depth) →
      read_block parse_f64 (indentation.width depth) map (render_fields indentation depth fields ++ rest) =
        read_block parse_f64 (indentation.width depth) (map ++ fields) rest
  | [], map, rest, _, _, _ => by rw [render_fields, List.nil_append, List.append_nil]
  | (key, value) :: fields, map, rest, h, hnodup, hrest => by
    obtain ⟨hkey, hvalue, hfields⟩ := h
    have hafter := render_fields_head indentation depth fields hrest
    have hread := read_value_render indentation depth value _ hvalue hafter
    have hfresh : (map.any fun field => decide (field.1 = key)) = false := by
      rw [List.map_append, List.nodup_append] at hnodup
      simp only [List.any_eq_false, decide_eq_true_eq]
      exact fun field hfield => hnodup.2.2 _ (List.mem_map_of_mem hfield) key (by simp)
    rw [render_fields, List.cons_append, List.append_assoc, read_block_cons map _ rfl (hkey.split _ _)]
    dsimp only
    rw [hread, hkey.line_key]
    dsimp only
    rw [hfresh, if_neg (by simp), read_block_render indentation depth fields _ rest hfields
      (by simpa using hnodup) hrest,
      List.append_assoc, List.singleton_append]

end

end

/-- A line of a mapping, as `yaml_lines` keeps it. -/
structure ContentLine (line : YamlLine) : Prop where
  tidy : Lines.Tidy line.text
  no_comment : line.text.head? ≠ some '#'

theorem PlainKey.content {key : String} (h : PlainKey key) (indent : Nat) {text : List Char}
    (htext : text = [] ∨ ∃ value, text = ' ' :: value ∧ Lines.Tidy value) :
    ContentLine ⟨indent, key.toList ++ ':' :: text⟩ := by
  have hlast : ∃ c, (':' :: text).getLast? = some c ∧ Lines.isWhitespace c = false := by
    obtain rfl | ⟨value, rfl, hvalue⟩ := htext
    · exact ⟨':', rfl, by decide⟩
    · obtain ⟨c, hc, hspace⟩ := hvalue.last
      refine ⟨c, ?_, hspace⟩
      rw [show ':' :: ' ' :: value = [':', ' '] ++ value from rfl, List.getLast?_append, hc, Option.some_or]
  have hnewline : '\n' ∉ ':' :: text := by
    obtain rfl | ⟨value, rfl, hvalue⟩ := htext
    · simp
    · simpa using hvalue.no_newline
  have hfirst : ∃ c, (key.toList ++ ':' :: text).head? = some c ∧ Lines.isWhitespace c = false ∧ c ≠ '#' := by
    rw [List.head?_append]
    cases hkey : key.toList.head? with
    | none => exact ⟨':', rfl, by decide, by decide⟩
    | some c => exact ⟨c, rfl, h.first c hkey⟩
  obtain ⟨c, hc, hspace, hcomment⟩ := hfirst
  refine ⟨⟨⟨c, hc, hspace⟩, ?_, ?_⟩, ?_⟩
  · obtain ⟨d, hd, hdspace⟩ := hlast
    exact ⟨d, by rw [List.getLast?_append, hd, Option.some_or], hdspace⟩
  · exact fun hmem => (List.mem_append.mp hmem).elim h.no_newline hnewline
  · rw [hc]
    exact fun heq => hcomment (Option.some.inj heq)

theorem leaf_content (indentation : Indentation) (depth : Nat) {v : Value} (h : Renderable v)
    (hleaf : ∀ fields, v ≠ .Object fields) :
    ((render_value indentation depth v).1 = [] ∨
      ∃ value, (render_value indentation depth v).1 = ' ' :: value ∧ Lines.Tidy value) ∧
    ∀ line ∈ (render_value indentation depth v).2, ContentLine line := by
  rw [render_value_leaf indentation depth hleaf]
  exact ⟨Or.inr ⟨scalar_text v, rfl, scalar_tidy h hleaf⟩, by simp⟩

mutual

theorem render_value_content (indentation : Indentation) (depth : Nat) : ∀ v : Value, Renderable v →
    ((render_value indentation depth v).1 = [] ∨
      ∃ value, (render_value indentation depth v).1 = ' ' :: value ∧ Lines.Tidy value) ∧
    ∀ line ∈ (render_value indentation depth v).2, ContentLine line
  | .Object fields, h => by
    rw [render_value]
    exact ⟨Or.inl rfl, render_fields_content indentation (depth + 1) fields h.2.2⟩
  | .Null, h => leaf_content indentation depth h (by simp)
  | .Bool _, h => leaf_content indentation depth h (by simp)
  | .Number _, h => leaf_content indentation depth h (by simp)
  | .String _, h => leaf_content indentation depth h (by simp)
  | .Array _, h => h.elim

theorem render_fields_content (indentation : Indentation) (depth : Nat) :
    ∀ fields : List (String × Value), FieldsRenderable fields →
      ∀ line ∈ render_fields indentation depth fields, ContentLine line
  | [], _ => by simp [render_fields]
  | (key, value) :: fields, ⟨hkey, hvalue, hfields⟩ => by
    obtain ⟨htext, hbelow⟩ := render_value_content indentation depth value hvalue
    intro line hline
    rw [render_fields] at hline
    obtain rfl | hline := List.mem_cons.mp hline
    · exact hkey.content _ htext
    · obtain hline | hline := List.mem_append.mp hline
      · exact hbelow line hline
      · exact render_fields_content indentation depth fields hfields line hline

end

theorem utf8ByteSize_spaces (n : Nat) : (String.ofList (List.replicate n ' ')).utf8ByteSize = n := by
  induction n with
  | zero => rfl
  | succ n ih =>
    have hspace : (String.ofList [' ']).utf8ByteSize = 1 := by decide
    rw [List.replicate_succ', String.ofList_append, String.utf8ByteSize_append, ih, hspace]

/-- The lines of a text are found again under their indentation. -/
theorem yaml_lines_raw {lines : List YamlLine} (h : ∀ line ∈ lines, ContentLine line) :
    yaml_lines (lines.flatMap fun line => line.raw ++ ['\n']) = lines := by
  have hraw : Lines.ofText (lines.flatMap fun line => line.raw ++ ['\n']) = lines.map YamlLine.raw := by
    have hterminated : (lines.flatMap fun line => line.raw ++ ['\n']) =
        (lines.map YamlLine.raw).flatMap fun line => line ++ ['\n'] := by rw [List.flatMap_map]
    rw [hterminated]
    refine Lines.ofText_terminated fun text htext => ?_
    obtain ⟨line, hline, rfl⟩ := List.mem_map.mp htext
    obtain ⟨c, hc, hspace⟩ := (h line hline).tidy.last
    refine ⟨?_, ?_⟩
    · intro hmem
      obtain hmem | hmem := List.mem_append.mp hmem
      · exact absurd (List.eq_of_mem_replicate hmem) (by decide)
      · exact (h line hline).tidy.no_newline hmem
    · rw [YamlLine.raw, List.getLast?_append, hc, Option.some_or]
      intro heq
      rw [Option.some.inj heq] at hspace
      exact absurd hspace (by decide)
  rw [yaml_lines, hraw, List.filterMap_map]
  refine (List.filterMap_congr fun line hline => ?_).trans List.filterMap_some
  obtain ⟨c, hc, hspace⟩ := (h line hline).tidy.first
  have htrim : Lines.trim line.raw = line.text := (Lines.trim_replicate _ _).trans (h line hline).tidy.trim
  have hstart : Lines.trimStart line.raw = line.text :=
    (Lines.trimStart_replicate _ _).trans (Lines.trimStart_eq_self hc hspace)
  have hindent : (String.ofList line.raw).utf8ByteSize - (String.ofList line.text).utf8ByteSize = line.indent := by
    rw [YamlLine.raw, String.ofList_append, String.utf8ByteSize_append, utf8ByteSize_spaces, Nat.add_sub_cancel]
  simp only [Function.comp_apply]
  rw [htrim, hstart, hindent, if_neg]
  rintro (hnil | hcomment)
  · exact (h line hline).tidy.ne_nil hnil
  · exact (h line hline).no_comment hcomment

theorem yaml_lines_length (text : List Char) :
    (yaml_lines text).length =
      ((Lines.ofText text).filter fun line =>
        decide (Lines.trim line ≠ [] ∧ (Lines.trim line).head? ≠ some '#')).length := by
  rw [yaml_lines]
  induction Lines.ofText text with
  | nil => rfl
  | cons line lines ih =>
    rw [List.filterMap_cons, List.filter_cons]
    dsimp only
    by_cases hskip : Lines.trim line = [] ∨ (Lines.trim line).head? = some '#'
    · have hfilter : decide (Lines.trim line ≠ [] ∧ (Lines.trim line).head? ≠ some '#') = false :=
        decide_eq_false fun hkeep => hskip.elim hkeep.1 hkeep.2
      rw [if_pos hskip, hfilter, ih, if_neg (by simp)]
    · have hfilter : decide (Lines.trim line ≠ [] ∧ (Lines.trim line).head? ≠ some '#') = true :=
        decide_eq_true (not_or.mp hskip)
      rw [if_neg hskip, hfilter, if_pos rfl, List.length_cons, List.length_cons, ih]

/-- A document of mappings is read back from its text. -/
theorem parse_render {parse_f64 : String → Option UInt64} (indentation : Indentation)
    {fields : List (String × Value)} (h : Renderable (.Object fields)) :
    parse_yaml_to_json_value parse_f64 (render_yaml indentation (.Object fields)) = .ok (.Object fields) := by
  obtain ⟨hne, hnodup, hfields⟩ := h
  have hlines : yaml_lines (render_yaml indentation (.Object fields)) = render_fields indentation 0 fields :=
    yaml_lines_raw (render_fields_content indentation 0 fields hfields)
  have hblock : read_block parse_f64 (indentation.width 0) [] (render_fields indentation 0 fields ++ []) = _ :=
    read_block_render indentation 0 fields [] [] hfields hnodup (by simp)
  rw [List.nil_append, List.append_nil, read_block_nil, indentation.outermost] at hblock
  refine parse_yaml_ok_iff.mpr ⟨?_, fields, [], rfl, by rw [hlines, hblock]⟩
  rw [hlines]
  cases fields with
  | nil => exact absurd rfl hne
  | cons field fields => simp [render_fields]

/-- The reader takes one key from every line that is neither blank nor a comment, in order and
never twice in one mapping; it reads back what is rendered; and its loop ends. -/
theorem parse_yaml_faithful (parse_f64 : String → Option UInt64) :
    (∀ (yaml_str : List Char) (v : Value), parse_yaml_to_json_value parse_f64 yaml_str = .ok v →
      document_keys v = (yaml_lines yaml_str).map YamlLine.key ∧
      (document_keys v).length = ((Lines.ofText yaml_str).filter fun line =>
        decide (Lines.trim line ≠ [] ∧ (Lines.trim line).head? ≠ some '#')).length ∧
      WellKeyed v) ∧
    (∀ (indentation : Indentation) (fields : List (String × Value)), Renderable (.Object fields) →
      parse_yaml_to_json_value parse_f64 (render_yaml indentation (.Object fields)) = .ok (.Object fields)) ∧
    ∀ (lines : List YamlLine) (budget : Nat), lines.length < budget →
      yaml_map_loop parse_f64 lines budget 0 0 [] =
        some ((read_block parse_f64 0 [] lines).map (indexed lines)) := by
  refine ⟨fun yaml_str v h => ?_, fun indentation fields h =>
    parse_render indentation h, fun lines budget hbudget => ?_⟩
  · obtain ⟨hkeys, hwell⟩ := parse_yaml_keys h
    exact ⟨hkeys, by rw [hkeys, List.length_map, yaml_lines_length], hwell⟩
  · exact yaml_map_loop_ends lines budget 0 0 [] (Nat.zero_le _) (by omega)

end asmodeus.dsl
