import Mathlib.Data.List.Basic
import Mathlib.Tactic.Cases

namespace Sql

/-- The tokens of a list of tuples of literals. -/
inductive Token
  | left
  | right
  | comma
  | semicolon
  | number (digits : List Char)
  | string (text : List Char)
  deriving DecidableEq

/-- Where the lexer stands: between tokens, in a number, in a string literal,
behind a backslash in one, or behind a quote that may end it. -/
inductive Mode
  | between
  | number (digits : List Char)
  | literal (text : List Char)
  | escaped (text : List Char)
  | quoted (text : List Char)
  deriving DecidableEq

/-- The character an escape stands for. -/
def unescape (c : Char) : Char :=
  if c = 'n' then '\n'
  else if c = 'r' then '\r'
  else if c = 't' then '\t'
  else c

/-- The first character of a token. -/
def start (c : Char) : Option (List Token × Mode) :=
  if c = '\'' then some ([], .literal [])
  else if c.isDigit then some ([], .number [c])
  else if c = '(' then some ([.left], .between)
  else if c = ')' then some ([.right], .between)
  else if c = ',' then some ([.comma], .between)
  else if c = ';' then some ([.semicolon], .between)
  else if c.isWhitespace then some ([], .between)
  else none

/-- Finish a token and go on with the next character. -/
def startAfter (token : Token) (c : Char) : Option (List Token × Mode) :=
  (start c).map fun next => (token :: next.1, next.2)

def next : Mode → Char → Option (List Token × Mode)
  | .between, c => start c
  | .number digits, c => if c.isDigit then some ([], .number (digits ++ [c])) else startAfter (.number digits) c
  | .literal text, c =>
    if c = '\'' then some ([], .quoted text)
    else if c = '\\' then some ([], .escaped text)
    else some ([], .literal (text ++ [c]))
  | .escaped text, c => some ([], .literal (text ++ [unescape c]))
  | .quoted text, c =>
    if c = '\'' then some ([], .literal (text ++ [c])) else startAfter (.string text) c

/-- The end of the text. A literal has to be closed before it. -/
def finish : Mode → Option (List Token)
  | .between => some []
  | .number digits => some [.number digits]
  | .quoted text => some [.string text]
  | .literal _ | .escaped _ => none

def scan : Mode → List Char → Option (List Token)
  | mode, [] => finish mode
  | mode, c :: rest => (next mode c).bind fun (tokens, mode) => (scan mode rest).map (tokens ++ ·)

def lex (text : List Char) : Option (List Token) := scan .between text

/-- A literal value. -/
inductive Value
  | number (n : Nat)
  | string (text : String)
  deriving DecidableEq

def value : Token → Option Value
  | .number digits => some (.number (Nat.ofDigitChars 10 digits 0))
  | .string text => some (.string (String.ofList text))
  | _ => none

/-- Where the reader of tuples stands: before a tuple, before a value of one,
behind a value of one, behind a tuple, or behind the statement. -/
inductive Place
  | before
  | open (values : List Value)
  | inside (values : List Value)
  | behind
  | done
  deriving DecidableEq

/-- Read `tuple, tuple, …;`, each tuple a list of values. -/
def tuples : Place → List Token → Option (List (List Value))
  | .done, [] => some []
  | .before, .left :: rest => tuples (.open []) rest
  | .open values, token :: rest => (value token).bind fun v => tuples (.inside (values ++ [v])) rest
  | .inside values, .comma :: rest => tuples (.open values) rest
  | .inside values, .right :: rest => (tuples .behind rest).map (values :: ·)
  | .behind, .comma :: rest => tuples .before rest
  | .behind, .semicolon :: rest => tuples .done rest
  | _, _ => none

/-- The tuples of the values part of an `INSERT` statement. -/
def read (text : List Char) : Option (List (List Value)) := (lex text).bind (tuples .before)

/-- A text in quotes, escaped character by character. -/
def quoted (escape : Char → List Char) (text : List Char) : List Char := '\'' :: (text.flatMap escape ++ ['\''])

def Value.literal (escape : Char → List Char) : Value → List Char
  | .number n => Nat.toDigits 10 n
  | .string text => quoted escape text.toList

/-- The token a literal is read as. -/
def Value.token : Value → Token
  | .number n => .number (Nat.toDigits 10 n)
  | .string text => .string text.toList

/-- The text of a tuple. -/
def row (escape : Char → List Char) (values : List Value) : List Char :=
  '(' :: (List.intercalate [',', ' '] (values.map (Value.literal escape)) ++ [')'])

/-- The text of a list of tuples. -/
def rows (texts : List (List Char)) : List Char := List.intercalate [',', '\n'] texts ++ [';', '\n']

/-- Inside a literal every escaped character is read as itself. -/
def Escapes (escape : Char → List Char) : Prop :=
  ∀ (text : List Char) (c : Char) (rest : List Char),
    scan (.literal text) (escape c ++ rest) = scan (.literal (text ++ [c])) rest

section

variable {escape : Char → List Char} {mode : Mode} {rest : List Char} {c : Char}

theorem scan_cons (mode : Mode) (c : Char) (rest : List Char) :
    scan mode (c :: rest) = (next mode c).bind fun step => (scan step.2 rest).map (step.1 ++ ·) := rfl

/-- A character that yields no token yet. -/
theorem scan_silent {mode' : Mode} (hnext : next mode c = some ([], mode')) :
    scan mode (c :: rest) = scan mode' rest := by
  rw [scan_cons, hnext]
  simp

theorem Escapes.scan (hescape : Escapes escape) (text escaped rest : List Char) :
    Sql.scan (.literal text) (escaped.flatMap escape ++ rest) = Sql.scan (.literal (text ++ escaped)) rest := by
  induction escaped generalizing text with
  | nil => rw [List.flatMap_nil, List.nil_append, List.append_nil]
  | cons c escaped ih =>
    rw [List.flatMap_cons, List.append_assoc, hescape, ih, List.append_assoc, List.singleton_append]

/-- The first character after a token is read as if nothing stood before it. -/
theorem scan_after {token : Token} (hnext : next mode c = startAfter token c) :
    scan mode (c :: rest) = (scan .between (c :: rest)).map (token :: ·) := by
  rw [scan_cons, scan_cons, hnext, startAfter]
  change _ = Option.map _ ((start c).bind _)
  cases start c with
  | none => rfl
  | some step => cases h : scan step.2 rest <;> simp [h]

/-- A quoted text is one string token, whatever it holds, before anything but
another quote. -/
theorem scan_quoted (hescape : Escapes escape) (text : List Char) (hc : c ≠ '\'') :
    scan .between (quoted escape text ++ c :: rest) = (scan .between (c :: rest)).map (.string text :: ·) := by
  have hopen : next .between '\'' = some ([], .literal []) := rfl
  have hclose : next (.literal text) '\'' = some ([], .quoted text) := rfl
  have hafter : next (.quoted text) c = startAfter (.string text) c := if_neg hc
  rw [quoted, List.cons_append, scan_silent hopen, List.append_assoc, hescape.scan, List.nil_append,
    List.singleton_append, scan_silent hclose, scan_after hafter]

theorem scan_digits {before digits : List Char} (hdigits : ∀ d ∈ digits, d.isDigit = true) :
    scan (.number before) (digits ++ rest) = scan (.number (before ++ digits)) rest := by
  induction digits generalizing before with
  | nil => rw [List.nil_append, List.append_nil]
  | cons d digits ih =>
    have hnext : next (.number before) d = some ([], .number (before ++ [d])) := if_pos (hdigits d List.mem_cons_self)
    rw [List.cons_append, scan_silent hnext, ih fun e he => hdigits e (List.mem_cons_of_mem _ he), List.append_assoc,
      List.singleton_append]

/-- A numeral is one number token before anything but another digit. -/
theorem scan_number {digits : List Char} (hne : digits ≠ []) (hdigits : ∀ d ∈ digits, d.isDigit = true)
    (hc : c.isDigit = false) :
    scan .between (digits ++ c :: rest) = (scan .between (c :: rest)).map (.number digits :: ·) := by
  cases digits with
  | nil => exact absurd rfl hne
  | cons d digits =>
    have hd : d.isDigit = true := hdigits d List.mem_cons_self
    have hquote : d ≠ '\'' := by
      rintro rfl
      cases hd
    have hnext : next .between d = some ([], .number [d]) := (if_neg hquote).trans (if_pos hd)
    have hafter : next (.number (d :: digits)) c = startAfter (.number (d :: digits)) c := if_neg (by simp [hc])
    rw [List.cons_append, scan_silent hnext, scan_digits fun e he => hdigits e (List.mem_cons_of_mem _ he),
      List.singleton_append, scan_after hafter]

/-- A literal is one token before anything that ends it. -/
theorem scan_literal (hescape : Escapes escape) (v : Value) (hquote : c ≠ '\'') (hdigit : c.isDigit = false) :
    scan .between (v.literal escape ++ c :: rest) = (scan .between (c :: rest)).map (v.token :: ·) := by
  cases v with
  | number n =>
    have hdigits : ∀ d ∈ Nat.toDigits 10 n, d.isDigit = true :=
      fun d hd => Nat.isDigit_of_mem_toDigits (by decide) (by decide) hd
    exact scan_number Nat.toDigits_ne_nil hdigits hdigit
  | string text => exact scan_quoted hescape text.toList hquote

@[simp] theorem value_token (v : Value) : value v.token = some v := by
  cases v with
  | number n => rw [Value.token, value, Nat.ofDigitChars_ten_toDigits]
  | string text => rw [Value.token, value, String.ofList_toList]

/-- A comma with a blank behind it. -/
theorem scan_comma (hblank : next .between c = some ([], .between)) :
    scan .between (',' :: c :: rest) = (scan .between rest).map (.comma :: ·) := by
  change Option.map _ (scan .between (c :: rest)) = _
  rw [scan_silent hblank]
  rfl

/-- The tokens of a tuple. -/
def rowTokens (values : List Value) : List Token := .left :: ((values.map Value.token).intersperse .comma ++ [.right])

/-- The values of a tuple are read as they are written. -/
theorem scan_values (hescape : Escapes escape) (v : Value) (values : List Value) :
    scan .between (List.intercalate [',', ' '] ((v :: values).map (Value.literal escape)) ++ ')' :: rest) =
      (scan .between rest).map fun tokens => ((v :: values).map Value.token).intersperse .comma ++ .right ::
        tokens := by
  induction values generalizing v with
  | nil =>
    have hright : scan .between (')' :: rest) = (scan .between rest).map (.right :: ·) := rfl
    rw [List.map_singleton, List.intercalate_singleton, scan_literal hescape v (by decide) (by decide), hright,
      Option.map_map]
    rfl
  | cons w values ih =>
    rw [List.map_cons, List.map_cons, List.intercalate_cons_cons, List.append_assoc, List.append_assoc,
      List.cons_append,
      List.cons_append, List.nil_append, scan_literal hescape v (by decide) (by decide), scan_comma rfl,
        ← List.map_cons, ih,
      Option.map_map, Option.map_map]
    rfl

theorem scan_row (hescape : Escapes escape) {values : List Value} (hvalues : values ≠ []) :
    scan .between (row escape values ++ rest) = (scan .between rest).map (rowTokens values ++ ·) := by
  have hleft : ∀ more, scan .between ('(' :: more) = (scan .between more).map (.left :: ·) := fun _ => rfl
  cases values with
  | nil => exact absurd rfl hvalues
  | cons v values =>
    rw [row, List.cons_append, hleft, List.append_assoc, List.singleton_append, scan_values hescape, Option.map_map]
    congr 1
    funext tokens
    simp [rowTokens]

theorem tuples_values (before : List Value) (v : Value) (values : List Value) (rest : List Token) :
    tuples (.open before) (((v :: values).map Value.token).intersperse .comma ++ .right :: rest) =
      (tuples .behind rest).map ((before ++ v :: values) :: ·) := by
  induction values generalizing before v with
  | nil =>
    rw [List.map_singleton, List.intersperse_singleton, List.singleton_append, tuples, value_token]
    rfl
  | cons w values ih =>
    rw [List.map_cons, List.map_cons, List.intersperse_cons_cons, List.cons_append, List.cons_append, tuples,
      value_token]
    change tuples (.open (before ++ [v])) _ = _
    rw [← List.map_cons, ih, List.append_assoc, List.singleton_append]

theorem tuples_row {values : List Value} (hvalues : values ≠ []) (rest : List Token) :
    tuples .before (rowTokens values ++ rest) = (tuples .behind rest).map (values :: ·) := by
  cases values with
  | nil => exact absurd rfl hvalues
  | cons v values =>
    rw [rowTokens, List.cons_append, tuples, List.append_assoc, List.singleton_append, tuples_values]
    rfl

/-- A list of tuples is read back as it was written: no value ends its literal
early, and none adds a tuple. -/
theorem read_rows (hescape : Escapes escape) {first : List Value} {more : List (List Value)}
    (hvalues : ∀ values ∈ first :: more, values ≠ []) :
    read (rows ((first :: more).map (row escape))) = some (first :: more) := by
  have hlex : ∃ tokens, lex (rows ((first :: more).map (row escape))) = some tokens ∧
      tuples .before tokens = some (first :: more) := by
    induction more generalizing first with
    | nil =>
      have hfirst := hvalues first List.mem_cons_self
      refine ⟨rowTokens first ++ [.semicolon], ?_, ?_⟩
      · rw [lex, rows, List.map_singleton, List.intercalate_singleton, scan_row hescape hfirst]
        rfl
      · rw [tuples_row hfirst]
        rfl
    | cons second more ih =>
      have hfirst := hvalues first List.mem_cons_self
      obtain ⟨tokens, htokens, htuples⟩ := ih fun values h => hvalues values (List.mem_cons_of_mem _ h)
      refine ⟨rowTokens first ++ .comma :: tokens, ?_, ?_⟩
      · rw [lex, rows, List.map_cons, List.map_cons, List.intercalate_cons_cons, List.append_assoc, List.append_assoc,
          scan_row hescape hfirst, List.cons_append, List.cons_append, List.nil_append, scan_comma rfl, ← List.map_cons]
        rw [lex, rows] at htokens
        rw [htokens]
        rfl
      · rw [tuples_row hfirst, tuples, htuples]
        rfl
  obtain ⟨tokens, htokens, htuples⟩ := hlex
  rw [read, htokens, Option.bind_some, htuples]

end

end Sql
