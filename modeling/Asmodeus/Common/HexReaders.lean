import Asmodeus.Lib.Fallible
import Asmodeus.Lib.Hex
import Asmodeus.Lib.Lines
import Asmodeus.Telemetry.Record

open asmodeus.common

namespace asmodeus.common

/-- `str::is_ascii`. -/
def is_ascii (text : List Char) : Bool := text.all fun c => decide (c.val ≤ 127)

/-- `str::len`. -/
def byte_len (text : List Char) : Nat := (Utf8.encode text).length

theorem is_ascii_iff {text : List Char} : is_ascii text = true ↔ ∀ c ∈ text, c.val ≤ 127 := by
  simp [is_ascii]

theorem byte_len_ascii {text : List Char} (h : is_ascii text = true) : byte_len text = text.length :=
  Utf8.encode_length_ascii (is_ascii_iff.mp h)

theorem decodeParsed_none {text : List Char} (h : is_ascii text = false) : Hex.decodeParsed text = none := by
  cases hparsed : Hex.decodeParsed text with
  | none => rfl
  | some bytes =>
    have hascii := is_ascii_iff.mpr (Hex.decodeParsed_ascii (by rw [hparsed]; rfl))
    rw [h] at hascii
    cases hascii

end asmodeus.common

namespace asmodeus.telemetry

def from_hex (hex_str : String) : Option (List UInt8) :=
  if !is_ascii hex_str.toList || byte_len hex_str.toList % 2 != 0 then none
  else (Chunks.pairs hex_str.toList).mapM fun pair => Hex.parseByte [pair.1, pair.2]

end asmodeus.telemetry

namespace asmodeus.crypto

/-- Read an operator key of `N` bytes, from what reading its file returned. -/
def read_hex_key (N : Nat) (file : Except IoError String) : Except IoError (List UInt8) :=
  match file with
  | .error e => .error e
  | .ok text =>
    let hex := Lines.trim text.toList
    if !is_ascii hex || byte_len hex != N * 2 then .error ⟨.InvalidData, "invalid key length or encoding"⟩
    else match (Chunks.pairs hex).mapM fun pair => Hex.parseByte [pair.1, pair.2] with
      | some result => .ok result
      | none => .error ⟨.InvalidData, "invalid key encoding"⟩

end asmodeus.crypto

namespace asmodeus.control_plane

/-- The key bytes of an audit key file. -/
def audit_key_bytes (text : String) : Except IoError (List UInt8) :=
  let hex := Lines.trim text.toList
  if byte_len hex != 128 || !is_ascii hex then
    .error ⟨.InvalidData, "audit key must contain 64 hex-encoded bytes"⟩
  else match (Chunks.pairs hex).mapM fun pair => Hex.parseByte [pair.1, pair.2] with
    | some key => .ok key
    | none => .error ⟨.InvalidData, "invalid audit key hex"⟩

/-- Persistent logs require an operator-managed key; without one a fresh key is allowed.
The path comes as what reading its file returned. -/
def load_audit_key (crypto : telemetry.Crypto) (is_valid : List UInt8 → List UInt8 → List UInt8 → Bool)
    (generated : List UInt8) (path : Option (Except IoError String)) (persistent : Bool) :
    Except IoError (List UInt8) :=
  match path with
  | none =>
    if persistent then .error ⟨.InvalidInput, "ASMODEUS_AUDIT_SIGNING_KEY is required with ASMODEUS_AUDIT_LOG"⟩
    else .ok generated
  | some file => do
    let text ← file
    let key ← audit_key_bytes text
    let message := Utf8.encode "asmodeus-audit-key-check".toList
    let pk ← (crypto.public_key_from_secret_key key).mapError IoError.other
    let proof ← (crypto.sign_message message key).mapError IoError.other
    if is_valid message proof pk then return key
    else throw ⟨.InvalidData, "inconsistent audit key"⟩

end asmodeus.control_plane

namespace asmodeus.cli

inductive OpError
  | BadHex
  | BadKey
  | BadSignature
  | VerifyFailed
  deriving DecidableEq

def to_hex (bytes : List UInt8) : String :=
  String.ofList (bytes.flatMap fun b => [Nat.digitChar (b.toNat / 16), Nat.digitChar (b.toNat % 16)])

def nibble (b : UInt8) : Except OpError UInt8 :=
  if 48 ≤ b ∧ b ≤ 57 then .ok (b - 48)
  else if 97 ≤ b ∧ b ≤ 102 then .ok (b - 97 + 10)
  else if 65 ≤ b ∧ b ≤ 70 then .ok (b - 65 + 10)
  else .error .BadHex

def from_hex (s : String) : Except OpError (List UInt8) :=
  let bytes := Utf8.encode (Lines.trim s.toList)
  if bytes.length % 2 != 0 then .error .BadHex
  else (Chunks.pairs bytes).mapM fun pair => do
    let high ← nibble pair.1
    let low ← nibble pair.2
    return (high <<< 4) ||| low

end asmodeus.cli

open asmodeus

namespace asmodeus.common

/-- The reader of a telemetry field takes the text as it is. -/
theorem from_hex_eq (hex_str : String) : telemetry.from_hex hex_str = Hex.decodeParsed hex_str.toList := by
  unfold telemetry.from_hex
  cases hascii : is_ascii hex_str.toList with
  | false => rw [decodeParsed_none hascii]; rfl
  | true =>
    rw [byte_len_ascii hascii, Hex.decodeParsed]
    by_cases heven : hex_str.toList.length % 2 = 0
    · simp [heven]
    · simp [heven]

theorem decodeParsed_of_len {text : List Char} (hascii : is_ascii text = true) {N : Nat}
    (hlen : byte_len text = N * 2) :
    (Chunks.pairs text).mapM (fun pair => Hex.parseByte [pair.1, pair.2]) = Hex.decodeParsed text := by
  rw [byte_len_ascii hascii] at hlen
  rw [Hex.decodeParsed, if_pos (by omega)]

/-- The reader of an operator key takes the trimmed text, at the length of the key. -/
theorem read_hex_key_eq {N : Nat} {text : String} (hlen : byte_len (Lines.trim text.toList) = N * 2) :
    (crypto.read_hex_key N (.ok text)).toOption = Hex.decodeParsed (Lines.trim text.toList) := by
  unfold crypto.read_hex_key
  cases hascii : is_ascii (Lines.trim text.toList) with
  | false => simp [hascii, decodeParsed_none hascii, Except.toOption]
  | true =>
    simp only [hascii, hlen, bne_self_eq_false, Bool.not_true, Bool.or_self, Bool.false_eq_true, if_false,
      decodeParsed_of_len hascii hlen]
    cases Hex.decodeParsed (Lines.trim text.toList) <;> rfl

/-- The reader of the audit key takes the trimmed text, at the length of a secret key. -/
theorem audit_key_bytes_eq {text : String} (hlen : byte_len (Lines.trim text.toList) = 128) :
    (control_plane.audit_key_bytes text).toOption = Hex.decodeParsed (Lines.trim text.toList) := by
  unfold control_plane.audit_key_bytes
  cases hascii : is_ascii (Lines.trim text.toList) with
  | false => simp [hascii, decodeParsed_none hascii, Except.toOption]
  | true =>
    have hpairs : byte_len (Lines.trim text.toList) = 64 * 2 := hlen
    simp only [hascii, hlen, bne_self_eq_false, Bool.not_true, Bool.or_self, Bool.false_eq_true, if_false,
      decodeParsed_of_len hascii hpairs]
    cases Hex.decodeParsed (Lines.trim text.toList) <;> rfl

/-- The character of a byte. -/
def byte_char (b : UInt8) : Char := Char.ofNat b.toNat

theorem byte_char_toNat (b : UInt8) : (byte_char b).toNat = b.toNat := by
  have hlt := b.toNat_lt
  have hvalid : b.toNat.isValidChar := Or.inl (by omega)
  rw [byte_char, Char.ofNat, dif_pos hvalid]
  rfl

theorem nibble_values : ∀ k < 256,
    (cli.nibble (UInt8.ofNat k)).toOption = (Hex.digit? (Char.ofNat k)).map UInt8.ofNat := by
  decide +kernel

theorem nibble_eq (b : UInt8) : (cli.nibble b).toOption = (Hex.digit? (byte_char b)).map UInt8.ofNat := by
  have hvalue := nibble_values b.toNat b.toNat_lt
  rwa [UInt8.ofNat_toNat] at hvalue

theorem nibbles_join : ∀ high < 16, ∀ low < 16,
    (UInt8.ofNat high <<< 4) ||| UInt8.ofNat low = UInt8.ofNat (16 * high + low) := by
  decide +kernel

theorem nibble_some {b : UInt8} {n : Nat} (h : Hex.digit? (byte_char b) = some n) :
    cli.nibble b = .ok (UInt8.ofNat n) := by
  have hvalue := nibble_eq b
  rw [h, Option.map_some] at hvalue
  cases hnibble : cli.nibble b with
  | error e => simp [hnibble, Except.toOption] at hvalue
  | ok digit => simpa [hnibble, Except.toOption] using hvalue

theorem nibble_none {b : UInt8} (h : Hex.digit? (byte_char b) = none) : ∃ e, cli.nibble b = .error e := by
  have hvalue := nibble_eq b
  rw [h, Option.map_none] at hvalue
  cases hnibble : cli.nibble b with
  | error e => exact ⟨e, rfl⟩
  | ok digit => simp [hnibble, Except.toOption] at hvalue

/-- One byte as the operator's tool reads it. -/
theorem cli_pair_eq (pair : UInt8 × UInt8) :
    (do let high ← cli.nibble pair.1
        let low ← cli.nibble pair.2
        return (high <<< 4) ||| low : Except cli.OpError UInt8).toOption =
      Hex.byte? (byte_char pair.1, byte_char pair.2) := by
  unfold Hex.byte?
  cases hfirst : Hex.digit? (byte_char pair.1) with
  | none =>
    obtain ⟨e, hnibble⟩ := nibble_none hfirst
    rw [hnibble]
    rfl
  | some high =>
    rw [nibble_some hfirst]
    cases hsecond : Hex.digit? (byte_char pair.2) with
    | none =>
      obtain ⟨e, hnibble⟩ := nibble_none hsecond
      rw [hnibble]
      rfl
    | some low =>
      rw [nibble_some hsecond]
      exact congrArg some (nibbles_join high (Hex.digit?_lt hfirst).1 low (Hex.digit?_lt hsecond).1)

theorem toOption_mapM {ε α β : Type} (f : α → Except ε β) (l : List α) :
    (l.mapM f).toOption = l.mapM fun x => (f x).toOption := by
  induction l with
  | nil => rfl
  | cons x l ih =>
    rw [List.mapM_cons, List.mapM_cons, ← ih]
    cases f x with
    | error e => rfl
    | ok y => cases l.mapM f <;> rfl

theorem decode_bytes (text : List Char) : Hex.decode ((Utf8.encode text).map byte_char) = Hex.decode text := by
  cases hascii : is_ascii text with
  | true =>
    have htext := is_ascii_iff.mp hascii
    have hchars : (Utf8.encode text).map byte_char = text := by
      rw [Utf8.encode_ascii htext, List.map_map]
      refine (List.map_congr_left fun c hc => ?_).trans (List.map_id text)
      have hlt : c.toNat < 256 := by
        have hle := UInt32.le_iff_toNat_le.mp (htext c hc)
        have hval : c.toNat = c.val.toNat := rfl
        have hbound : (127 : UInt32).toNat = 127 := rfl
        omega
      rw [Function.comp_apply, byte_char, UInt8.toNat_ofNat', Nat.mod_eq_of_lt hlt, Char.ofNat_toNat, id]
    rw [hchars]
  | false =>
    have hnot : ¬ ∀ c ∈ text, c.val ≤ 127 := by
      rw [← is_ascii_iff, hascii]
      simp
    have htext : ¬ (Hex.decode text).isSome := by
      rw [Hex.decode_isSome_iff]
      exact fun hwell => hnot fun c hc => Hex.isDigit_ascii (hwell.1 c hc)
    have hbytes : ¬ (Hex.decode ((Utf8.encode text).map byte_char)).isSome := by
      rw [Hex.decode_isSome_iff]
      refine fun hwell => hnot (Utf8.ascii_of_bytes fun b hb => ?_)
      obtain ⟨n, hn⟩ := Option.isSome_iff_exists.mp (hwell.1 (byte_char b) (List.mem_map_of_mem hb))
      exact (byte_char_toNat b).symm.trans_lt (Hex.digit?_lt hn).2
    rw [Option.not_isSome_iff_eq_none.mp htext, Option.not_isSome_iff_eq_none.mp hbytes]

/-- The operator's tool reads the digits of the trimmed text, and nothing else. -/
theorem cli_from_hex_eq (s : String) : (cli.from_hex s).toOption = Hex.decode (Lines.trim s.toList) := by
  rw [← decode_bytes, Hex.decode, List.length_map]
  unfold cli.from_hex
  dsimp only
  by_cases heven : (Utf8.encode (Lines.trim s.toList)).length % 2 = 0
  · rw [if_pos heven, if_neg (by simp [heven]), toOption_mapM, Chunks.pairs_map, List.mapM_map]
    exact Hex.mapM_congr fun pair _ => cli_pair_eq pair
  · rw [if_neg heven, if_pos (by simpa using heven)]
    rfl

/-- What a reader makes of a text: the readers of files take it trimmed, and those of keys only at
the length of the key. -/
inductive Outcome (text : List Char) : Option (List UInt8) → Prop
  | from_hex : Outcome text (telemetry.from_hex (String.ofList text))
  | read_hex_key (N : Nat) (file : String) (htrim : Lines.trim file.toList = text) (hlen : byte_len text = N * 2) :
    Outcome text (crypto.read_hex_key N (.ok file)).toOption
  | load_audit_key (file : String) (htrim : Lines.trim file.toList = text) (hlen : byte_len text = 128) :
    Outcome text (control_plane.audit_key_bytes file).toOption
  | cli_from_hex (arg : String) (htrim : Lines.trim arg.toList = text) : Outcome text (cli.from_hex arg).toOption

/-- On this text all readers do one thing: they take it if it is hexadecimal and return the bytes
it was written from. -/
structure ReadersAgree (text : List Char) : Prop where
  accepted : ∀ outcome, Outcome text outcome → (outcome.isSome ↔ Hex.Wellformed text)
  same : ∀ outcome outcome', Outcome text outcome → Outcome text outcome' → outcome = outcome'
  reencoded : ∀ bytes, Outcome text (some bytes) →
    (telemetry.to_hex bytes).toList = text.map Char.toLower ∧ (cli.to_hex bytes).toList = text.map Char.toLower
  inverse : ∀ bytes, (text = (telemetry.to_hex bytes).toList ∨ text = (cli.to_hex bytes).toList) →
    ∀ outcome, Outcome text outcome → outcome = some bytes

theorem to_hex_eq (bytes : List UInt8) :
    (telemetry.to_hex bytes).toList = Hex.encode bytes ∧ (cli.to_hex bytes).toList = Hex.encode bytes :=
  ⟨String.toList_ofList, String.toList_ofList⟩

theorem Outcome.eq {text : List Char} {outcome : Option (List UInt8)} (h : Outcome text outcome) :
    outcome = Hex.decodeParsed text ∨ outcome = Hex.decode text := by
  cases h with
  | from_hex => exact Or.inl (by rw [from_hex_eq, String.toList_ofList])
  | read_hex_key N file htrim hlen =>
    subst htrim
    exact Or.inl (read_hex_key_eq hlen)
  | load_audit_key file htrim hlen =>
    subst htrim
    exact Or.inl (audit_key_bytes_eq hlen)
  | cli_from_hex arg htrim =>
    subst htrim
    exact Or.inr (cli_from_hex_eq arg)

/-- The readers differ exactly on the texts that integer parsing takes for their signs. -/
theorem readers_agree_iff (text : List Char) : ReadersAgree text ↔ ¬ Hex.SignedPairs text := by
  constructor
  · intro hagree hsigned
    have haccepted := hagree.accepted _ Outcome.from_hex
    rw [from_hex_eq, String.toList_ofList, Hex.decodeParsed_isSome_iff] at haccepted
    exact hsigned.not_wellformed (haccepted.mp (Or.inr hsigned))
  · intro hunsigned
    have hdecode : ∀ outcome, Outcome text outcome → outcome = Hex.decode text := by
      intro outcome houtcome
      obtain h | h := houtcome.eq
      · rw [h, Hex.decodeParsed_eq hunsigned]
      · exact h
    refine ⟨fun outcome h => ?_, fun outcome outcome' h h' => ?_, fun bytes h => ?_, fun bytes htext outcome h => ?_⟩
    · rw [hdecode outcome h, Hex.decode_isSome_iff]
    · rw [hdecode outcome h, hdecode outcome' h']
    · have hencode := Hex.encode_of_decode (hdecode _ h).symm
      rw [(to_hex_eq bytes).1, (to_hex_eq bytes).2]
      exact ⟨hencode, hencode⟩
    · rw [(to_hex_eq bytes).1, (to_hex_eq bytes).2, or_self] at htext
      rw [hdecode outcome h, htext, Hex.decode_encode]

/-- A sign and a digit are read as a byte. -/
theorem readers_differ : ¬ ReadersAgree "+f".toList := by
  intro hagree
  have haccepted := hagree.accepted _ Outcome.from_hex
  exact absurd (haccepted.mp (by decide)) (by decide)

end asmodeus.common
