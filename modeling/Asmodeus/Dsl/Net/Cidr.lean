import Asmodeus.Dsl.Net
import Mathlib.Data.List.Forall2

open Octets

namespace asmodeus.dsl

/-- The text of a CIDR with these groups. -/
def cidr_text (first second third fourth last : List Char) : List Char :=
  first ++ '.' :: (second ++ '.' :: (third ++ '.' :: (fourth ++ '/' :: last)))

/-- A text of four groups between dots and one after a slash, with what the groups stand for. -/
def CidrText (Group : Nat → List Char → Nat → Prop) (text : List Char) (octets : List Nat) (len : Nat) : Prop :=
  ∃ first second third fourth last, text = cidr_text first second third fourth last ∧
    List.Forall₂ (Group 255) [first, second, third, fourth] octets ∧ Group 32 last len

/-- A well-formed CIDR: groups of decimal digits within their bounds. -/
def WellformedCidr : List Char → List Nat → Nat → Prop := CidrText Text.Decimal

/-- The number the octets of an address make, the first the most significant. -/
def address_value (octets : List Nat) : Nat := octets.foldl (fun n octet => 256 * n + octet) 0

theorem read_octets_iff (parts : List (List Char)) (octets read : List (BitVec 8)) (hoctets : octets.length ≤ 4) :
    read_octets parts octets = some read ↔
      octets.length + parts.length ≤ 4 ∧ ∃ values, List.Forall₂ (Text.SignedDecimal 255) parts values ∧
        read = octets ++ values.map (BitVec.ofNat 8) := by
  induction parts generalizing octets with
  | nil =>
    rw [read_octets, Option.some.injEq]
    constructor
    · rintro rfl
      exact ⟨hoctets, [], List.Forall₂.nil, by simp⟩
    · rintro ⟨-, values, hvalues, rfl⟩
      cases hvalues
      simp
  | cons part parts ih =>
    rw [read_octets]
    by_cases hfull : octets.length = 4
    · rw [if_pos hfull]
      refine iff_of_false (by simp) fun h => ?_
      have hle := h.1
      rw [List.length_cons] at hle
      omega
    · rw [if_neg hfull]
      cases hpart : Text.parseUnsigned 255 part with
      | none =>
        refine iff_of_false (by simp) ?_
        rintro ⟨-, values, hvalues, -⟩
        cases hvalues with
        | cons hvalue _ =>
          rw [Text.parseUnsigned_iff.mpr hvalue] at hpart
          cases hpart
      | some octet =>
        have hlength : (octets ++ [BitVec.ofNat 8 octet]).length = octets.length + 1 := by simp
        dsimp only
        rw [ih _ (by omega), hlength, List.length_cons]
        constructor
        · rintro ⟨hle, values, hvalues, rfl⟩
          exact ⟨by omega, octet :: values, List.Forall₂.cons (Text.parseUnsigned_iff.mp hpart) hvalues, by simp⟩
        · rintro ⟨hle, values, hvalues, rfl⟩
          cases hvalues with
          | @cons _ value _ values hvalue hvalues =>
            have heq : octet = value := Option.some.inj (hpart.symm.trans (Text.parseUnsigned_iff.mpr hvalue))
            exact ⟨by omega, values, hvalues, by simp [heq]⟩

theorem decimal_no_char {bound value : Nat} {digits : List Char} (h : Text.Decimal bound digits value) {c : Char}
    (hc : c.isDigit = false) : c ∉ digits := by
  intro hmem
  have hdigit := h.all_digits c hmem
  rw [hc] at hdigit
  cases hdigit

/-- No group contains a separator. -/
theorem signed_no_char {bound value : Nat} {text : List Char} (h : Text.SignedDecimal bound text value) {c : Char}
    (hc : c.isDigit = false) (hsign : c ≠ '+') : c ∉ text := by
  obtain h | ⟨digits, rfl, h⟩ := h
  · exact decimal_no_char h hc
  · rw [List.mem_cons, not_or]
    exact ⟨hsign, decimal_no_char h hc⟩

theorem append_octets {a b c d : Nat} (ha : a ≤ 255) (hb : b ≤ 255) (hc : c ≤ 255) (hd : d ≤ 255) :
    (BitVec.ofNat 8 a ++ BitVec.ofNat 8 b ++ BitVec.ofNat 8 c ++ BitVec.ofNat 8 d).toNat =
      address_value [a, b, c, d] := by
  have hbyte : ∀ n ≤ 255, (BitVec.ofNat 8 n).toNat = n := by
    intro n hn
    rw [BitVec.toNat_ofNat, Nat.mod_eq_of_lt (by omega)]
  rw [BitVec.toNat_append, BitVec.toNat_append, BitVec.toNat_append, hbyte a ha, hbyte b hb, hbyte c hc, hbyte d hd,
    ← Nat.shiftLeft_add_eq_or_of_lt (by omega), ← Nat.shiftLeft_add_eq_or_of_lt (by omega),
    ← Nat.shiftLeft_add_eq_or_of_lt (by omega)]
  simp only [Nat.shiftLeft_eq, address_value, List.foldl_cons, List.foldl_nil]
  omega

/-- The pieces of a text that is read. -/
theorem parse_ipv4_cidr_cases (cidr : String) (net : BitVec 32) (len : Nat) :
    parse_ipv4_cidr cidr = some (net, len) ↔
      ∃ addr last a b c d, Text.splitOnce '/' cidr.toList = some (addr, last) ∧
        Text.SignedDecimal 32 last len ∧ read_octets (addr.splitOn '.') [] = some [a, b, c, d] ∧
        net = (a ++ b ++ c ++ d) &&& prefixMask len := by
  have hlen : ∀ last : List Char, Text.SignedDecimal 32 last len ↔
      Text.parseUnsigned (2 ^ 32 - 1) last = some len ∧ len ≤ 32 := by
    intro last
    rw [Text.parseUnsigned_iff]
    constructor
    · exact fun h => ⟨h.rebound (h.bounded.trans (by decide)), h.bounded⟩
    · exact fun h => h.1.rebound h.2
  unfold parse_ipv4_cidr
  cases hsplit : Text.splitOnce '/' cidr.toList with
  | none => simp
  | some pieces =>
    obtain ⟨addr, last⟩ := pieces
    dsimp only
    constructor
    · intro h
      split at h
      · cases h
      · rename_i value hvalue
        split_ifs at h with hbound
        split at h
        · rename_i a b c d hoctets
          obtain ⟨rfl, rfl⟩ := Prod.mk.inj (Option.some.inj h)
          exact ⟨addr, last, a, b, c, d, rfl, (hlen last).mpr ⟨hvalue, by omega⟩, hoctets, rfl⟩
        · cases h
    · rintro ⟨addr', last', a, b, c, d, hpieces, hlast, hoctets, rfl⟩
      obtain ⟨rfl, rfl⟩ := Prod.mk.inj (Option.some.inj hpieces)
      obtain ⟨hparse, hbound⟩ := (hlen last).mp hlast
      rw [hparse]
      dsimp only
      rw [if_neg (by omega), hoctets]

theorem forall_bounded {texts : List (List Char)} {values : List Nat}
    (h : List.Forall₂ (Text.SignedDecimal 255) texts values) : ∀ value ∈ values, value ≤ 255 := by
  induction h with
  | nil => simp
  | cons hvalue _ ih => exact List.forall_mem_cons.mpr ⟨hvalue.bounded, ih⟩

theorem forall_no_char {texts : List (List Char)} {values : List Nat}
    (h : List.Forall₂ (Text.SignedDecimal 255) texts values) {c : Char} (hc : c.isDigit = false) (hsign : c ≠ '+') :
    ∀ text ∈ texts, c ∉ text := by
  induction h with
  | nil => simp
  | cons hvalue _ ih => exact List.forall_mem_cons.mpr ⟨signed_no_char hvalue hc hsign, ih⟩

theorem cidr_text_split {first second third fourth : List Char}
    (hslash : ∀ group ∈ [first, second, third, fourth], '/' ∉ group) (last : List Char) :
    Text.splitOnce '/' (cidr_text first second third fourth last) =
      some (['.'].intercalate [first, second, third, fourth], last) := by
  have htext : cidr_text first second third fourth last =
      ['.'].intercalate [first, second, third, fourth] ++ '/' :: last := by
    simp [cidr_text, List.intercalate]
  rw [htext]
  refine Text.splitOnce_append last ?_
  simpa [List.intercalate] using hslash

/-- The reader takes four groups and a prefix length, each with an optional sign. -/
theorem parse_ipv4_cidr_iff (cidr : String) (net : BitVec 32) (len : Nat) :
    parse_ipv4_cidr cidr = some (net, len) ↔
      ∃ octets, CidrText Text.SignedDecimal cidr.toList octets len ∧
        net.toNat = address_value octets / 2 ^ (32 - len) * 2 ^ (32 - len) := by
  rw [parse_ipv4_cidr_cases]
  constructor
  · rintro ⟨addr, last, a, b, c, d, hsplit, hlast, hread, rfl⟩
    obtain ⟨-, values, hvalues, hoctets⟩ := (read_octets_iff _ [] _ (by simp)).mp hread
    obtain ⟨htext, -⟩ := Text.splitOnce_some hsplit
    have haddr : ['.'].intercalate (addr.splitOn '.') = addr := List.intercalate_splitOn '.'
    rw [← haddr] at htext
    have hfour : values.length = 4 := by
      have hlength := congrArg List.length hoctets
      simpa [eq_comm] using hlength
    have hbounds := forall_bounded hvalues
    obtain ⟨va, vb, vc, vd, rfl⟩ : ∃ va vb vc vd, values = [va, vb, vc, vd] := by
      match values, hfour with
      | [va, vb, vc, vd], _ => exact ⟨va, vb, vc, vd, rfl⟩
    obtain ⟨first, second, third, fourth, hparts⟩ :
        ∃ first second third fourth, addr.splitOn '.' = [first, second, third, fourth] := by
      match addr.splitOn '.', hvalues.length_eq with
      | [first, second, third, fourth], _ => exact ⟨first, second, third, fourth, rfl⟩
    rw [hparts] at hvalues htext
    simp only [List.map_cons, List.map_nil, List.nil_append, List.cons.injEq, and_true] at hoctets
    obtain ⟨rfl, rfl, rfl, rfl⟩ := hoctets
    refine ⟨[va, vb, vc, vd], ⟨first, second, third, fourth, last, ?_, hvalues, hlast⟩, ?_⟩
    · simpa [cidr_text, List.intercalate] using htext
    · rw [and_prefixMask _ hlast.bounded, append_octets (hbounds va (by simp)) (hbounds vb (by simp))
        (hbounds vc (by simp)) (hbounds vd (by simp))]
  · rintro ⟨octets, ⟨first, second, third, fourth, last, htext, hgroups, hlast⟩, hnet⟩
    have hbounds := forall_bounded hgroups
    have hslash : ∀ group ∈ [first, second, third, fourth], '/' ∉ group :=
      forall_no_char hgroups (by decide) (by decide)
    have hdot : ∀ group ∈ [first, second, third, fourth], '.' ∉ group :=
      forall_no_char hgroups (by decide) (by decide)
    have hsplit := cidr_text_split hslash last
    have hdots := List.splitOn_intercalate '.' hdot (by simp)
    obtain ⟨va, vb, vc, vd, rfl⟩ : ∃ va vb vc vd, octets = [va, vb, vc, vd] := by
      match octets, hgroups.length_eq with
      | [va, vb, vc, vd], _ => exact ⟨va, vb, vc, vd, rfl⟩
    refine ⟨_, last, BitVec.ofNat 8 va, BitVec.ofNat 8 vb, BitVec.ofNat 8 vc, BitVec.ofNat 8 vd, htext ▸ hsplit,
      hlast, ?_, ?_⟩
    · rw [hdots]
      exact (read_octets_iff _ [] _ (by simp)).mpr ⟨by simp, _, hgroups, rfl⟩
    · refine BitVec.eq_of_toNat_eq ?_
      rw [hnet, and_prefixMask _ hlast.bounded, append_octets (hbounds va (by simp)) (hbounds vb (by simp))
        (hbounds vc (by simp)) (hbounds vd (by simp))]

/-- The loop over the parts with its array of four octets and its counter, where a write outside
the array panics. -/
def octet_loop : List (List Char) → List (BitVec 8) → Nat → Option (Option (List (BitVec 8) × Nat))
  | [], octets, n => some (some (octets, n))
  | part :: parts, octets, n =>
    if n = 4 then some none
    else match Text.parseUnsigned 255 part with
      | none => some none
      | some octet =>
        if n < octets.length then octet_loop parts (octets.set n (BitVec.ofNat 8 octet)) (n + 1) else none

/-- The mask, where a subtraction below zero or a shift by the width of the word panics. -/
def checked_mask (len : Nat) : Option (BitVec 32) :=
  if len = 0 then some 0
  else if len ≤ 32 ∧ 32 - len < 32 then some (BitVec.allOnes 32 <<< (32 - len))
  else none

/-- `parse_ipv4_cidr` with the panics of its arithmetic and its indexing. -/
def parse_ipv4_cidr_checked (cidr : String) : Option (Option (BitVec 32 × Nat)) :=
  match Text.splitOnce '/' cidr.toList with
  | none => some none
  | some (addr, len) => match Text.parseUnsigned (2 ^ 32 - 1) len with
    | none => some none
    | some len =>
      if 32 < len then some none
      else match octet_loop (addr.splitOn '.') [0, 0, 0, 0] 0 with
        | none => none
        | some none => some none
        | some (some (octets, n)) =>
          if n ≠ 4 then some none
          else match octets, checked_mask len with
            | [a, b, c, d], some mask => some (some ((a ++ b ++ c ++ d) &&& mask, len))
            | _, _ => none

theorem checked_mask_eq {len : Nat} (h : len ≤ 32) : checked_mask len = some (prefixMask len) := by
  unfold checked_mask prefixMask
  by_cases hzero : len = 0
  · rw [if_pos hzero, if_pos hzero]
  · rw [if_neg hzero, if_neg hzero, if_pos ⟨h, by omega⟩]

/-- The array holds at its front the octets read so far. -/
theorem octet_loop_eq (parts : List (List Char)) (octets : List (BitVec 8)) (n : Nat) (hlength : octets.length = 4)
    (hn : n ≤ 4) :
    (read_octets parts (octets.take n) = none ∧ octet_loop parts octets n = some none) ∨
    ∃ read array, read_octets parts (octets.take n) = some read ∧
      octet_loop parts octets n = some (some (array, read.length)) ∧ array.length = 4 ∧
        array.take read.length = read := by
  have hcount : (octets.take n).length = n := by
    rw [List.length_take, hlength]
    omega
  induction parts generalizing octets n with
  | nil =>
    refine Or.inr ⟨octets.take n, octets, by rw [read_octets], ?_, hlength, by rw [hcount]⟩
    rw [octet_loop, hcount]
  | cons part parts ih =>
    rw [octet_loop, read_octets, hcount]
    by_cases hfull : n = 4
    · rw [if_pos hfull, if_pos hfull]
      exact Or.inl ⟨rfl, rfl⟩
    · rw [if_neg hfull, if_neg hfull]
      cases Text.parseUnsigned 255 part with
      | none => exact Or.inl ⟨rfl, rfl⟩
      | some octet =>
        have hindex : n < octets.length := by omega
        have hset : (octets.set n (BitVec.ofNat 8 octet)).length = 4 := by rw [List.length_set, hlength]
        have htake : (octets.set n (BitVec.ofNat 8 octet)).take (n + 1) = octets.take n ++ [BitVec.ofNat 8 octet] := by
          rw [List.take_succ_eq_append_getElem (by simpa using hindex), List.take_set_of_le (Nat.le_refl n),
            List.getElem_set_self]
        dsimp only
        rw [if_pos hindex, ← htake]
        refine ih _ _ hset (by omega) ?_
        rw [List.length_take, hset]
        omega

/-- No operator data makes the reader panic. -/
theorem parse_ipv4_cidr_checked_eq (cidr : String) : parse_ipv4_cidr_checked cidr = some (parse_ipv4_cidr cidr) := by
  unfold parse_ipv4_cidr_checked parse_ipv4_cidr
  cases Text.splitOnce '/' cidr.toList with
  | none => rfl
  | some pieces =>
    obtain ⟨addr, last⟩ := pieces
    dsimp only
    cases Text.parseUnsigned (2 ^ 32 - 1) last with
    | none => rfl
    | some len =>
      dsimp only
      by_cases hlen : 32 < len
      · rw [if_pos hlen, if_pos hlen]
      · rw [if_neg hlen, if_neg hlen]
        obtain ⟨hread, hloop⟩ | ⟨read, array, hread, hloop, hlength, htake⟩ :=
          octet_loop_eq (addr.splitOn '.') [0, 0, 0, 0] 0 rfl (by decide)
        · rw [List.take_zero] at hread
          rw [hread, hloop]
        · rw [List.take_zero] at hread
          rw [hread, hloop, checked_mask_eq (by omega)]
          dsimp only
          by_cases hfour : read.length = 4
          · rw [hfour, List.take_of_length_le (by omega)] at htake
            rw [if_neg (by omega), htake]
            match read, hfour with
            | [a, b, c, d], _ => rfl
          · rw [if_pos hfour]
            match read, hfour with
            | [], _ | [_], _ | [_, _], _ | [_, _, _], _ | _ :: _ :: _ :: _ :: _ :: _, _ => rfl

/-- The texts that are well-formed CIDRs but for plus signs before some groups. -/
def SignedCidr (text : List Char) : Prop :=
  (∃ octets len, CidrText Text.SignedDecimal text octets len) ∧ '+' ∈ text

/-- On this text the reader takes the well-formed CIDRs and no others, and returns the address
with the bits below the prefix cleared. -/
structure ParsesCidr (cidr : String) : Prop where
  accepted : (parse_ipv4_cidr cidr).isSome ↔ ∃ octets len, WellformedCidr cidr.toList octets len
  value : ∀ octets len, WellformedCidr cidr.toList octets len → ∃ net, parse_ipv4_cidr cidr = some (net, len) ∧
    net.toNat = address_value octets / 2 ^ (32 - len) * 2 ^ (32 - len)
  no_panic : parse_ipv4_cidr_checked cidr = some (parse_ipv4_cidr cidr)

theorem WellformedCidr.signed {text : List Char} {octets : List Nat} {len : Nat} (h : WellformedCidr text octets len) :
    CidrText Text.SignedDecimal text octets len := by
  obtain ⟨first, second, third, fourth, last, htext, hgroups, hlast⟩ := h
  exact ⟨first, second, third, fourth, last, htext, hgroups.imp fun _ _ => Or.inl, Or.inl hlast⟩

theorem WellformedCidr.unsigned {text : List Char} {octets : List Nat} {len : Nat}
    (h : WellformedCidr text octets len) :
    '+' ∉ text := by
  obtain ⟨first, second, third, fourth, last, rfl, hgroups, hlast⟩ := h
  have hno : ∀ {bound value : Nat} {digits : List Char}, Text.Decimal bound digits value → '+' ∉ digits :=
    fun hdigits => decimal_no_char hdigits (by decide)
  cases hgroups with
  | cons hfirst hgroups => cases hgroups with
    | cons hsecond hgroups => cases hgroups with
      | cons hthird hgroups => cases hgroups with
        | cons hfourth _ =>
          simp [cidr_text, hno hfirst, hno hsecond, hno hthird, hno hfourth, hno hlast]

theorem decimal_of_unsigned {bound value : Nat} {text : List Char} (h : Text.SignedDecimal bound text value)
    (hsign : '+' ∉ text) : Text.Decimal bound text value := by
  obtain h | ⟨digits, rfl, -⟩ := h
  · exact h
  · exact absurd List.mem_cons_self hsign

/-- Without signs the groups are those of a well-formed CIDR. -/
theorem wellformed_of_unsigned {text : List Char} {octets : List Nat} {len : Nat}
    (h : CidrText Text.SignedDecimal text octets len) (hsign : '+' ∉ text) : WellformedCidr text octets len := by
  obtain ⟨first, second, third, fourth, last, rfl, hgroups, hlast⟩ := h
  simp only [cidr_text, List.mem_append, List.mem_cons, not_or] at hsign
  refine ⟨first, second, third, fourth, last, rfl, ?_, decimal_of_unsigned hlast (by tauto)⟩
  cases hgroups with
  | cons hfirst hgroups => cases hgroups with
    | cons hsecond hgroups => cases hgroups with
      | cons hthird hgroups => cases hgroups with
        | cons hfourth hgroups =>
          cases hgroups
          exact .cons (decimal_of_unsigned hfirst (by tauto)) (.cons (decimal_of_unsigned hsecond (by tauto))
            (.cons (decimal_of_unsigned hthird (by tauto)) (.cons (decimal_of_unsigned hfourth (by tauto)) .nil)))

theorem address_value_lt {octets : List Nat} (hlength : octets.length = 4) (hbounds : ∀ octet ∈ octets, octet ≤ 255) :
    address_value octets < 2 ^ 32 := by
  match octets, hlength with
  | [a, b, c, d], _ =>
    simp only [List.mem_cons, List.not_mem_nil, or_false, forall_eq_or_imp, forall_eq] at hbounds
    simp only [address_value, List.foldl_cons, List.foldl_nil]
    omega

/-- What the reader returns for a text it takes. -/
theorem parse_ipv4_cidr_value {cidr : String} {octets : List Nat} {len : Nat}
    (h : CidrText Text.SignedDecimal cidr.toList octets len) : ∃ net, parse_ipv4_cidr cidr = some (net, len) ∧
      net.toNat = address_value octets / 2 ^ (32 - len) * 2 ^ (32 - len) := by
  have hgroups := h
  obtain ⟨first, second, third, fourth, last, -, hgroups, -⟩ := hgroups
  have haddress := address_value_lt hgroups.length_eq.symm (forall_bounded hgroups)
  have hle : address_value octets / 2 ^ (32 - len) * 2 ^ (32 - len) ≤ address_value octets := Nat.div_mul_le_self _ _
  have hnet : (BitVec.ofNat 32 (address_value octets / 2 ^ (32 - len) * 2 ^ (32 - len))).toNat =
      address_value octets / 2 ^ (32 - len) * 2 ^ (32 - len) := by
    rw [BitVec.toNat_ofNat, Nat.mod_eq_of_lt (by omega)]
  exact ⟨_, (parse_ipv4_cidr_iff cidr _ len).mpr ⟨octets, h, hnet⟩, hnet⟩

/-- The reader takes the well-formed CIDRs and no others exactly where no sign makes the difference. -/
theorem parses_cidr_iff (cidr : String) : ParsesCidr cidr ↔ ¬ SignedCidr cidr.toList := by
  constructor
  · rintro hparses ⟨⟨octets, len, htext⟩, hsign⟩
    obtain ⟨net, hparse, -⟩ := parse_ipv4_cidr_value htext
    obtain ⟨octets', len', hwell⟩ := hparses.accepted.mp (by rw [hparse]; rfl)
    exact hwell.unsigned hsign
  · intro hunsigned
    refine ⟨⟨fun hsome => ?_, ?_⟩, fun octets len h => parse_ipv4_cidr_value h.signed, parse_ipv4_cidr_checked_eq cidr⟩
    · obtain ⟨⟨net, len⟩, hparse⟩ := Option.isSome_iff_exists.mp hsome
      obtain ⟨octets, htext, -⟩ := (parse_ipv4_cidr_iff cidr net len).mp hparse
      exact ⟨octets, len, wellformed_of_unsigned htext fun hsign => hunsigned ⟨⟨octets, len, htext⟩, hsign⟩⟩
    · rintro ⟨octets, len, hwell⟩
      obtain ⟨net, hparse, -⟩ := parse_ipv4_cidr_value hwell.signed
      rw [hparse]
      rfl

/-- A sign before a group is taken. -/
theorem signed_cidr_accepted : ¬ ParsesCidr "+192.0.2.0/24" := by
  intro hparses
  obtain ⟨octets, len, hwell⟩ := hparses.accepted.mp (by decide)
  exact hwell.unsigned (by decide)

end asmodeus.dsl
