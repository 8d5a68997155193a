import Mathlib.Data.List.Basic

namespace Utf8

/-- The UTF-8 bytes of a text. -/
def encode (text : List Char) : List UInt8 := text.flatMap String.utf8EncodeChar

/-- The text of a byte sequence, if it is valid UTF-8. -/
def decode (bytes : List UInt8) : Option (List Char) :=
  (String.fromUTF8? bytes.toByteArray).map String.toList

@[simp] theorem encode_nil : encode [] = [] := rfl

@[simp] theorem encode_cons (c : Char) (text : List Char) :
    encode (c :: text) = String.utf8EncodeChar c ++ encode text := by
  simp [encode]

@[simp] theorem encode_append (text text' : List Char) :
    encode (text ++ text') = encode text ++ encode text' := by
  simp [encode]

theorem toByteArray_encode (text : List Char) : (encode text).toByteArray = text.utf8Encode := rfl

theorem decode_encode (text : List Char) : decode (encode text) = some text := by
  have hvalid : (encode text).toByteArray.IsValidUTF8 := by
    rw [toByteArray_encode]
    exact ByteArray.isValidUTF8_utf8Encode
  have hstring : String.fromUTF8 (encode text).toByteArray hvalid = String.ofList text := by
    apply String.toByteArray_inj.mp
    rw [String.toByteArray_ofList]
    rfl
  rw [decode, String.fromUTF8?, dif_pos hvalid, Option.map_some, hstring, String.toList_ofList]

/-- An ASCII text has one byte for each character. -/
theorem encode_length_ascii {text : List Char} (hascii : ∀ c ∈ text, c.val ≤ 127) :
    (encode text).length = text.length := by
  induction text with
  | nil => rfl
  | cons c rest ih =>
    have hsize : c.utf8Size = 1 := Char.utf8Size_eq_one_iff.mpr (hascii c List.mem_cons_self)
    rw [encode_cons, List.length_append, String.length_utf8EncodeChar, hsize,
      ih fun c hc => hascii c (List.mem_cons_of_mem _ hc), List.length_cons, Nat.add_comm]

theorem utf8ByteSize_ascii {text : String} (hascii : ∀ c ∈ text.toList, c.val ≤ 127) :
    text.utf8ByteSize = text.toList.length := by
  have hbytes : text.toByteArray = (encode text.toList).toByteArray := by
    rw [toByteArray_encode, ← String.toByteArray_ofList, String.ofList_toList]
  rw [String.utf8ByteSize, hbytes, List.size_toByteArray, encode_length_ascii hascii]

theorem encode_injective : Function.Injective encode := by
  intro text text' h
  have hdecode := decode_encode text
  rw [h, decode_encode, Option.some.injEq] at hdecode
  exact hdecode.symm

/-- Valid bytes are the encoding of the text read from them. -/
theorem encode_of_decode {bytes : List UInt8} {text : List Char} (h : decode bytes = some text) :
    encode text = bytes := by
  rw [decode, Option.map_eq_some_iff] at h
  obtain ⟨s, hs, rfl⟩ := h
  rw [String.fromUTF8?] at hs
  split at hs
  · rename_i hvalid
    rw [Option.some.injEq] at hs
    have hbytes : s.toByteArray = bytes.toByteArray := by rw [← hs]; rfl
    have hencode : (encode s.toList).toByteArray = bytes.toByteArray := by
      rw [toByteArray_encode, ← hbytes, ← String.toByteArray_ofList, String.ofList_toList]
    simpa using congrArg (fun b => b.data.toList) hencode
  · cases hs

/-- A valid byte prefix of an encoded text is the encoding of a prefix: UTF-8
never hides a character boundary. -/
theorem prefix_of_decode {bytes : List UInt8} {part text : List Char} (hdecode : decode bytes = some part)
    (hpre : bytes <+: encode text) : part <+: text := by
  obtain ⟨rest, hrest⟩ := hpre
  rw [← encode_of_decode hdecode] at hrest
  apply List.isPrefix_of_utf8Encode_append_eq_utf8Encode rest.toByteArray
  rw [← toByteArray_encode, ← toByteArray_encode, ← hrest, List.toByteArray_append]

/-- Line feeds are never part of a longer character. -/
theorem newline_mem_utf8EncodeChar {c : Char} (h : (10 : UInt8) ∈ String.utf8EncodeChar c) : c = '\n' := by
  have hbound : ∀ k : Nat, k < 256 → UInt8.ofNat k = 10 → k = 10 := by
    intro k hk heq
    have := congrArg UInt8.toNat heq
    simpa [UInt8.toNat_ofNat', Nat.mod_eq_of_lt hk] using this
  unfold String.utf8EncodeChar at h
  dsimp only at h
  split at h
  · rename_i hle
    rw [List.mem_singleton] at h
    have hval := hbound c.val.toNat (by omega) h.symm
    apply Char.ext
    apply UInt32.toNat_inj.mp
    simpa using hval
  · exfalso
    split at h
    · simp only [List.mem_cons, List.not_mem_nil, or_false] at h
      rcases h with h | h
      · have := hbound _ (by omega) h.symm; omega
      · have := hbound _ (by omega) h.symm; omega
    · split at h
      · simp only [List.mem_cons, List.not_mem_nil, or_false] at h
        rcases h with h | h | h
        · have := hbound _ (by omega) h.symm; omega
        · have := hbound _ (by omega) h.symm; omega
        · have := hbound _ (by omega) h.symm; omega
      · simp only [List.mem_cons, List.not_mem_nil, or_false] at h
        rcases h with h | h | h | h
        · have := hbound _ (by omega) h.symm; omega
        · have := hbound _ (by omega) h.symm; omega
        · have := hbound _ (by omega) h.symm; omega
        · have := hbound _ (by omega) h.symm; omega

theorem newline_not_mem_encode {text : List Char} (h : '\n' ∉ text) : (10 : UInt8) ∉ encode text := by
  intro hmem
  obtain ⟨c, hc, hbyte⟩ := List.mem_flatMap.mp hmem
  rw [newline_mem_utf8EncodeChar hbyte] at hc
  exact h hc

theorem utf8EncodeChar_ascii {c : Char} (h : c.val ≤ 127) : String.utf8EncodeChar c = [UInt8.ofNat c.toNat] := by
  have hle : c.val.toNat ≤ 127 := UInt32.le_iff_toNat_le.mp h
  unfold String.utf8EncodeChar
  rw [if_pos (show c.val.toNat ≤ 0x7f from hle)]
  rfl

theorem encode_ascii {text : List Char} (h : ∀ c ∈ text, c.val ≤ 127) :
    encode text = text.map fun c => UInt8.ofNat c.toNat := by
  induction text with
  | nil => rfl
  | cons c text ih =>
    obtain ⟨hc, htext⟩ := List.forall_mem_cons.mp h
    rw [encode_cons, utf8EncodeChar_ascii hc, ih htext, List.map_cons, List.singleton_append]

/-- A longer character shows in its bytes. -/
theorem ascii_of_bytes {text : List Char} (h : ∀ b ∈ encode text, b.toNat < 128) : ∀ c ∈ text, c.val ≤ 127 := by
  intro c hc
  by_contra hwide
  have hval : ¬ c.val.toNat ≤ 127 := fun hle => hwide (UInt32.le_iff_toNat_le.mpr hle)
  have hbytes : ∀ b ∈ String.utf8EncodeChar c, b.toNat < 128 :=
    fun b hb => h b (List.mem_flatMap.mpr ⟨c, hc, hb⟩)
  unfold String.utf8EncodeChar at hbytes
  dsimp only at hbytes
  rw [if_neg hval] at hbytes
  split at hbytes
  · have hfirst := hbytes _ List.mem_cons_self
    rw [UInt8.toNat_ofNat'] at hfirst
    omega
  · split at hbytes
    · have hfirst := hbytes _ List.mem_cons_self
      rw [UInt8.toNat_ofNat'] at hfirst
      omega
    · have hfirst := hbytes _ List.mem_cons_self
      rw [UInt8.toNat_ofNat'] at hfirst
      omega

end Utf8
