import ZetaRuntime.Library.Lines

/-!
# Texts as bytes

A text is sent as the UTF-8 encoding of its characters. A byte below 128 inside such an encoding is
the encoding of one ASCII character, so what a byte-wise reader does at such a byte, it does at that
character: the lines of the bytes are the bytes of the lines.
-/

namespace Utf8

variable {a : Char}

/-- The bytes of some characters. -/
def encode (text : List Char) : List UInt8 := text.flatMap String.utf8EncodeChar

/-- The text that some bytes are, if they are one. -/
def decode (bytes : List UInt8) : Option String := String.fromUTF8? bytes.toByteArray

@[simp] theorem encode_nil : encode [] = [] := rfl

theorem encode_cons (c : Char) (text : List Char) :
    encode (c :: text) = String.utf8EncodeChar c ++ encode text := List.flatMap_cons

theorem encode_append (a b : List Char) :
    encode (a ++ b) = encode a ++ encode b := List.flatMap_append

/-- The bytes of a text are read as the text. -/
theorem decode_encode (text : List Char) : decode (encode text) = some (String.ofList text) := by
  have hbytes : (encode text).toByteArray = (String.ofList text).toByteArray :=
    String.toByteArray_ofList.symm
  rw [decode, hbytes, String.fromUTF8?, dif_pos (String.ofList text).isValidUTF8]
  rfl

/-- The byte of an ASCII character. -/
def ascii (a : Char) : UInt8 := UInt8.ofNat a.toNat

theorem encodeChar_of_ascii (ha : a.toNat ≤ 127) : String.utf8EncodeChar a = [ascii a] := by
  have hval : a.val.toNat ≤ 127 := ha
  unfold String.utf8EncodeChar
  simp only [hval, if_true]
  rfl

/-- A byte below 128 is in the encoding of one character only. -/
theorem ascii_mem_encodeChar {c : Char} (ha : a.toNat ≤ 127)
    (h : ascii a ∈ String.utf8EncodeChar c) :
    c = a := by
  have hbyte : ∀ n : ℕ, ascii a = UInt8.ofNat n → n % 256 = a.toNat := by
    intro n hn
    have hnat := congrArg UInt8.toNat hn
    rw [ascii, UInt8.toNat_ofNat', UInt8.toNat_ofNat'] at hnat
    omega
  unfold String.utf8EncodeChar at h
  simp only at h
  split at h
  · next hv =>
    have hval := hbyte _ (List.mem_singleton.mp h)
    refine Char.ext (UInt32.toNat_inj.mp ?_)
    show c.val.toNat = a.toNat
    omega
  -- every byte of a longer encoding is at least 128
  · split at h
    · simp only [List.mem_cons, List.not_mem_nil, or_false] at h
      rcases h with h | h <;> have hval := hbyte _ h <;> omega
    · split at h
      · simp only [List.mem_cons, List.not_mem_nil, or_false] at h
        rcases h with h | h | h <;> have hval := hbyte _ h <;> omega
      · simp only [List.mem_cons, List.not_mem_nil, or_false] at h
        rcases h with h | h | h | h <;> have hval := hbyte _ h <;> omega

theorem ascii_mem_encode (ha : a.toNat ≤ 127) {text : List Char} :
    ascii a ∈ encode text ↔ a ∈ text := by
  constructor
  · intro h
    obtain ⟨c, hc, hmem⟩ := List.mem_flatMap.mp h
    exact ascii_mem_encodeChar ha hmem ▸ hc
  · intro h
    refine List.mem_flatMap.mpr ⟨a, h, ?_⟩
    rw [encodeChar_of_ascii ha]
    exact List.mem_singleton_self _

end Utf8
