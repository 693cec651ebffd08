import ShellDispatch.Text.Basic

/-!
# The UTF-8 form of texts

`encode` writes a text as bytes and `decode` reads it back. A byte sequence is readable exactly if
it is the encoding of some text, and that text is what is read (`decode_eq_some_iff`).
-/

namespace ShellDispatch

/-- A sequence of bytes. -/
abbrev Bytes := List UInt8

namespace Utf8

/-- The UTF-8 form of a text. -/
def encode (t : Text) : Bytes := t.flatMap String.utf8EncodeChar

/-- The text of which the bytes are the UTF-8 form, if there is one. -/
def decode (b : Bytes) : Option Text := b.toByteArray.utf8Decode?.map Array.toList

@[simp] theorem encode_nil : encode [] = [] := rfl

@[simp] theorem encode_append (s t : Text) : encode (s ++ t) = encode s ++ encode t :=
  List.flatMap_append

@[simp] theorem decode_encode (t : Text) : decode (encode t) = some t := by
  have h : (encode t).toByteArray = t.utf8Encode := rfl
  simp [decode, h, List.utf8Decode?_utf8Encode]

/-- Reading succeeds exactly on what writing produces. -/
theorem decode_eq_some_iff {b : Bytes} {t : Text} : decode b = some t ↔ b = encode t := by
  constructor
  · intro h
    have hs : (b.toByteArray.utf8Decode?).isSome = true := by
      rw [decode, Option.map_eq_some_iff] at h
      obtain ⟨a, ha, -⟩ := h
      simp [ha]
    obtain ⟨s, hb⟩ := ByteArray.isSome_utf8Decode?_iff.1 hs
    have hb : b = encode s := List.toByteArray_inj.1 hb
    rw [hb, decode_encode] at h
    rw [hb, Option.some.inj h]
  · rintro rfl
    exact decode_encode t

end Utf8

end ShellDispatch
