import ShellDispatch.Proofs.Text.Pieces
import ShellDispatch.Script.Source

/-!
# Reading an encoded text line by line

A newline in an encoded text is a newline of the text, since the bytes below `0x80` stand for
themselves and occur in no other encoding (`utf8EncodeChar_eq_of_mem`). So a reader of the bytes
yields the lines of the text: `readLines` gives them, and `commands_encode` says that the commands
of the source are theirs.
-/

namespace ShellDispatch

namespace Utf8

/-- A byte below `0x80` in the encoding of a character is the whole encoding. -/
theorem utf8EncodeChar_eq_of_mem {c : Char} {b : UInt8} (hb : b < 0x80)
    (h : b ∈ String.utf8EncodeChar c) : String.utf8EncodeChar c = [b] ∧ c.toNat = b.toNat := by
  have hb' : b.toNat < 128 := hb
  unfold String.utf8EncodeChar at h ⊢
  dsimp only at h ⊢
  split at h
  · rename_i hv
    obtain rfl : b = UInt8.ofNat c.val.toNat := by simpa using h
    rw [if_pos hv]
    refine ⟨rfl, ?_⟩
    rw [UInt8.toNat_ofNat']
    show c.val.toNat = c.val.toNat % 256
    omega
  -- every byte of a longer encoding is at least `0x80`
  · exfalso
    split at h
    · simp only [List.mem_cons, List.not_mem_nil, or_false] at h
      rcases h with rfl | rfl <;> rw [UInt8.toNat_ofNat'] at hb' <;> omega
    · split at h
      · simp only [List.mem_cons, List.not_mem_nil, or_false] at h
        rcases h with rfl | rfl | rfl <;> rw [UInt8.toNat_ofNat'] at hb' <;> omega
      · simp only [List.mem_cons, List.not_mem_nil, or_false] at h
        rcases h with rfl | rfl | rfl | rfl <;> rw [UInt8.toNat_ofNat'] at hb' <;> omega

theorem encode_cons (c : Char) (t : Text) : encode (c :: t) = String.utf8EncodeChar c ++ encode t :=
  rfl

theorem encode_eq_nil_iff {t : Text} : encode t = [] ↔ t = [] := by
  constructor
  · intro h
    cases t with
    | nil => rfl
    | cons c t =>
      rw [encode_cons, List.append_eq_nil_iff] at h
      exact absurd h.1 String.utf8EncodeChar_ne_nil
  · rintro rfl
    rfl

end Utf8

namespace Script.Source

open Utf8

/-! ## Line endings -/

theorem newline_not_mem_utf8EncodeChar {c : Char} (h : c ≠ '\n') :
    newline ∉ String.utf8EncodeChar c := by
  intro hm
  exact h (Char.ext (UInt32.toNat_inj.1 (utf8EncodeChar_eq_of_mem (by decide) hm).2))

/-- The bytes between newlines are the encodings of the pieces. -/
theorem splitOn_encode (t : Text) : (encode t).splitOn newline = (Text.pieces t).map encode := by
  induction t with
  | nil => rfl
  | cons c t ih =>
    unfold Text.pieces at ih ⊢
    rw [encode_cons, List.splitOn_cons_eq_if_modifyHead]
    by_cases hc : c = '\n'
    · subst hc
      rw [if_pos (by decide), List.map_cons, ← ih]
      exact List.splitOn_append_cons_self [] (encode t)
    · rw [if_neg (by simpa using hc),
        Text.splitOn_append_of_not_mem (newline_not_mem_utf8EncodeChar hc), ih]
      cases t.splitOn '\n' with
      | nil => rfl
      | cons p ps => rfl

/-- A carriage return at the end of the bytes is one at the end of the text. -/
theorem dropFinal_encode (t : Text) :
    Text.dropFinal carriageReturn (encode t) = encode (Text.dropFinal '\r' t) := by
  rcases List.eq_nil_or_concat t with rfl | ⟨l, c, rfl⟩
  · rfl
  rw [List.concat_eq_append, encode_append]
  by_cases hc : c = '\r'
  · subst hc
    rw [Text.dropFinal_append_self]
    exact Text.dropFinal_append_self carriageReturn (encode l)
  · have hlast : (encode l ++ encode [c]).getLast? ≠ some carriageReturn := by
      intro h
      have hm : carriageReturn ∈ encode [c] := by
        have hne : encode [c] ≠ [] := fun he => absurd (encode_eq_nil_iff.1 he) (by simp)
        rw [List.getLast?_append, List.getLast?_eq_some_getLast hne, Option.some_or] at h
        exact Option.some.inj h ▸ List.getLast_mem hne
      rw [show encode [c] = String.utf8EncodeChar c from List.append_nil _] at hm
      exact hc (Char.ext (UInt32.toNat_inj.1 (utf8EncodeChar_eq_of_mem (by decide) hm).2))
    rw [Text.dropFinal_of_ne hlast, Text.dropFinal_of_ne (by simpa using hc), encode_append]

/-! ## The lines of a text -/

/-- The lines of a text as a reader yields them. -/
def readLines (t : Text) : List Text :=
  (Text.pieces t).dropLast.map (Text.dropFinal '\r') ++
    [(Text.pieces t).getLast (Text.pieces_ne_nil t)].filter (· ≠ [])

/-- The lines of lines are the pieces between the newlines inside them. -/
theorem readLines_unlines (ls : List Text) :
    readLines (Text.unlines ls) = (ls.flatMap Text.pieces).map (Text.dropFinal '\r') := by
  unfold readLines
  simp only [Text.pieces_unlines, List.dropLast_concat, List.getLast_concat]
  exact List.append_nil _

theorem items_encode (t : Text) : items { bytes := encode t } = (readLines t).map .ok := by
  have hdecode : ∀ l : Text, decodeLine (encode l) = .ok l := by
    intro l
    rw [decodeLine, decode_encode]
  have hp := List.dropLast_concat_getLast (Text.pieces_ne_nil t)
  unfold items readLines ending completeLines unfinishedLine
  rw [splitOn_encode, List.map_append]
  congr 1
  · rw [← List.map_dropLast, List.map_map, List.map_map, List.map_map]
    refine List.map_congr_left fun l _ => ?_
    show decodeLine (Text.dropFinal carriageReturn (encode l)) = _
    rw [dropFinal_encode, hdecode]
    rfl
  · dsimp only
    generalize (Text.pieces t).getLast (Text.pieces_ne_nil t) = last at hp ⊢
    rw [← hp, List.map_append, List.map_singleton, List.getLastD_concat]
    by_cases hl : last = []
    · subst hl
      rfl
    · rw [if_neg fun he => hl (encode_eq_nil_iff.1 he), hdecode,
        List.filter_cons_of_pos (by simpa using hl)]
      rfl

/-- **The source of an encoded text** has the commands of the text's lines. -/
theorem commands_encode (t : Text) :
    commands { bytes := encode t } = scanLines (readLines t) := by
  unfold commands scanLines
  rw [items_encode]

end Script.Source

end ShellDispatch
