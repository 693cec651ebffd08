import Mathlib.Data.List.Forall2
import ShellDispatch.Proofs.Script.Events
import ShellDispatch.Proofs.Script.Extension

/-!
# Blanks around the lines of a script

A line says the same with more blanks around it, as long as a definition still starts its line
(`ofText_of_pads`). So it does not matter either whether the lines of a source end in a newline or in
a carriage return and a newline: the reader removes one carriage return, and one that is left over
is a blank. Both are parts of `scanLines_padded`.
-/

namespace ShellDispatch

open Script.Source (newline carriageReturn)

/-- A carriage return is a character by itself, whatever the bytes before it are. -/
theorem Utf8.decode_concat_return (b : Bytes) :
    decode (b ++ [carriageReturn]) = (decode b).map (· ++ ['\r']) := by
  cases hd : decode b with
  | some t =>
    have hreturn : encode (t ++ ['\r']) = encode t ++ [carriageReturn] := encode_append t ['\r']
    rw [decode_eq_some_iff.1 hd, ← hreturn, decode_encode, Option.map_some]
  | none =>
    cases hd' : decode (b ++ [carriageReturn]) with
    | none => rfl
    | some t =>
      have hb := Script.Source.dropFinal_encode t
      rw [← decode_eq_some_iff.1 hd', Text.dropFinal_append_self] at hb
      rw [hb, decode_encode] at hd
      exact absurd hd (by simp)

namespace Script

/-! ## Padded lines -/

/-- The second line is the first with blanks around it. A definition has them behind it only. -/
def Pads (line padded : Text) : Prop :=
  ∃ before after, Text.IsBlank before ∧ Text.IsBlank after ∧ (IsDefinition line → before = []) ∧
    padded = before ++ line ++ after

theorem Line.ofText_append {blanks : Text} (h : Text.IsBlank blanks) (l : Text) :
    ofText (l ++ blanks) = ofText l := by
  induction blanks generalizing l with
  | nil => rw [List.append_nil]
  | cons c blanks ih =>
    obtain ⟨hc, hblanks⟩ := List.forall_mem_cons.1 h
    rw [List.append_cons, ih hblanks, ofText_concat hc]

theorem Line.ofText_blank_append {blanks l : Text} (h : Text.IsBlank blanks)
    (hd : ¬ IsDefinition l) : ofText (blanks ++ l) = ofText l := by
  cases blanks with
  | nil => rfl
  | cons c blanks =>
    have hpadded : ¬ IsDefinition (c :: blanks ++ l) := by
      rintro ⟨rest, hrest⟩
      obtain ⟨rfl, -⟩ := List.cons.inj hrest
      exact absurd (h _ List.mem_cons_self) (by decide)
    exact ofText_congr hpadded hd (Text.trim_blank_append h l)

theorem Line.ofText_of_pads {l m : Text} (h : Pads l m) : ofText m = ofText l := by
  obtain ⟨before, after, hbefore, hafter, hfirst, rfl⟩ := h
  rw [ofText_append hafter]
  by_cases hd : IsDefinition l
  · rw [hfirst hd, List.nil_append]
  · exact ofText_blank_append hbefore hd

/-! ## Line endings -/

/-- The bytes with a carriage return before every newline. -/
def withReturns (b : Bytes) : Bytes :=
  b.flatMap fun x => if x = newline then [carriageReturn, newline] else [x]

theorem withReturns_of_not_mem {b : Bytes} (h : newline ∉ b) : withReturns b = b := by
  induction b with
  | nil => rfl
  | cons x b ih =>
    rw [List.mem_cons, not_or] at h
    unfold withReturns at ih ⊢
    rw [List.flatMap_cons, if_neg (Ne.symm h.1), ih h.2, List.singleton_append]

theorem withReturns_append_newline {b : Bytes} (h : newline ∉ b) (rest : Bytes) :
    withReturns (b ++ newline :: rest) = b ++ [carriageReturn] ++ newline :: withReturns rest := by
  have hb := withReturns_of_not_mem h
  unfold withReturns at hb ⊢
  rw [List.flatMap_append, hb, List.flatMap_cons, if_pos rfl]
  simp

/-- What an event says to a scan: a failure, or what the line means. -/
def Event.meaning (event : Event) : Except File.Failure Line := event.item.map Line.ofText

theorem Event.meaning_concat_return (b : Bytes) :
    (line (b ++ [carriageReturn])).meaning = (line b).meaning := by
  show (Source.decodeLine (b ++ [carriageReturn])).map Line.ofText =
    (Source.decodeLine b).map Line.ofText
  unfold Source.decodeLine
  rw [Utf8.decode_concat_return]
  cases Utf8.decode b with
  | none => rfl
  | some t => exact congrArg Except.ok (Line.ofText_concat Text.isBlank_return t)

/-- The carriage return that the reader removes is no part of what a line says. -/
theorem Event.meaning_dropFinal (b : Bytes) :
    (line (Text.dropFinal carriageReturn b)).meaning = (line b).meaning := by
  rcases Text.dropFinal_eq_or_eq_concat carriageReturn b with h | h
  · rw [h]
  · rw [← meaning_concat_return, ← h]

/-- **More carriage returns** change the lines of a source, but not what they say. -/
theorem Yields.exists_withReturns {failure : Option File.Failure} {b : Bytes} {es : List Event}
    (h : Yields failure b es) :
    ∃ es', Yields failure (withReturns b) es' ∧ es'.map Event.meaning = es.map Event.meaning := by
  induction h with
  | finished => exact ⟨[], .finished, rfl⟩
  | @unfinished b hne hb =>
    rw [withReturns_of_not_mem hb]
    exact ⟨[.line b], .unfinished hne hb, rfl⟩
  | failed cause hb =>
    rw [withReturns_of_not_mem hb]
    exact ⟨[.failure cause], .failed cause hb, rfl⟩
  | @complete failure b rest es hb _ ih =>
    obtain ⟨es', hes', hmeaning⟩ := ih
    have hreturn : newline ∉ b ++ [carriageReturn] := by
      rw [List.mem_append, not_or]
      exact ⟨hb, by decide⟩
    refine ⟨.line (Text.dropFinal carriageReturn (b ++ [carriageReturn])) :: es', ?_, ?_⟩
    · rw [withReturns_append_newline hb]
      exact .complete hreturn hes'
    · rw [List.map_cons, List.map_cons, Event.meaning_dropFinal, Event.meaning_dropFinal,
        Event.meaning_concat_return, hmeaning]

theorem Source.commands_withReturns (s : Source) :
    Source.commands { s with bytes := withReturns s.bytes } = s.commands := by
  obtain ⟨es, hes, hmeaning⟩ := (yields_iff.2 rfl : Yields s.failure s.bytes s.events).exists_withReturns
  have hevents : es = Source.events { s with bytes := withReturns s.bytes } := yields_iff.1 hes
  unfold commands
  refine scanItems_congr ?_
  rw [items_eq_map_item, items_eq_map_item, List.map_map, List.map_map, ← hevents]
  exact hmeaning

/-! ## Blanks do not matter -/

/-- **Blanks around lines do not matter**: padded lines have the same commands, on the same lines, or
the same error. In particular, it does not matter whether newlines have a carriage return before
them. -/
theorem scanLines_padded :
    (∀ lines padded : List Text, List.Forall₂ Pads lines padded →
      scanLines padded = scanLines lines) ∧
    ∀ s : Source, Source.commands { s with bytes := withReturns s.bytes } = s.commands := by
  refine ⟨?_, Source.commands_withReturns⟩
  intro lines padded h
  refine scanLines_congr ?_
  induction h with
  | nil => rfl
  | cons hline _ ih => rw [List.map_cons, List.map_cons, Line.ofText_of_pads hline, ih]

/-- Wide blanks count as well, and a carriage return inside a line is no part of its ending. -/
theorem scanLines_padded_of_wideBlanks :
    scanLines ["function cmd_a (\u2003".toList, "\u3000# one\r".toList, "function cmd_b(".toList] =
        .ok [⟨"a", "cmd_a", 1, "one"⟩, ⟨"b", "cmd_b", 3, ""⟩] ∧
      Source.commands { bytes := withReturns (Utf8.encode "function cmd_a(\n# o\rn\r\n") } =
        .ok [⟨"a", "cmd_a", 1, "o\rn"⟩] := by
  have hplain : scanLines ["function cmd_a (".toList, "# one".toList, "function cmd_b(".toList] =
      .ok [⟨"a", "cmd_a", 1, "one"⟩, ⟨"b", "cmd_b", 3, ""⟩] :=
    scanLines_eq_ok_iff.2 (by decide +kernel)
  have hsource : Source.commands { bytes := Utf8.encode "function cmd_a(\n# o\rn\r\n" } =
      .ok [⟨"a", "cmd_a", 1, "o\rn"⟩] :=
    Source.commands_encode_eq_ok_iff.2 (by decide +kernel)
  have hfirst : Pads "function cmd_a (".toList "function cmd_a (\u2003".toList :=
    ⟨[], ['\u2003'], by decide, by decide, fun _ => rfl, rfl⟩
  have hsecond : Pads "# one".toList "\u3000# one\r".toList :=
    ⟨['\u3000'], ['\r'], by decide, by decide, fun h => absurd h (by decide), rfl⟩
  have hthird : Pads "function cmd_b(".toList "function cmd_b(".toList :=
    ⟨[], [], by decide, by decide, fun _ => rfl, rfl⟩
  constructor
  · rw [scanLines_padded.1 _ _ (.cons hfirst (.cons hsecond (.cons hthird .nil))), hplain]
  · exact (scanLines_padded.2 ⟨_, none⟩).trans hsource

end Script

end ShellDispatch
