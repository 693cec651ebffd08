import ShellDispatch.Proofs.Script.Blocks
import ShellDispatch.Proofs.Script.Source

/-!
# Scripts with more lines at the end

Lines without definition add no command, and if the first of them is no comment they add no
documentation either (`scanLines_append`). This holds of the text of a script as well, wherever it
ends: a newline ends its last line, and a carriage return there is no part of what the line says
(`scanLines_readLines_append`).
-/

namespace ShellDispatch.Text

/-- What follows the first `c` does not matter for the text before it. -/
theorem takeWhile_append_of_mem {c : Char} {s : Text} (h : c ∈ s) (t : Text) :
    (s ++ t).takeWhile (· ≠ c) = s.takeWhile (· ≠ c) := by
  induction s with
  | nil => exact absurd h List.not_mem_nil
  | cons d s ih =>
    rw [List.cons_append]
    by_cases hd : d = c
    · rw [List.takeWhile_cons_of_neg (by simpa using hd),
        List.takeWhile_cons_of_neg (by simpa using hd)]
    · have hs : c ∈ s := (List.mem_cons.1 h).resolve_left (Ne.symm hd)
      rw [List.takeWhile_cons_of_pos (by simpa using hd),
        List.takeWhile_cons_of_pos (by simpa using hd), ih hs]

end ShellDispatch.Text

namespace ShellDispatch.Script

variable {ls ms : List Text}

/-! ## Blanks at the end of a line -/

theorem isDefinition_concat {c : Char} (hc : Text.isBlank c) {l : Text} :
    IsDefinition (l ++ [c]) ↔ IsDefinition l := by
  have hlast : Line.definitionMark.getLast? = some '_' := by decide
  unfold IsDefinition
  rw [List.prefix_concat_iff]
  refine ⟨fun h => h.resolve_left fun hm => ?_, Or.inr⟩
  rw [hm, List.getLast?_concat, Option.some.injEq] at hlast
  subst hlast
  exact absurd hc (by decide)

theorem afterMark_concat {l : Text} (h : IsDefinition l) (c : Char) :
    afterMark (l ++ [c]) = afterMark l ++ [c] :=
  List.drop_append_of_le_length h.length_le

theorem isMalformed_concat {c : Char} (hc : Text.isBlank c) {l : Text} :
    IsMalformed (l ++ [c]) ↔ IsMalformed l := by
  have hparen : '(' ≠ c := by
    rintro rfl
    exact absurd hc (by decide)
  unfold IsMalformed
  rw [isDefinition_concat hc]
  refine and_congr_right fun h => ?_
  rw [afterMark_concat h, List.mem_append, List.mem_singleton, or_iff_left hparen]

/-- Lines without definition say the same if they are the same when trimmed. -/
theorem Line.ofText_congr {l m : Text} (hl : ¬ IsDefinition l) (hm : ¬ IsDefinition m)
    (h : Text.trim l = Text.trim m) : ofText l = ofText m := by
  have hcomment : IsComment l ↔ IsComment m := by
    unfold IsComment
    rw [h]
  by_cases hc : IsComment l
  · rw [ofText_of_isComment hc, ofText_of_isComment (hcomment.1 hc)]
    unfold commentText
    rw [h]
  · rw [ofText_of_not hl hc, ofText_of_not hm (mt hcomment.2 hc)]

/-- A blank at the end of a line is no part of what the line says. -/
theorem Line.ofText_concat {c : Char} (hc : Text.isBlank c) (l : Text) :
    ofText (l ++ [c]) = ofText l := by
  have hdefinition := isDefinition_concat hc (l := l)
  by_cases hd : IsDefinition l
  · by_cases hm : IsMalformed l
    · rw [ofText_of_isMalformed hm, ofText_of_isMalformed ((isMalformed_concat hc).2 hm)]
    · have hparen : '(' ∈ afterMark l := Classical.byContradiction fun hn => hm ⟨hd, hn⟩
      rw [ofText_of_isDefinition hd hm,
        ofText_of_isDefinition (hdefinition.2 hd) (mt (isMalformed_concat hc).1 hm),
        afterMark_concat hd, Text.takeWhile_append_of_mem hparen]
  · exact ofText_congr (mt hdefinition.1 hd) hd (Text.trim_concat hc l)

/-- A carriage return before the newline is no part of what a line says. -/
theorem Line.ofText_dropFinal (l : Text) : ofText (Text.dropFinal '\r' l) = ofText l := by
  rcases Text.dropFinal_eq_or_eq_concat '\r' l with h | h
  · rw [h]
  · rw [← ofText_concat Text.isBlank_return, ← h]

theorem isComment_dropFinal {l : Text} : IsComment (Text.dropFinal '\r' l) ↔ IsComment l := by
  rcases Text.dropFinal_eq_or_eq_concat '\r' l with h | h
  · rw [h]
  · unfold IsComment
    rw [← Text.trim_concat Text.isBlank_return, ← h]

theorem isDefinition_dropFinal {l : Text} :
    IsDefinition (Text.dropFinal '\r' l) ↔ IsDefinition l := by
  rcases Text.dropFinal_eq_or_eq_concat '\r' l with h | h
  · rw [h]
  · rw [← isDefinition_concat Text.isBlank_return, ← h]

/-! ## Lines that say the same -/

theorem Scan.feedAll_congr {number : Nat} {s : Scan} {items others : List (Except File.Failure Text)}
    (h : items.map (Except.map Line.ofText) = others.map (Except.map Line.ofText)) :
    feedAll number items s = feedAll number others s := by
  induction items generalizing number s others with
  | nil =>
    cases others with
    | nil => rfl
    | cons other others => exact absurd h (by simp)
  | cons item items ih =>
    cases others with
    | nil => exact absurd h (by simp)
    | cons other others =>
      obtain ⟨hitem, hrest⟩ := List.cons.inj h
      cases item with
      | error cause =>
        cases other with
        | error cause' =>
          obtain rfl := Except.error.inj hitem
          rfl
        | ok m => exact absurd hitem (by simp [Except.map])
      | ok l =>
        cases other with
        | error cause => exact absurd hitem (by simp [Except.map])
        | ok m =>
          have hfeed : feed number l s = feed number m s := by
            unfold feed
            rw [Except.ok.inj hitem]
          cases hs : feed number m s with
          | ok u s₁ =>
            rw [feedAll_ok_of_feed_ok (hfeed.trans hs), feedAll_ok_of_feed_ok hs, ih hrest]
          | error e s₁ =>
            rw [feedAll_ok_of_feed_error (hfeed.trans hs), feedAll_ok_of_feed_error hs]

theorem scanItems_congr {items others : List (Except File.Failure Text)}
    (h : items.map (Except.map Line.ofText) = others.map (Except.map Line.ofText)) :
    scanItems items = scanItems others := by
  unfold scanItems
  rw [Scan.feedAll_congr h]

theorem scanLines_congr (h : ls.map Line.ofText = ms.map Line.ofText) :
    scanLines ls = scanLines ms := by
  have hitems : ∀ lines : List Text, (lines.map Except.ok).map (Except.map Line.ofText) =
      (lines.map Line.ofText).map (@Except.ok File.Failure Line) := by
    intro lines
    rw [List.map_map, List.map_map]
    rfl
  unfold scanLines
  refine scanItems_congr ?_
  rw [hitems, hitems, h]

/-! ## Lines without definition -/

theorem definitionIndices_eq_nil_iff : definitionIndices ls = [] ↔ ∀ l ∈ ls, ¬ IsDefinition l := by
  induction ls with
  | nil => exact ⟨fun _ l hl => absurd hl List.not_mem_nil, fun _ => rfl⟩
  | cons l ls ih =>
    rw [definitionIndices_cons, List.append_eq_nil_iff, List.map_eq_nil_iff, ih, List.forall_mem_cons]
    refine and_congr_left fun _ => ?_
    by_cases h : IsDefinition l
    · rw [if_pos h]
      exact ⟨fun hn => absurd hn (List.cons_ne_nil 0 []), fun hn => absurd h hn⟩
    · rw [if_neg h]
      exact ⟨fun _ => h, fun _ => rfl⟩

theorem outline_eq_nil {number : Nat} (h : ∀ l ∈ ls, ¬ IsDefinition l) : outline number ls = [] := by
  rw [outline_eq fun l hl hm => h l hl hm.1, definitionIndices_eq_nil_iff.2 h, List.map_nil]

theorem scanLines_eq_ok_nil_iff : scanLines ls = .ok [] ↔ ∀ l ∈ ls, ¬ IsDefinition l := by
  rw [scanLines_eq_ok_iff, eq_comm, List.map_eq_nil_iff, definitionIndices_eq_nil_iff]
  exact ⟨fun h => h.2, fun h => ⟨fun l hl hm => h l hl hm.1, h⟩⟩

theorem leadingComments_append (h : leadingComments ms = []) :
    leadingComments (ls ++ ms) = leadingComments ls := by
  induction ls with
  | nil => exact h
  | cons l ls ih =>
    rw [List.cons_append]
    unfold leadingComments
    rw [ih]

theorem outline_append {number : Nat} (hd : ∀ l ∈ ms, ¬ IsDefinition l)
    (hc : leadingComments ms = []) : outline number (ls ++ ms) = outline number ls := by
  induction ls generalizing number with
  | nil => exact outline_eq_nil hd
  | cons l ls ih =>
    rw [List.cons_append]
    unfold outline
    rw [leadingComments_append hc, ih]

theorem malformedAt?_append {number : Nat} (hd : ∀ l ∈ ms, ¬ IsDefinition l) :
    malformedAt? number (ls ++ ms) = malformedAt? number ls := by
  induction ls generalizing number with
  | nil => exact malformedAt?_eq_none_iff.2 fun l hl hm => hd l hl hm.1
  | cons l ls ih =>
    rw [List.cons_append]
    unfold malformedAt?
    rw [ih]

/-- **Lines without definition add nothing**, unless they go on with the comments of the last. -/
theorem scanLines_append (hd : ∀ l ∈ ms, ¬ IsDefinition l) (hc : ∀ l ∈ ms.head?, ¬ IsComment l) :
    scanLines (ls ++ ms) = scanLines ls := by
  have hleading : leadingComments ms = [] := by
    cases ms with
    | nil => rfl
    | cons m ms =>
      unfold leadingComments
      rw [Line.ofText_of_not (hd m List.mem_cons_self) (hc m rfl)]
  rw [scanLines_eq_outline, scanLines_eq_outline, malformedAt?_append hd, outline_append hd hleading]

/-! ## The text of a script -/

namespace Source

theorem readLines_append_newline (s t : Text) :
    readLines (s ++ '\n' :: t) = (Text.pieces s).map (Text.dropFinal '\r') ++ readLines t := by
  have hp := Text.pieces_append_newline s t
  have ht := Text.pieces_ne_nil t
  unfold readLines
  simp only [hp, List.dropLast_append_of_ne_nil ht, List.getLast_append_of_ne_nil _ ht,
    List.map_append, List.append_assoc]

/-- **More text without definition** leaves the commands of a script as they are: it begins on a
line of its own, whether or not the script ends in a newline. -/
theorem scanLines_readLines_append (s : Text) {t : Text} (hd : ∀ l ∈ readLines t, ¬ IsDefinition l)
    (hc : ∀ l ∈ (readLines t).head?, ¬ IsComment l) :
    scanLines (readLines (s ++ '\n' :: t)) = scanLines (readLines s) := by
  have hread : readLines s = (Text.pieces s).dropLast.map (Text.dropFinal '\r') ++
      [(Text.pieces s).getLast (Text.pieces_ne_nil s)].filter (· ≠ []) := rfl
  have hmap : (Text.pieces s).map (Text.dropFinal '\r') =
      (Text.pieces s).dropLast.map (Text.dropFinal '\r') ++
        [Text.dropFinal '\r' ((Text.pieces s).getLast (Text.pieces_ne_nil s))] := by
    rw [← List.map_singleton, ← List.map_append, List.dropLast_concat_getLast]
  rw [readLines_append_newline, hread, hmap]
  generalize (Text.pieces s).getLast (Text.pieces_ne_nil s) = last
  by_cases hl : last = []
  -- the newline makes an empty line of what follows the last newline of the script
  · subst hl
    rw [List.append_assoc, scanLines_append, List.filter_cons_of_neg (by simp), List.filter_nil,
      List.append_nil]
    · exact List.forall_mem_cons.2 ⟨by decide, hd⟩
    · intro l hfirst
      obtain rfl : [] = l := Option.some.inj hfirst
      decide
  · rw [scanLines_append hd hc, List.filter_cons_of_pos (by simpa using hl), List.filter_nil]
    refine scanLines_congr ?_
    rw [List.map_append, List.map_append, List.map_singleton, List.map_singleton,
      Line.ofText_dropFinal]

end Source

end ShellDispatch.Script
