import ShellDispatch.Proofs.Script.Line
import ShellDispatch.Proofs.Text.Pieces
import ShellDispatch.Script.Outline
import ShellDispatch.Script.Scan

/-!
# A scan finds the outline

The invariant of a scan: what the lines still to come make of it is decided by their outline and by
the comments with which they begin. Where these are documentation they go to the last command, and the
outline is appended (`feedAll_of_malformedAt?_eq_none`). A malformed line ends the scan at its
number, whatever the scan knows (`feedAll_of_malformedAt?_eq_some`). From the empty scan this is
`scanLines_eq_outline`.
-/

namespace ShellDispatch.Command

/-! ## Several lines of documentation -/

/-- A command with several more lines of documentation. -/
def addDocs (c : Command) (texts : List Text) : Command := texts.foldl addDoc c

@[simp] theorem addDocs_nil (c : Command) : c.addDocs [] = c := rfl

@[simp] theorem addDocs_cons (c : Command) (t : Text) (ts : List Text) :
    c.addDocs (t :: ts) = (c.addDoc t).addDocs ts := rfl

/-- Only the documentation of a command changes. -/
theorem addDocs_eq (c : Command) (texts : List Text) :
    c.addDocs texts = { c with documentation := (c.addDocs texts).documentation } := by
  induction texts generalizing c with
  | nil => rfl
  | cons t ts ih =>
    rw [addDocs_cons, ih (c.addDoc t)]
    rfl

/-- Once there is documentation, every further line gets a newline before it. -/
theorem documentation_addDocs_of_ne_nil {c : Command} (h : c.documentation ≠ []) (texts : List Text) :
    (c.addDocs texts).documentation = c.documentation ++ texts.flatMap ('\n' :: ·) := by
  induction texts generalizing c with
  | nil => simp
  | cons t ts ih =>
    have ht : (c.addDoc t).documentation = c.documentation ++ '\n' :: t := if_neg h
    rw [addDocs_cons, ih (by rw [ht]; simp), ht, List.flatMap_cons]
    simp

/-- A command without documentation gets that which the texts make up. -/
theorem documentation_addDocs_of_eq_nil {c : Command} (h : c.documentation = []) (texts : List Text) :
    (c.addDocs texts).documentation = Script.documentationOf texts := by
  induction texts generalizing c with
  | nil => exact h
  | cons t ts ih =>
    have ht : (c.addDoc t).documentation = t := if_pos h
    rw [addDocs_cons]
    unfold Script.documentationOf at ih ⊢
    by_cases hn : t = []
    · rw [List.dropWhile_cons_of_pos (by simpa using hn)]
      exact ih (ht.trans hn)
    · rw [List.dropWhile_cons_of_neg (by simpa using hn), Text.join_cons,
        documentation_addDocs_of_ne_nil (by rwa [ht]), ht]

theorem addDocs_define (raw : Text) (number : Nat) (texts : List Text) :
    (define raw number).addDocs texts =
      { define raw number with documentation := Script.documentationOf texts } := by
  rw [addDocs_eq, documentation_addDocs_of_eq_nil rfl]

end ShellDispatch.Command

namespace ShellDispatch.Script

/-! ## Documentation for the last command -/

/-- The commands with more lines of documentation for the last one. -/
def documentLast (texts : List Text) (commands : List Command) : List Command :=
  commands.dropLast ++ (commands.getLast?.map (·.addDocs texts)).toList

theorem documentLast_nil (commands : List Command) : documentLast [] commands = commands := by
  unfold documentLast
  rcases List.eq_nil_or_concat commands with rfl | ⟨before, c, rfl⟩
  · rfl
  · simp

theorem documentLast_concat (texts : List Text) (before : List Command) (c : Command) :
    documentLast texts (before ++ [c]) = before ++ [c.addDocs texts] := by
  unfold documentLast
  rw [List.dropLast_concat, List.getLast?_concat]
  rfl

theorem documentLast_cons (text : Text) (texts : List Text) (commands : List Command) :
    documentLast (text :: texts) commands = documentLast texts (documentLast [text] commands) := by
  rcases List.eq_nil_or_concat commands with rfl | ⟨before, c, rfl⟩
  · rfl
  · rw [List.concat_eq_append, documentLast_concat, documentLast_concat, documentLast_concat]
    rfl

/-! ## The lines still to come -/

namespace Scan

/-- The commands of a scan once the last of them has got the comments, if it can get any. -/
def commandsWith (s : Scan) (comments : List Text) : List Command :=
  if s.collecting then documentLast comments s.commands else s.commands

@[simp] theorem commandsWith_nil (s : Scan) : s.commandsWith [] = s.commands := by
  unfold commandsWith
  rw [documentLast_nil, ite_self]

@[simp] theorem commandsWith_close (s : Scan) (comments : List Text) :
    s.close.commandsWith comments = s.commands := rfl

theorem commandsWith_begin (s : Scan) (c : Command) (comments : List Text) :
    (s.begin c).commandsWith comments = s.commands ++ [c.addDocs comments] :=
  documentLast_concat comments s.commands c

theorem commands_addDoc (s : Scan) (text : Text) :
    (s.addDoc text).commands = documentLast [text] s.commands := by
  unfold addDoc documentLast
  cases h : s.commands.getLast? with
  | none =>
    rw [List.getLast?_eq_none_iff.1 h]
    rfl
  | some c => rfl

theorem commandsWith_document (s : Scan) (text : Text) (comments : List Text) :
    (s.document text).commandsWith comments = s.commandsWith (text :: comments) := by
  unfold document
  cases h : s.collecting with
  | false =>
    unfold commandsWith
    simp [h]
  | true =>
    unfold commandsWith
    rw [if_pos rfl, if_pos (by rw [collecting_addDoc, h]), if_pos h, commands_addDoc,
      ← documentLast_cons]

/-- **Well-formed lines** add their leading comments to the last command, where these are documentation,
and their outline to the commands. -/
theorem feedAll_of_malformedAt?_eq_none {number : Nat} {lines : List Text} {s : Scan}
    (h : malformedAt? number lines = none) :
    ∃ s₁, feedAll number (lines.map .ok) s = .ok () s₁ ∧
      s₁.commands = s.commandsWith (leadingComments lines) ++ outline number lines := by
  induction lines generalizing number s with
  | nil => exact ⟨s, rfl, by simp [leadingComments, outline]⟩
  | cons line rest ih =>
    unfold malformedAt? at h
    split at h
    · exact absurd h (by simp)
    rename_i hm
    rw [List.map_cons]
    cases hl : Line.ofText line with
    | malformed => exact absurd hl hm
    | definition raw =>
      obtain ⟨s₁, hs, hc⟩ := ih h (s := s.begin (.define raw number))
      refine ⟨s₁, ?_, ?_⟩
      · rw [feedAll_ok_of_feed_ok (feed_eq_of_definition hl number s), hs]
      · rw [hc, commandsWith_begin, Command.addDocs_define]
        simp [leadingComments, outline, hl]
    | comment text =>
      obtain ⟨s₁, hs, hc⟩ := ih h (s := s.document text)
      refine ⟨s₁, ?_, ?_⟩
      · rw [feedAll_ok_of_feed_ok (feed_eq_of_comment hl number s), hs]
      · rw [hc, commandsWith_document]
        simp [leadingComments, outline, hl]
    | other =>
      obtain ⟨s₁, hs, hc⟩ := ih h (s := s.close)
      refine ⟨s₁, ?_, ?_⟩
      · rw [feedAll_ok_of_feed_ok (feed_eq_of_other hl number s), hs]
      · rw [hc, commandsWith_close]
        simp [leadingComments, outline, hl]

/-- **The first malformed line** ends the scan, whatever is known before. -/
theorem feedAll_of_malformedAt?_eq_some {number k : Nat} {lines : List Text} {s : Scan}
    (h : malformedAt? number lines = some k) :
    ∃ s₁, feedAll number (lines.map .ok) s = .error (.malformedDefinition k) s₁ := by
  induction lines generalizing number s with
  | nil => exact absurd h (by simp [malformedAt?])
  | cons line rest ih =>
    unfold malformedAt? at h
    rw [List.map_cons]
    split at h
    · rename_i hm
      obtain rfl : number = k := Option.some.inj h
      exact ⟨s, feedAll_ok_of_feed_error (feed_eq_of_malformed hm number s) _⟩
    rename_i hm
    cases hl : Line.ofText line with
    | malformed => exact absurd hl hm
    | definition raw =>
      rw [feedAll_ok_of_feed_ok (feed_eq_of_definition hl number s)]
      exact ih h
    | comment text =>
      rw [feedAll_ok_of_feed_ok (feed_eq_of_comment hl number s)]
      exact ih h
    | other =>
      rw [feedAll_ok_of_feed_ok (feed_eq_of_other hl number s)]
      exact ih h

end Scan

/-- **A scan finds the outline**, or the first malformed line. -/
theorem scanLines_eq_outline (lines : List Text) :
    scanLines lines =
      match malformedAt? 1 lines with
      | some number => .error (.malformedDefinition number)
      | none => .ok (outline 1 lines) := by
  unfold scanLines scanItems
  cases h : malformedAt? 1 lines with
  | some number =>
    obtain ⟨s₁, hs⟩ := Scan.feedAll_of_malformedAt?_eq_some h (s := {})
    rw [hs]
  | none =>
    obtain ⟨s₁, hs, hc⟩ := Scan.feedAll_of_malformedAt?_eq_none h (s := {})
    rw [hs]
    exact congrArg Except.ok (hc.trans (by simp [Scan.commandsWith]))

end ShellDispatch.Script
