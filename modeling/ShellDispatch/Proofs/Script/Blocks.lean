import ShellDispatch.Proofs.Script.Outline

/-!
# A script as blocks of lines

Each definition, with the comments directly below it, is a block that makes up one command:
`commandAt` is the command of the definition at an index, read off the lines around it without
going through those before. `scanLines_blocks` says that the commands of a script are those of its
definitions in order, and that the only failure is the first definition without a parenthesis.
-/

namespace ShellDispatch.Script

/-- The indices of the definitions, in order. -/
def definitionIndices (lines : List Text) : List Nat :=
  (List.range lines.length).filter fun i => IsDefinition (lines.getD i [])

/-- The texts of the comments directly below the line at an index. -/
def commentsBelow (lines : List Text) (i : Nat) : List Text :=
  ((lines.drop (i + 1)).takeWhile fun line => IsComment line).map commentText

/-- The command of the definition at an index. -/
def commandAt (lines : List Text) (i : Nat) : Command where
  name := (identifier (lines.getD i [])).map fun c => if c = '_' then '-' else c
  functionName := "cmd_".toList ++ identifier (lines.getD i [])
  line := i + 1
  documentation := Text.join ((commentsBelow lines i).dropWhile (· = []))

theorem definitionIndices_cons (line : Text) (rest : List Text) :
    definitionIndices (line :: rest) =
      (if IsDefinition line then [0] else []) ++ (definitionIndices rest).map (· + 1) := by
  unfold definitionIndices
  rw [List.length_cons, List.range_succ_eq_map, List.filter_cons, List.filter_map]
  by_cases h : IsDefinition line
  · rw [if_pos h, if_pos (by simpa using h)]
    rfl
  · rw [if_neg h, if_neg (by simpa using h)]
    rfl

theorem definitionIndices_append (first second : List Text) :
    definitionIndices (first ++ second) =
      definitionIndices first ++ (definitionIndices second).map (· + first.length) := by
  induction first with
  | nil => simp [definitionIndices]
  | cons line first ih =>
    rw [List.cons_append, definitionIndices_cons, definitionIndices_cons, ih, List.map_append,
      List.map_map, List.append_assoc]
    rfl

theorem definitionIndices_append_cons {line : Text} (h : IsDefinition line)
    (before after : List Text) :
    definitionIndices (before ++ line :: after) = definitionIndices before ++
      before.length :: (definitionIndices after).map (· + (before.length + 1)) := by
  rw [definitionIndices_append, definitionIndices_cons, if_pos h, List.singleton_append,
    List.map_cons, List.map_map, Nat.zero_add]
  congr 2
  refine List.map_congr_left fun i _ => ?_
  show i + 1 + before.length = i + (before.length + 1)
  omega

theorem mem_definitionIndices {lines : List Text} {i : Nat} :
    i ∈ definitionIndices lines ↔ ∃ line, lines[i]? = some line ∧ IsDefinition line := by
  unfold definitionIndices
  rw [List.mem_filter, List.mem_range, decide_eq_true_eq, List.getD_eq_getElem?_getD]
  constructor
  · rintro ⟨hi, hd⟩
    rw [List.getElem?_eq_getElem hi] at hd
    exact ⟨lines[i], List.getElem?_eq_getElem hi, hd⟩
  · rintro ⟨line, hline, hd⟩
    obtain ⟨hi, -⟩ := List.getElem?_eq_some_iff.1 hline
    rw [hline]
    exact ⟨hi, hd⟩

/-- Both names of a command come from the line of its definition. -/
theorem names_commandAt {lines : List Text} {line : Text} {i : Nat} (h : lines[i]? = some line) :
    (commandAt lines i).name = (identifier line).map (fun c => if c = '_' then '-' else c) ∧
      (commandAt lines i).functionName = "cmd_".toList ++ identifier line := by
  have hline : lines.getD i [] = line := by
    rw [List.getD_eq_getElem?_getD, h]
    rfl
  unfold commandAt
  rw [hline]
  exact ⟨rfl, rfl⟩

/-! ## The outline read by index -/

theorem malformedAt?_eq_none_iff {number : Nat} {lines : List Text} :
    malformedAt? number lines = none ↔ ∀ line ∈ lines, ¬ IsMalformed line := by
  induction lines generalizing number with
  | nil => simp [malformedAt?]
  | cons line rest ih =>
    unfold malformedAt?
    rw [List.forall_mem_cons, ← Line.ofText_eq_malformed_iff]
    by_cases h : Line.ofText line = .malformed
    · simp [h]
    · rw [if_neg h, ih]
      simp [h]

theorem malformedAt?_eq_some_iff {number k : Nat} {lines : List Text} :
    malformedAt? number lines = some k ↔
      ∃ before line after, lines = before ++ line :: after ∧ (∀ l ∈ before, ¬ IsMalformed l) ∧
        IsMalformed line ∧ k = number + before.length := by
  induction lines generalizing number with
  | nil => simp [malformedAt?]
  | cons first rest ih =>
    unfold malformedAt?
    by_cases h : Line.ofText first = .malformed
    · rw [if_pos h, Option.some.injEq]
      have hm := Line.ofText_eq_malformed_iff.1 h
      constructor
      · rintro rfl
        exact ⟨[], first, rest, rfl, by simp, hm, rfl⟩
      · rintro ⟨before, line, after, he, hb, -, rfl⟩
        cases before with
        | nil => rfl
        | cons l before =>
          obtain ⟨rfl, -⟩ := List.cons.inj he
          exact absurd hm (hb _ List.mem_cons_self)
    · rw [if_neg h, ih]
      have hm : ¬ IsMalformed first := fun hm => h (Line.ofText_eq_malformed_iff.2 hm)
      constructor
      · rintro ⟨before, line, after, rfl, hb, hl, rfl⟩
        refine ⟨first :: before, line, after, rfl, List.forall_mem_cons.2 ⟨hm, hb⟩, hl, ?_⟩
        rw [List.length_cons]
        omega
      · rintro ⟨before, line, after, he, hb, hl, rfl⟩
        cases before with
        | nil =>
          obtain ⟨rfl, -⟩ := List.cons.inj he
          exact absurd hl hm
        | cons l before =>
          obtain ⟨rfl, rfl⟩ := List.cons.inj he
          refine ⟨before, line, after, rfl, (List.forall_mem_cons.1 hb).2, hl, ?_⟩
          rw [List.length_cons]
          omega

theorem leadingComments_eq {lines : List Text} (h : ∀ line ∈ lines, ¬ IsMalformed line) :
    leadingComments lines = (lines.takeWhile fun line => IsComment line).map commentText := by
  induction lines with
  | nil => rfl
  | cons line rest ih =>
    obtain ⟨hm, hr⟩ := List.forall_mem_cons.1 h
    unfold leadingComments
    by_cases hc : IsComment line
    · rw [Line.ofText_of_isComment hc, List.takeWhile_cons_of_pos (by simpa using hc), List.map_cons]
      exact congrArg _ (ih hr)
    · rw [List.takeWhile_cons_of_neg (by simpa using hc)]
      by_cases hd : IsDefinition line
      · rw [Line.ofText_of_isDefinition hd hm]
        rfl
      · rw [Line.ofText_of_not hd hc]
        rfl

/-- The outline lists the commands of the definitions, with the line numbers from `number` on. -/
theorem outline_eq {number : Nat} {lines : List Text} (h : ∀ line ∈ lines, ¬ IsMalformed line) :
    outline number lines =
      (definitionIndices lines).map fun i => { commandAt lines i with line := number + i } := by
  induction lines generalizing number with
  | nil => rfl
  | cons line rest ih =>
    obtain ⟨hm, hr⟩ := List.forall_mem_cons.1 h
    have hrest : outline (number + 1) rest =
        ((definitionIndices rest).map (· + 1)).map fun i =>
          { commandAt (line :: rest) i with line := number + i } := by
      rw [ih hr, List.map_map]
      refine List.map_congr_left fun i _ => ?_
      show _ = ({ commandAt rest i with line := number + (i + 1) } : Command)
      rw [show number + 1 + i = number + (i + 1) by omega]
    unfold outline
    rw [definitionIndices_cons, List.map_append, ← hrest]
    by_cases hd : IsDefinition line
    · rw [Line.ofText_of_isDefinition hd hm, if_pos hd, leadingComments_eq hr]
      rfl
    · rw [if_neg hd]
      by_cases hc : IsComment line
      · rw [Line.ofText_of_isComment hc]
        rfl
      · rw [Line.ofText_of_not hd hc]
        rfl

/-! ## The commands of a script -/

theorem scanLines_eq_ok_iff {lines : List Text} {commands : List Command} :
    scanLines lines = .ok commands ↔
      (∀ line ∈ lines, ¬ IsMalformed line) ∧
        commands = (definitionIndices lines).map (commandAt lines) := by
  have hnone : malformedAt? 1 lines = none ↔ ∀ line ∈ lines, ¬ IsMalformed line :=
    malformedAt?_eq_none_iff
  rw [scanLines_eq_outline, ← hnone]
  cases h : malformedAt? 1 lines with
  | some number => simp
  | none =>
    have hc : outline 1 lines = (definitionIndices lines).map (commandAt lines) := by
      rw [outline_eq (malformedAt?_eq_none_iff.1 h)]
      refine List.map_congr_left fun i _ => ?_
      rw [Nat.add_comm]
      rfl
    simp [hc, eq_comm]

theorem scanLines_eq_error_iff {lines : List Text} {e : ScanError} :
    scanLines lines = .error e ↔
      ∃ before line after, lines = before ++ line :: after ∧ (∀ l ∈ before, ¬ IsMalformed l) ∧
        IsMalformed line ∧ e = .malformedDefinition (before.length + 1) := by
  rw [scanLines_eq_outline]
  cases h : malformedAt? 1 lines with
  | none =>
    have hn := malformedAt?_eq_none_iff.1 h
    constructor
    · intro he
      exact absurd he (by simp)
    · rintro ⟨before, line, after, rfl, -, hl, -⟩
      exact absurd hl (hn line (by simp))
  | some number =>
    obtain ⟨before, line, after, hlines, hb, hl, rfl⟩ := malformedAt?_eq_some_iff.1 h
    constructor
    · intro he
      refine ⟨before, line, after, hlines, hb, hl, ?_⟩
      rw [Nat.add_comm]
      exact (Except.error.inj he).symm
    · rintro ⟨before', line', after', hlines', hb', hl', rfl⟩
      have h' : malformedAt? 1 lines = some (1 + before'.length) :=
        malformedAt?_eq_some_iff.2 ⟨before', line', after', hlines', hb', hl', rfl⟩
      have hk : 1 + before.length = 1 + before'.length := Option.some.inj (h.symm.trans h')
      rw [hk, Nat.add_comm]

/-- **The commands of a script.** A scan fails exactly if a definition is malformed, at the first
such line; else it finds one command for each definition, in order, as its block describes it. -/
theorem scanLines_blocks (lines : List Text) :
    ((∃ e, scanLines lines = .error e) ↔ ∃ line ∈ lines, IsMalformed line) ∧
    (∀ e, scanLines lines = .error e ↔
      ∃ before line after, lines = before ++ line :: after ∧ (∀ l ∈ before, ¬ IsMalformed l) ∧
        IsMalformed line ∧ e = .malformedDefinition (before.length + 1)) ∧
    ∀ commands, scanLines lines = .ok commands ↔
      (∀ line ∈ lines, ¬ IsMalformed line) ∧
        commands = (definitionIndices lines).map (commandAt lines) := by
  refine ⟨?_, fun e => scanLines_eq_error_iff, fun commands => scanLines_eq_ok_iff⟩
  constructor
  · rintro ⟨e, he⟩
    obtain ⟨before, line, after, rfl, -, hl, -⟩ := scanLines_eq_error_iff.1 he
    exact ⟨line, by simp, hl⟩
  · rintro ⟨line, hline, hl⟩
    cases hs : scanLines lines with
    | error e => exact ⟨e, rfl⟩
    | ok commands => exact absurd hl ((scanLines_eq_ok_iff.1 hs).1 line hline)

end ShellDispatch.Script
