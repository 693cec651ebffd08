import ShellDispatch.Proofs.Query.Answer
import ShellDispatch.Proofs.Script.Commands
import ShellDispatch.Proofs.Script.Growth

/-!
# Functions looked up in a script

From the lines of a script to the function behind a name, without the commands between them: it is
that of the last definition whose identifier reads as the name (`lookup_scanLines`). Identifiers that
differ in hyphens and underscores read as one name, so the function cannot be told from the name
alone. A name that no identifier reads as is looked up in vain.
-/

namespace ShellDispatch

namespace Script

variable {lines : List Text} {l name : Text} {commands : List Command}

/-! ## Lines that define a name -/

/-- The line is a definition whose identifier reads as the name: with hyphens for underscores. -/
def Defines (line name : Text) : Prop :=
  IsDefinition line ∧ (identifier line).map (fun c => if c = '_' then '-' else c) = name

instance : Decidable (Defines l name) :=
  inferInstanceAs (Decidable (IsDefinition l ∧
    (identifier l).map (fun c => if c = '_' then '-' else c) = name))

/-- The last line that defines the name is this one, with this number. -/
def DefinesLast (lines : List Text) (name : Text) (number : Nat) (line : Text) : Prop :=
  ∃ before after, lines = before ++ line :: after ∧ Defines line name ∧
    (∀ l ∈ after, ¬ Defines l name) ∧ number = before.length + 1

/-- Hyphens and underscores are no blanks. -/
theorem isBlank_hyphenated (c : Char) :
    Text.isBlank (if c = '_' then '-' else c) = Text.isBlank c := by
  split
  · rename_i h
    rw [h]
    rfl
  · rfl

/-- A name that a line defines has neither underscores nor parentheses, nor blanks around it. -/
theorem Defines.shape (h : Defines l name) : '_' ∉ name ∧ '(' ∉ name ∧
    (∀ c ∈ name.head?, ¬ Text.isBlank c) ∧ ∀ c ∈ name.getLast?, ¬ Text.isBlank c := by
  obtain ⟨-, rfl⟩ := h
  refine ⟨?_, ?_, ?_, ?_⟩
  · intro hmem
    rcases Command.eq_or_mem_of_mem_nameOf hmem with heq | ⟨hne, -⟩
    · exact absurd heq (by decide)
    · exact hne rfl
  · intro hmem
    rcases Command.eq_or_mem_of_mem_nameOf hmem with heq | ⟨-, hmem⟩
    · exact absurd heq (by decide)
    · exact parenthesis_not_mem_identifier l hmem
  · intro c hc
    rw [List.head?_map] at hc
    obtain ⟨d, hd, rfl⟩ := Option.map_eq_some_iff.1 hc
    rw [isBlank_hyphenated, Text.isBlank_of_head?_trim hd]
    exact Bool.false_ne_true
  · intro c hc
    rw [List.getLast?_map] at hc
    obtain ⟨d, hd, rfl⟩ := Option.map_eq_some_iff.1 hc
    rw [isBlank_hyphenated, Text.isBlank_of_getLast?_trim hd]
    exact Bool.false_ne_true

/-! ## Names of commands -/

/-- Commands have the names that lines define. -/
theorem exists_name_eq_iff (h : scanLines lines = .ok commands) :
    (∃ c ∈ commands, c.name = name) ↔ ∃ l ∈ lines, Defines l name := by
  obtain ⟨-, rfl⟩ := scanLines_eq_ok_iff.1 h
  constructor
  · rintro ⟨c, hc, hname⟩
    obtain ⟨i, hi, rfl⟩ := List.mem_map.1 hc
    obtain ⟨l, hl, hd⟩ := mem_definitionIndices.1 hi
    exact ⟨l, List.mem_of_getElem? hl, hd, (names_commandAt hl).1.symm.trans hname⟩
  · rintro ⟨l, hmem, hd, hname⟩
    obtain ⟨i, hl⟩ := List.getElem?_of_mem hmem
    exact ⟨commandAt lines i, List.mem_map_of_mem (mem_definitionIndices.2 ⟨l, hl, hd⟩),
      (names_commandAt hl).1.trans hname⟩

/-- A name that no line defines stands for nothing. -/
theorem find?_eq_none_iff_of_scanLines (h : scanLines lines = .ok commands) :
    Answer.find? commands name = none ↔ ∀ l ∈ lines, ¬ Defines l name := by
  rw [Answer.find?_eq_none_iff]
  constructor
  · intro hnames l hl hdefines
    obtain ⟨c, hc, hname⟩ := (exists_name_eq_iff h).2 ⟨l, hl, hdefines⟩
    exact hnames c hc hname
  · intro hlines c hc hname
    obtain ⟨l, hl, hdefines⟩ := (exists_name_eq_iff h).1 ⟨c, hc, hname⟩
    exact hlines l hl hdefines

/-- **A name stands for the command of its last definition.** -/
theorem find?_of_definesLast {number : Nat} (h : scanLines lines = .ok commands)
    (hlast : DefinesLast lines name number l) :
    ∃ c, Answer.find? commands name = some c ∧ c.functionName = "cmd_".toList ++ identifier l ∧
      c.line = number := by
  obtain ⟨-, rfl⟩ := scanLines_eq_ok_iff.1 h
  obtain ⟨before, after, rfl, ⟨hd, hname⟩, hafter, rfl⟩ := hlast
  have hl : (before ++ l :: after)[before.length]? = some l := by simp
  obtain ⟨hcommand, hfunction⟩ := names_commandAt hl
  refine ⟨commandAt (before ++ l :: after) before.length, ?_, hfunction, rfl⟩
  rw [definitionIndices_append_cons hd, List.map_append, List.map_cons]
  refine Answer.find?_eq_some_iff.2 ⟨hcommand.trans hname, _, _, rfl, ?_⟩
  rw [List.map_map, List.forall_mem_map]
  -- a command further down comes from a line further down, which does not define the name
  intro i hi hsame
  obtain ⟨m, hm, hdm⟩ := mem_definitionIndices.1 hi
  have hline : (before ++ l :: after)[i + (before.length + 1)]? = some m := by
    rw [List.append_cons, List.getElem?_append_right (by simp)]
    simpa using hm
  exact hafter m (List.mem_of_getElem? hm) ⟨hdm, (names_commandAt hline).1.symm.trans hsame⟩

end Script

namespace Answer

open Script

/-! ## Functions behind names -/

variable {commands : List Command} {name : Text}

theorem exists_writes_lookup_iff :
    (∃ t, Writes (lookup commands name) t (.ok ())) ↔ ∃ c, find? commands name = some c := by
  cases h : find? commands name with
  | none =>
    rw [lookup_of_find?_eq_none h]
    constructor
    · rintro ⟨t, hwrites⟩
      exact absurd (hwrites []) nofun
    · rintro ⟨c, hc⟩
      exact absurd hc nofun
  | some c =>
    rw [lookup_of_find?_eq_some h]
    exact ⟨fun _ => ⟨c, rfl⟩, fun _ => ⟨_, writes_printLine c.functionName⟩⟩

/-- Of the commands with one name, the one that the name stands for is defined furthest down. -/
theorem line_le_of_find?_eq_some {c d : Command} (hlines : (commands.map (·.line)).Pairwise (· < ·))
    (hc : find? commands name = some c) (hd : d ∈ commands) (hname : d.name = name) :
    d.line ≤ c.line := by
  obtain ⟨-, before, after, rfl, hafter⟩ := find?_eq_some_iff.1 hc
  rw [List.map_append, List.pairwise_append] at hlines
  rcases List.mem_append.1 hd with hd | hd
  · exact Nat.le_of_lt (hlines.2.2 _ (List.mem_map_of_mem hd) _ (by simp))
  · rcases List.mem_cons.1 hd with rfl | hd
    · exact Nat.le_refl _
    · exact absurd hname (hafter d hd)

/-- **The function behind a name** is that of the last definition in the script whose identifier reads
as the name, and its command has the number of that line. If there is no such definition, nothing is
written; in particular for names that cannot be read off an identifier. -/
theorem lookup_scanLines {lines : List Text} (h : scanLines lines = .ok commands) (name : Text) :
    ((∃ t, Writes (lookup commands name) t (.ok ())) ↔ ∃ l ∈ lines, Defines l name) ∧
    (∀ number l, DefinesLast lines name number l →
      Writes (lookup commands name) (Text.line ("cmd_".toList ++ identifier l)) (.ok ()) ∧
      ∃ c, find? commands name = some c ∧ c.line = number ∧
        ∀ d ∈ commands, d.name = name → d.line ≤ number) ∧
    ((∀ l ∈ lines, ¬ Defines l name) →
      ∀ s, lookup commands name s = .error (.lookupMiss name) s) ∧
    ('_' ∈ name ∨ '(' ∈ name ∨ (∃ c ∈ name.head?, Text.isBlank c) ∨
        (∃ c ∈ name.getLast?, Text.isBlank c) →
      ∀ s, lookup commands name s = .error (.lookupMiss name) s) := by
  have hmiss : (∀ l ∈ lines, ¬ Defines l name) →
      ∀ s, lookup commands name s = .error (.lookupMiss name) s := by
    intro hlines s
    rw [lookup_of_find?_eq_none ((find?_eq_none_iff_of_scanLines h).2 hlines)]
    rfl
  refine ⟨?_, ?_, hmiss, ?_⟩
  · rw [exists_writes_lookup_iff, ← Option.ne_none_iff_exists', Ne, find?_eq_none_iff_of_scanLines h]
    simp only [not_forall, not_not, exists_prop]
  · intro number l hlast
    obtain ⟨c, hfind, hfunction, rfl⟩ := find?_of_definesLast h hlast
    have hlines := line_lt_line_of_scanLines h
    rw [lookup_of_find?_eq_some hfind, ← hfunction]
    exact ⟨writes_printLine c.functionName, c, hfind, rfl,
      fun d hd => line_le_of_find?_eq_some hlines hfind hd⟩
  · intro hshape
    refine hmiss fun l _ hdefines => ?_
    obtain ⟨hunderscore, hparenthesis, hfirst, hfinal⟩ := hdefines.shape
    rcases hshape with hmem | hmem | ⟨c, hc, hblank⟩ | ⟨c, hc, hblank⟩
    · exact hunderscore hmem
    · exact hparenthesis hmem
    · exact hfirst c hc hblank
    · exact hfinal c hc hblank

/-- Two functions may share a name; the one that is spelled like the name comes first here, and the
other one is found. -/
theorem lookup_scanLines_of_shared_name :
    Writes (lookup [⟨"a-b", "cmd_a-b", 1, "one"⟩, ⟨"c", "cmd_c", 3, []⟩, ⟨"a-b", "cmd_a_b", 4, []⟩]
        "a-b") "cmd_a_b\n" (.ok ()) ∧
      ∀ s, lookup [⟨"a-b", "cmd_a-b", 1, "one"⟩, ⟨"c", "cmd_c", 3, []⟩, ⟨"a-b", "cmd_a_b", 4, []⟩]
        "a_b" s = .error (.lookupMiss "a_b") s := by
  have hscan : scanLines ["function cmd_a-b(".toList, "# one".toList, "function cmd_c(".toList,
      "function cmd_a_b (".toList, "\x7d".toList] =
        .ok [⟨"a-b", "cmd_a-b", 1, "one"⟩, ⟨"c", "cmd_c", 3, []⟩, ⟨"a-b", "cmd_a_b", 4, []⟩] :=
    scanLines_eq_ok_iff.2 (by decide +kernel)
  have hlast : DefinesLast ["function cmd_a-b(".toList, "# one".toList, "function cmd_c(".toList,
      "function cmd_a_b (".toList, "\x7d".toList] "a-b" 4 "function cmd_a_b (" :=
    ⟨["function cmd_a-b(".toList, "# one".toList, "function cmd_c(".toList], ["\x7d".toList], rfl,
      by decide, by decide, rfl⟩
  constructor
  · exact ((lookup_scanLines hscan "a-b").2.1 _ _ hlast).1
  · exact (lookup_scanLines hscan "a_b").2.2.2 (Or.inl (by decide))

end Answer

end ShellDispatch
