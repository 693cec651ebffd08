import ShellDispatch.Query.Answer
import ShellDispatch.Proofs.Command.Listing

/-!
# Answers written in full

What an answer writes to a sink that takes any number of bytes. An answer that no name is needed for
is given whenever the rows can be aligned (`exists_writes_of_listing`). Otherwise there is one
exactly if some command has the name, and nothing is written without one (`writes_of_unknown`).
-/

namespace ShellDispatch

open Text (line unlines)

theorem Utf8.encode_inj {s t : Text} : Utf8.encode s = Utf8.encode t ↔ s = t := by
  refine ⟨fun h => ?_, fun h => h ▸ rfl⟩
  have h := congrArg Utf8.decode h
  rw [Utf8.decode_encode, Utf8.decode_encode] at h
  exact Option.some.inj h

namespace Answer

variable {commands : List Command} {name t : Text}

theorem printLine_unbounded (t : Text) (b : Bytes) :
    printLine t { taken := b } = .ok () { taken := b ++ Utf8.encode (line t) } := rfl

theorem printLines_unbounded (ts : List Text) (b : Bytes) :
    printLines ts { taken := b } = .ok () { taken := b ++ Utf8.encode (unlines ts) } := by
  induction ts generalizing b with
  | nil =>
    rw [Text.unlines_nil, Utf8.encode_nil, List.append_nil]
    rfl
  | cons t ts ih =>
    show printLines ts { taken := b ++ Utf8.encode (line t) } = _
    rw [ih, Text.unlines_cons, Utf8.encode_append, List.append_assoc]

/-- The end of an answer by which a text was written in full. -/
def written (t : Text) : EStateM.Result Error File.Sink Unit := .ok () { taken := Utf8.encode t }

theorem written_inj {s t : Text} : written s = written t ↔ s = t := by
  unfold written
  rw [EStateM.Result.ok.injEq, File.Sink.mk.injEq, Utf8.encode_inj]
  exact ⟨fun h => h.2.1, fun h => ⟨rfl, h, rfl⟩⟩

/-! ### Answers about one name -/

variable {c : Command}

theorem lookup_of_find?_eq_some (h : find? commands name = some c) :
    lookup commands name = printLine c.functionName := by
  unfold lookup
  rw [h]

theorem lookup_of_find?_eq_none (h : find? commands name = none) :
    lookup commands name = throw (.lookupMiss name) := by
  unfold lookup
  rw [h]

theorem help_of_find?_eq_some (h : find? commands name = some c) :
    help commands (.command name) = (do printLine c.documentation; printLine []) := by
  unfold help
  dsimp only
  rw [h]

theorem help_of_find?_eq_none (h : find? commands name = none) :
    help commands (.command name) = throw (.notFound name) := by
  unfold help
  dsimp only
  rw [h]

theorem lookup_eq_ok_iff :
    lookup commands name {} = written (line t) ↔
      (find? commands name).map (·.functionName) = some t := by
  cases h : find? commands name with
  | none =>
    rw [lookup_of_find?_eq_none h]
    exact ⟨nofun, nofun⟩
  | some c =>
    rw [lookup_of_find?_eq_some h]
    show written (line c.functionName) = _ ↔ _
    rw [written_inj, Option.map_some, Option.some.injEq]
    exact List.append_left_inj ['\n']

theorem lookup_eq_error_iff :
    lookup commands name {} = .error (.lookupMiss name) {} ↔ find? commands name = none := by
  cases h : find? commands name with
  | none =>
    rw [lookup_of_find?_eq_none h]
    exact ⟨fun _ => rfl, fun _ => rfl⟩
  | some c =>
    rw [lookup_of_find?_eq_some h]
    exact ⟨nofun, nofun⟩

/-- Help about a name writes the documentation of its command and an empty line. -/
theorem help_command_eq_ok_iff :
    help commands (.command name) {} = written (line t ++ line []) ↔
      (find? commands name).map (·.documentation) = some t := by
  cases h : find? commands name with
  | none =>
    rw [help_of_find?_eq_none h]
    exact ⟨nofun, nofun⟩
  | some c =>
    have hprint : (do printLine c.documentation; printLine [] : Printing Unit) {} =
        written (line c.documentation ++ line []) := by
      unfold written
      rw [Utf8.encode_append]
      rfl
    rw [help_of_find?_eq_some h, hprint, written_inj, List.append_left_inj, Option.map_some,
      Option.some.injEq]
    exact List.append_left_inj ['\n']

theorem help_command_eq_error_iff :
    help commands (.command name) {} = .error (.notFound name) {} ↔ find? commands name = none := by
  cases h : find? commands name with
  | none =>
    rw [help_of_find?_eq_none h]
    exact ⟨fun _ => rfl, fun _ => rfl⟩
  | some c =>
    rw [help_of_find?_eq_some h]
    exact ⟨nofun, nofun⟩

/-! ### What is written to any sink without a bound -/

section Writes

variable {ε α β : Type}

/-- The action adds the text to what a sink without a bound has taken, and ends so. -/
def Writes (x : EStateM ε File.Sink α) (t : Text) (ending : Except ε α) : Prop :=
  ∀ b : Bytes, x { taken := b } =
    match ending with
    | .ok a => .ok a { taken := b ++ Utf8.encode t }
    | .error e => .error e { taken := b ++ Utf8.encode t }

theorem writes_write (t : Text) : Writes (File.Sink.write t) t (.ok ()) := fun _ => rfl

theorem writes_printLine (t : Text) : Writes (printLine t) (line t) (.ok ()) :=
  printLine_unbounded t

theorem writes_printLines (ts : List Text) : Writes (printLines ts) (unlines ts) (.ok ()) :=
  printLines_unbounded ts

theorem writes_throw (e : ε) : Writes (throw e : EStateM ε File.Sink α) [] (.error e) := by
  intro b
  dsimp only
  rw [Utf8.encode_nil, List.append_nil]
  rfl

theorem writes_bind {x : EStateM ε File.Sink α} {f : α → EStateM ε File.Sink β} {s t : Text} {a : α}
    {ending : Except ε β} (hx : Writes x s (.ok a)) (hf : Writes (f a) t ending) :
    Writes (x >>= f) (s ++ t) ending := by
  intro b
  show EStateM.bind x f _ = _
  unfold EStateM.bind
  rw [hx b]
  dsimp only
  rw [hf, Utf8.encode_append, List.append_assoc]

end Writes

/-! ### The listing -/

/-- The listing of at least one command is its rows and an empty line. -/
theorem writes_listing {rows : List Text} (h : commands ≠ [])
    (hrows : Listing.rows commands = .ok rows) :
    Writes (listing commands) (unlines rows ++ line []) (.ok ()) := by
  unfold listing
  rw [if_neg h, hrows]
  exact writes_bind (writes_printLines rows) (writes_printLine [])

theorem help_listing_eq {rows : List Text} (h : commands ≠ [])
    (hrows : Listing.rows commands = .ok rows) :
    help commands .listing {} = written (unlines rows ++ line []) :=
  writes_listing h hrows []

theorem exists_writes_listing (commands : List Command) :
    ∃ t ending, Writes (listing commands) t ending ∧
      (Listing.CanAlign commands → ending = .ok ()) := by
  by_cases h : commands = []
  · unfold listing
    rw [if_pos h]
    exact ⟨_, _, writes_printLine emptyPicture, fun _ => rfl⟩
  · cases hrows : Listing.rows commands with
    | error cause =>
      unfold listing
      rw [if_neg h, hrows]
      refine ⟨_, _, writes_throw (Error.overflow cause), fun halign => ?_⟩
      obtain ⟨rows, hok⟩ := Listing.exists_rows_eq_ok_iff.2 halign
      exact absurd (hrows.symm.trans hok) nofun
    | ok rows => exact ⟨_, _, writes_listing h hrows, fun _ => rfl⟩

/-! ### Answers to queries -/

/-- The name that a query is about, unless it asks for the listing. -/
def asked? : Query → Option Text
  | .help .unspecified => none
  | .help .listing => none
  | .help (.command name) => some name
  | .lookup name => some name

/-- The error of a query whose name is unknown. -/
def unknown (name : Text) : Query → Error
  | .help _ => .notFound name
  | .lookup _ => .lookupMiss name

variable {query : Query}

theorem exists_writes_of_listing (commands : List Command) (h : asked? query = none) :
    ∃ t ending, Writes (write commands query) t ending ∧
      (Listing.CanAlign commands → ending = .ok ()) := by
  obtain ⟨t, ending, hwrites, hending⟩ := exists_writes_listing commands
  cases query with
  | lookup name => exact absurd h nofun
  | help target =>
    cases target with
    | unspecified => exact ⟨_, ending, writes_bind (writes_printLine instruction) hwrites, hending⟩
    | listing => exact ⟨t, ending, hwrites, hending⟩
    | command name => exact absurd h nofun

theorem exists_writes_of_known (h : asked? query = some name)
    (hc : find? commands name = some c) : ∃ t, Writes (write commands query) t (.ok ()) := by
  cases query with
  | lookup other =>
    obtain rfl := Option.some.inj h
    refine ⟨line c.functionName, ?_⟩
    show Writes (lookup commands other) _ _
    rw [lookup_of_find?_eq_some hc]
    exact writes_printLine c.functionName
  | help target =>
    cases target with
    | unspecified => exact absurd h nofun
    | listing => exact absurd h nofun
    | command other =>
      obtain rfl := Option.some.inj h
      refine ⟨line c.documentation ++ line [], ?_⟩
      show Writes (help commands (.command other)) _ _
      rw [help_of_find?_eq_some hc]
      exact writes_bind (writes_printLine c.documentation) (writes_printLine [])

/-- **An unknown name** is found out before anything is written. -/
theorem writes_of_unknown (h : asked? query = some name) (hnone : find? commands name = none) :
    Writes (write commands query) [] (.error (unknown name query)) := by
  cases query with
  | lookup other =>
    obtain rfl := Option.some.inj h
    show Writes (lookup commands other) _ _
    rw [lookup_of_find?_eq_none hnone]
    exact writes_throw _
  | help target =>
    cases target with
    | unspecified => exact absurd h nofun
    | listing => exact absurd h nofun
    | command other =>
      obtain rfl := Option.some.inj h
      show Writes (help commands (.command other)) _ _
      rw [help_of_find?_eq_none hnone]
      exact writes_throw _

theorem find?_eq_none_iff : find? commands name = none ↔ ∀ c ∈ commands, c.name ≠ name := by
  unfold find?
  rw [List.find?_eq_none]
  simp only [List.mem_reverse, decide_eq_true_eq]

/-- The command that a name stands for has the name, and none after it has. -/
theorem find?_eq_some_iff :
    find? commands name = some c ↔ c.name = name ∧
      ∃ before after, commands = before ++ c :: after ∧ ∀ d ∈ after, d.name ≠ name := by
  unfold find?
  rw [List.find?_eq_some_iff_append, decide_eq_true_eq]
  refine and_congr_right fun _ => ?_
  constructor
  · rintro ⟨after, before, hreverse, hafter⟩
    refine ⟨before.reverse, after.reverse, ?_, fun d hd => ?_⟩
    · rw [← List.reverse_reverse commands, hreverse, List.reverse_append, List.reverse_cons,
        List.append_assoc, List.singleton_append]
    · simpa using hafter d (List.mem_reverse.1 hd)
  · rintro ⟨before, after, rfl, hafter⟩
    refine ⟨after.reverse, before.reverse, ?_, fun d hd => ?_⟩
    · rw [List.reverse_append, List.reverse_cons, List.append_assoc, List.singleton_append]
    · simpa using hafter d (List.mem_reverse.1 hd)

end Answer

end ShellDispatch
