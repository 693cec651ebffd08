import ShellDispatch.Proofs.Script.Blocks
import ShellDispatch.Proofs.Script.Run
import ShellDispatch.Proofs.Script.Source

/-!
# What a reader comes to

A reader of a source comes to one `Event` after the other: lines, and at the end perhaps a failure.
`Yields` describes the events by the way the bytes are cut, and `Source.events` computes them
(`yields_iff`). A line that is no text, a malformed definition and a failure each end a scan, with an
error of their own; the first of them decides, and a script without any has the commands of its
lines (`commands_firstOffence`).
-/

namespace ShellDispatch.Script

open Source (newline carriageReturn completeLines unfinishedLine decodeLine)
open Utf8 (encode)

/-- What a reader comes to. -/
inductive Event where
  /-- The bytes of a line, without the line ending. -/
  | line (bytes : Bytes)
  /-- A failure in place of more bytes. -/
  | failure (cause : File.Failure)
deriving DecidableEq, Repr

namespace Event

/-- The line of a text. -/
def ofText (t : Text) : Event := line (encode t)

/-- The event can be scanned: it is the line of a text, and no malformed definition. -/
def IsSound (event : Event) : Prop := ∃ t, event = ofText t ∧ ¬ IsMalformed t

/-- The event ends a scan with the error, if it has the given number. -/
inductive Offends (number : Nat) : Event → ScanError → Prop where
  | malformed {t : Text} (h : IsMalformed t) :
    Offends number (ofText t) (.malformedDefinition number)
  | unreadable {b : Bytes} (h : ∀ t, b ≠ encode t) :
    Offends number (line b) (.unreadable .notUtf8)
  | failed (cause : File.Failure) : Offends number (failure cause) (.unreadable cause)

/-- The event as the scan takes it. -/
def item : Event → Except File.Failure Text
  | line b => decodeLine b
  | failure cause => .error cause

variable {number : Nat} {event : Event} {e e' : ScanError}

theorem ofText_inj {s t : Text} : ofText s = ofText t ↔ s = t := by
  constructor
  · intro h
    have h := congrArg Utf8.decode (Event.line.inj h)
    rw [Utf8.decode_encode, Utf8.decode_encode] at h
    exact Option.some.inj h
  · rintro rfl
    rfl

theorem item_ofText (t : Text) : (ofText t).item = .ok t := by
  show decodeLine (encode t) = .ok t
  rw [decodeLine, Utf8.decode_encode]

theorem not_offends_of_isSound (h : event.IsSound) : ¬ event.Offends number e := by
  obtain ⟨t, ht, hm⟩ := h
  intro ho
  cases ho with
  | malformed h =>
    rw [ofText_inj.1 ht] at h
    exact hm h
  | unreadable h => exact h t (Event.line.inj ht)
  | failed cause => exact absurd ht (by simp [ofText])

theorem offends_unique (h : event.Offends number e) (h' : event.Offends number e') : e = e' := by
  cases h with
  | malformed hm =>
    generalize hx : ofText _ = x at h'
    cases h' with
    | malformed _ => rfl
    | unreadable hu => exact absurd (Event.line.inj hx).symm (hu _)
    | failed cause => exact absurd hx (by simp [ofText])
  | unreadable hu =>
    generalize hx : line _ = x at h'
    cases h' with
    | malformed _ => exact absurd (Event.line.inj hx) (hu _)
    | unreadable _ => rfl
    | failed cause => exact absurd hx (by simp)
  | failed cause =>
    cases h'
    rfl

end Event

/-! ## Events of a source -/

/-- The events that a reader comes to: a newline ends a line, together with a carriage return
directly before it. What follows the last newline is a line at the end of the input, unless it is
empty, and is lost if the input ends in a failure. -/
inductive Yields : Option File.Failure → Bytes → List Event → Prop where
  | finished : Yields none [] []
  | unfinished {b : Bytes} (hne : b ≠ []) (hb : newline ∉ b) : Yields none b [.line b]
  | failed {b : Bytes} (cause : File.Failure) (hb : newline ∉ b) :
    Yields (some cause) b [.failure cause]
  | complete {failure : Option File.Failure} {b rest : Bytes} {events : List Event}
    (hb : newline ∉ b) (hrest : Yields failure rest events) :
    Yields failure (b ++ newline :: rest) (.line (Text.dropFinal carriageReturn b) :: events)

namespace Source

variable {b : Bytes}

theorem completeLines_of_not_mem (h : newline ∉ b) : completeLines b = [] := by
  unfold completeLines
  rw [List.splitOn_eq_singleton h]
  rfl

theorem unfinishedLine_of_not_mem (h : newline ∉ b) : unfinishedLine b = b := by
  unfold unfinishedLine
  rw [List.splitOn_eq_singleton h]
  rfl

theorem completeLines_append (h : newline ∉ b) (rest : Bytes) :
    completeLines (b ++ newline :: rest) =
      Text.dropFinal carriageReturn b :: completeLines rest := by
  unfold completeLines
  rw [List.splitOn_append_cons_self_of_not_mem h,
    List.dropLast_cons_of_ne_nil (List.splitOn_ne_nil newline rest), List.map_cons]

theorem unfinishedLine_append (h : newline ∉ b) (rest : Bytes) :
    unfinishedLine (b ++ newline :: rest) = unfinishedLine rest := by
  unfold unfinishedLine
  rw [List.splitOn_append_cons_self_of_not_mem h, List.getLastD_cons]
  obtain ⟨l, ls, hl⟩ := List.exists_cons_of_ne_nil (List.splitOn_ne_nil newline rest)
  rw [hl, List.getLastD_cons, List.getLastD_cons]

/-- The event after the complete lines, if there is one. -/
def finalEvents (s : Source) : List Event :=
  match s.failure with
  | some cause => [.failure cause]
  | none => if unfinishedLine s.bytes = [] then [] else [.line (unfinishedLine s.bytes)]

/-- The events that a reader of the source comes to. -/
def events (s : Source) : List Event := (completeLines s.bytes).map .line ++ s.finalEvents

theorem items_eq_map_item (s : Source) : s.items = s.events.map Event.item := by
  have hfinal : s.ending = s.finalEvents.map Event.item := by
    unfold ending finalEvents
    cases s.failure with
    | some cause => rfl
    | none =>
      dsimp only
      split
      · rfl
      · rfl
  unfold items events
  rw [List.map_append, List.map_map, hfinal]
  rfl

theorem events_append (failure : Option File.Failure) (h : newline ∉ b) (rest : Bytes) :
    events ⟨b ++ newline :: rest, failure⟩ =
      .line (Text.dropFinal carriageReturn b) :: events ⟨rest, failure⟩ := by
  unfold events finalEvents
  rw [completeLines_append h, unfinishedLine_append h]
  rfl

theorem eq_events_of_yields {failure : Option File.Failure} {es : List Event}
    (h : Yields failure b es) : es = events ⟨b, failure⟩ := by
  induction h with
  | finished => rfl
  | unfinished hne hb =>
    unfold events finalEvents
    rw [completeLines_of_not_mem hb, unfinishedLine_of_not_mem hb]
    exact (if_neg hne).symm
  | failed cause hb =>
    unfold events
    rw [completeLines_of_not_mem hb]
    rfl
  | complete hb _ ih => rw [events_append _ hb, ih]

theorem exists_yields (failure : Option File.Failure) (b : Bytes) :
    ∃ es, Yields failure b es := by
  by_cases h : newline ∈ b
  · obtain ⟨l, rest, rfl, hl⟩ := List.eq_append_cons_of_mem h
    have hlt : rest.length < (l ++ newline :: rest).length := by
      rw [List.length_append, List.length_cons]
      omega
    obtain ⟨es, hes⟩ := exists_yields failure rest
    exact ⟨_, .complete hl hes⟩
  · cases failure with
    | some cause => exact ⟨_, .failed cause h⟩
    | none =>
      by_cases hb : b = []
      · subst hb
        exact ⟨_, .finished⟩
      · exact ⟨_, .unfinished hb h⟩
termination_by b.length

/-- A reader comes to exactly the events of the source. -/
theorem yields_iff {s : Source} {es : List Event} :
    Yields s.failure s.bytes es ↔ es = s.events := by
  constructor
  · exact eq_events_of_yields
  · rintro rfl
    obtain ⟨es, hes⟩ := exists_yields s.failure s.bytes
    exact eq_events_of_yields hes ▸ hes

end Source

/-- No line that a reader comes to has a newline in it. -/
theorem Yields.newline_not_mem {failure : Option File.Failure} {b bytes : Bytes} {es : List Event}
    (h : Yields failure b es) (hline : .line bytes ∈ es) : newline ∉ bytes := by
  induction h with
  | finished => exact absurd hline List.not_mem_nil
  | unfinished _ hb =>
    obtain rfl := Event.line.inj (List.mem_singleton.1 hline)
    exact hb
  | failed cause _ => exact absurd (List.mem_singleton.1 hline) (by simp)
  | complete hb _ ih =>
    rcases List.mem_cons.1 hline with hline | hline
    · obtain rfl := Event.line.inj hline
      intro hm
      exact hb (Text.mem_of_mem_dropFinal hm)
    · exact ih hline

/-! ## The event that decides -/

namespace Scan

variable {number : Nat} {s : Scan}

/-- **One event** is either sound, and the scan goes on, or ends it with its error. -/
theorem feedAll_event (number : Nat) (s : Scan) (event : Event) (rest : List Event) :
    (event.IsSound ∧ ∃ s₁, feedAll number ((event :: rest).map Event.item) s =
        feedAll (number + 1) (rest.map Event.item) s₁) ∨
      ∃ e, event.Offends number e ∧
        feedAll number ((event :: rest).map Event.item) s = .error e s := by
  rw [List.map_cons]
  cases event with
  | failure cause => exact Or.inr ⟨_, .failed cause, rfl⟩
  | line b =>
    cases hd : Utf8.decode b with
    | none =>
      have hitem : (Event.line b).item = .error .notUtf8 := by
        show decodeLine b = _
        rw [decodeLine, hd]
      refine Or.inr ⟨_, .unreadable fun t ht => ?_, by rw [hitem, feedAll_error]⟩
      rw [ht, Utf8.decode_encode] at hd
      exact absurd hd (by simp)
    | some t =>
      obtain rfl := Utf8.decode_eq_some_iff.1 hd
      show (Event.IsSound (.ofText t) ∧ _) ∨ ∃ e, Event.Offends number (.ofText t) e ∧ _
      rw [show (Event.line (encode t)).item = .ok t from Event.item_ofText t]
      by_cases hm : IsMalformed t
      · exact Or.inr ⟨_, .malformed hm, feedAll_ok_of_feed_error
          (feed_eq_of_malformed (Line.ofText_of_isMalformed hm) number s) _⟩
      · obtain ⟨s₁, hs₁⟩ := exists_feed_eq_ok hm number s
        exact Or.inl ⟨⟨t, rfl, hm⟩, s₁, feedAll_ok_of_feed_ok hs₁ _⟩

/-- A scan comes to its end only if every event is sound. -/
theorem isSound_of_feedAll {events : List Event} {s₁ : Scan}
    (h : feedAll number (events.map Event.item) s = .ok () s₁) : ∀ x ∈ events, x.IsSound := by
  induction events generalizing number s with
  | nil => exact fun x hx => absurd hx List.not_mem_nil
  | cons first rest ih =>
    rcases feedAll_event number s first rest with ⟨hsound, s₂, hs₂⟩ | ⟨e, -, he⟩
    · exact List.forall_mem_cons.2 ⟨hsound, ih (hs₂.symm.trans h)⟩
    · exact absurd (he.symm.trans h) (by simp)

/-- **The first event that offends** ends the scan with its error. -/
theorem feedAll_eq_error_iff (number : Nat) (s : Scan) (events : List Event) (e : ScanError) :
    (∃ s₁, feedAll number (events.map Event.item) s = .error e s₁) ↔
      ∃ before event after, events = before ++ event :: after ∧ (∀ x ∈ before, x.IsSound) ∧
        event.Offends (number + before.length) e := by
  induction events generalizing number s with
  | nil => simp
  | cons first rest ih =>
    rcases feedAll_event number s first rest with
      ⟨hsound, s₁, hs₁⟩ | ⟨e₁, hoffends, he₁⟩
    · rw [hs₁, ih]
      constructor
      · rintro ⟨before, event, after, rfl, hb, he⟩
        refine ⟨first :: before, event, after, rfl, List.forall_mem_cons.2 ⟨hsound, hb⟩, ?_⟩
        rwa [List.length_cons, Nat.add_comm before.length, ← Nat.add_assoc]
      · rintro ⟨before, event, after, h, hb, he⟩
        cases before with
        | nil =>
          obtain ⟨rfl, -⟩ := List.cons.inj h
          exact absurd he (Event.not_offends_of_isSound hsound)
        | cons x before =>
          obtain ⟨rfl, rfl⟩ := List.cons.inj h
          refine ⟨before, event, after, rfl, (List.forall_mem_cons.1 hb).2, ?_⟩
          rwa [List.length_cons, Nat.add_comm before.length, ← Nat.add_assoc] at he
    · rw [he₁]
      constructor
      · rintro ⟨s₁, hs₁⟩
        obtain ⟨rfl, -⟩ := EStateM.Result.error.inj hs₁
        exact ⟨[], first, rest, rfl, by simp, hoffends⟩
      · rintro ⟨before, event, after, h, hb, he⟩
        cases before with
        | nil =>
          obtain ⟨rfl, -⟩ := List.cons.inj h
          rw [Event.offends_unique hoffends he]
          exact ⟨s, rfl⟩
        | cons x before =>
          obtain ⟨rfl, -⟩ := List.cons.inj h
          exact absurd hoffends (Event.not_offends_of_isSound (List.forall_mem_cons.1 hb).1)

end Scan

namespace Source

theorem commands_eq_error_iff {s : Source} {e : ScanError} :
    s.commands = .error e ↔
      ∃ before event after, s.events = before ++ event :: after ∧ (∀ x ∈ before, x.IsSound) ∧
        event.Offends (before.length + 1) e := by
  have hrun := Scan.feedAll_eq_error_iff 1 {} s.events e
  simp only [Nat.add_comm 1] at hrun
  rw [← hrun]
  unfold commands scanItems
  rw [items_eq_map_item]
  cases Scan.feedAll 1 (s.events.map Event.item) {} with
  | ok u s₁ => simp
  | error e₁ s₁ => simp

theorem isSound_of_commands_eq_ok {s : Source} {commands : List Command}
    (h : s.commands = .ok commands) : ∀ x ∈ s.events, x.IsSound := by
  unfold Source.commands scanItems at h
  rw [items_eq_map_item] at h
  cases hs : Scan.feedAll 1 (s.events.map Event.item) {} with
  | ok u s₁ => exact Scan.isSound_of_feedAll hs
  | error e s₁ =>
    rw [hs] at h
    exact absurd h (by simp)

/-- A source with nothing but lines of texts has the commands of these lines. -/
theorem commands_of_events {s : Source} {lines : List Text} (h : s.events = lines.map .ofText) :
    s.commands = scanLines lines := by
  have hitem : Event.item ∘ Event.ofText = .ok := funext Event.item_ofText
  unfold commands scanLines
  rw [items_eq_map_item, h, List.map_map, hitem]

end Source

theorem Event.exists_eq_map_ofText {events : List Event} (h : ∀ x ∈ events, x.IsSound) :
    ∃ lines : List Text, events = lines.map .ofText := by
  induction events with
  | nil => exact ⟨[], rfl⟩
  | cons x events ih =>
    obtain ⟨⟨t, rfl, -⟩, hrest⟩ := List.forall_mem_cons.1 h
    obtain ⟨lines, rfl⟩ := ih hrest
    exact ⟨t :: lines, rfl⟩

theorem newline_not_mem_of_encode {t : Text} (h : newline ∉ encode t) : '\n' ∉ t := by
  intro hm
  exact h (List.mem_flatMap.2 ⟨'\n', hm, by decide⟩)

/-- A reader of a source with commands comes to the lines of a script, and to nothing else. -/
theorem Source.exists_yields_of_commands {s : Source} {commands : List Command}
    (h : s.commands = .ok commands) :
    ∃ lines : List Text, Yields s.failure s.bytes (lines.map .ofText) ∧ (∀ l ∈ lines, '\n' ∉ l) ∧
      scanLines lines = .ok commands := by
  obtain ⟨lines, hlines⟩ := Event.exists_eq_map_ofText (isSound_of_commands_eq_ok h)
  have hyields : Yields s.failure s.bytes (lines.map .ofText) := yields_iff.2 hlines.symm
  refine ⟨lines, hyields, ?_, (commands_of_events hlines).symm.trans h⟩
  intro l hl
  exact newline_not_mem_of_encode (hyields.newline_not_mem (List.mem_map.2 ⟨l, hl, rfl⟩))

/-- A source with commands is made up of texts without newline, the lines of a script. -/
theorem Source.exists_lines_of_commands {s : Source} {commands : List Command}
    (h : s.commands = .ok commands) :
    ∃ lines : List Text, (∀ l ∈ lines, '\n' ∉ l) ∧ scanLines lines = .ok commands := by
  obtain ⟨lines, -, hnewline, hscan⟩ := exists_yields_of_commands h
  exact ⟨lines, hnewline, hscan⟩

/-- The commands of an encoded text are those that its lines define. -/
theorem Source.commands_encode_eq_ok_iff {t : Text} {commands : List Command} :
    Source.commands { bytes := encode t } = .ok commands ↔
      (∀ line ∈ readLines t, ¬ IsMalformed line) ∧
        commands = (definitionIndices (readLines t)).map (commandAt (readLines t)) := by
  rw [commands_encode, scanLines_eq_ok_iff]

/-! ## Lines that are written -/

/-- How a line is ended. -/
inductive LineEnding where
  | newline
  /-- A carriage return and a newline. -/
  | returnNewline
deriving DecidableEq, Repr

/-- The characters that end a line. -/
def LineEnding.text : LineEnding → Text
  | newline => "\n"
  | returnNewline => "\r\n"

/-- Lines, each with the characters that end it. -/
def written (lines : List (Text × LineEnding)) : Text := lines.flatMap fun l => l.1 ++ l.2.text

/-- A line with the part of its ending that precedes the newline. -/
def LineEnding.upToNewline (t : Text) : LineEnding → Text
  | newline => t
  | returnNewline => t ++ ['\r']

theorem LineEnding.append_text (t : Text) (ending : LineEnding) :
    t ++ ending.text = Text.line (ending.upToNewline t) := by
  cases ending with
  | newline => rfl
  | returnNewline => exact (List.append_assoc t ['\r'] ['\n']).symm

theorem written_eq_unlines (lines : List (Text × LineEnding)) :
    written lines = Text.unlines (lines.map fun l => l.2.upToNewline l.1) := by
  unfold written Text.unlines
  simp only [List.flatMap_map, LineEnding.append_text]

/-- **Written lines are read back**, however each of them is ended. -/
theorem readLines_written {lines : List (Text × LineEnding)}
    (h : ∀ l ∈ lines, '\n' ∉ l.1 ∧ l.1.getLast? ≠ some '\r') :
    Source.readLines (written lines) = lines.map (·.1) := by
  rw [written_eq_unlines, Source.readLines_unlines, List.flatMap_map, List.map_flatMap]
  induction lines with
  | nil => rfl
  | cons l lines ih =>
    obtain ⟨⟨hnewline, hreturn⟩, h⟩ := List.forall_mem_cons.1 h
    rw [List.flatMap_cons, ih h, List.map_cons]
    cases l.2 with
    | newline =>
      show (Text.pieces l.1).map _ ++ _ = _
      rw [Text.pieces, List.splitOn_eq_singleton hnewline, List.map_singleton,
        Text.dropFinal_of_ne hreturn]
      rfl
    | returnNewline =>
      have hpiece : '\n' ∉ l.1 ++ ['\r'] := by simpa using hnewline
      show (Text.pieces (l.1 ++ ['\r'])).map _ ++ _ = _
      rw [Text.pieces, List.splitOn_eq_singleton hpiece, List.map_singleton,
        Text.dropFinal_append_self]
      rfl

/-! ## The commands of a source -/

/-- **The first offence decides.** A reader of a source comes to certain events; the error of the
source is that of the first which offends, with its number as the number of the line. If none does,
they are lines of texts, and the commands are those of the lines. In particular, lines that were
written to be read have the commands that they had before. -/
theorem commands_firstOffence :
    (∀ s : Source, ∃ events, (∀ es, Yields s.failure s.bytes es ↔ es = events) ∧
      (∀ e, s.commands = .error e ↔
        ∃ before event after, events = before ++ event :: after ∧ (∀ x ∈ before, x.IsSound) ∧
          event.Offends (before.length + 1) e) ∧
      ((∀ x ∈ events, x.IsSound) →
        ∃ lines, events = lines.map .ofText ∧ s.commands = scanLines lines)) ∧
    ∀ lines : List (Text × LineEnding), (∀ l ∈ lines, '\n' ∉ l.1 ∧ l.1.getLast? ≠ some '\r') →
      Source.commands { bytes := encode (written lines) } = scanLines (lines.map (·.1)) := by
  constructor
  · intro s
    refine ⟨s.events, fun es => Source.yields_iff, fun e => Source.commands_eq_error_iff, ?_⟩
    intro hsound
    obtain ⟨lines, hlines⟩ := Event.exists_eq_map_ofText hsound
    exact ⟨lines, hlines, Source.commands_of_events hlines⟩
  · intro lines h
    rw [Source.commands_encode, readLines_written h]

/-- Lines with different endings are read back. A malformed definition comes before the bytes that
are no text, and before the failure. -/
theorem commands_firstOffence_of_mixed :
    Source.commands { bytes := encode (written
        [("function cmd_a(".toList, .returnNewline), ("# o\rn".toList, .newline)]) } =
        .ok [⟨"a", "cmd_a", 1, "o\rn"⟩] ∧
      Source.commands { bytes := encode "\nfunction cmd_b\r\n" ++ [0xFF], failure := some .noRoom } =
        .error (.malformedDefinition 2) := by
  obtain ⟨hfirst, hwritten⟩ := commands_firstOffence
  constructor
  · rw [hwritten _ (by decide)]
    exact scanLines_eq_ok_iff.2 (by decide +kernel)
  · obtain ⟨events, hyields, herror, -⟩ :=
      hfirst ⟨encode "\nfunction cmd_b\r\n" ++ [0xFF], some .noRoom⟩
    have hevents : Yields (some .noRoom)
        ([] ++ newline :: (encode "function cmd_b\r" ++ newline :: [0xFF]))
        [.ofText [], .ofText "function cmd_b", .failure .noRoom] :=
      .complete (by decide) (.complete (by decide +kernel) (.failed _ (by decide)))
    obtain rfl := (hyields _).1 hevents
    have hsound : ∀ x ∈ [Event.ofText []], x.IsSound := by
      rw [List.forall_mem_singleton]
      exact ⟨[], rfl, by decide⟩
    exact (herror _).2 ⟨[.ofText []], .ofText "function cmd_b", [.failure .noRoom], rfl, hsound,
      .malformed (by decide)⟩

end ShellDispatch.Script
