import ShellDispatch.Proofs.Query.Answer

/-!
# Answers cut off

An answer is written in many pieces, any of which may find the sink full. The pieces make no
difference: texts written one after the other are one text written at once (`write_append`), so every
answer is one text and a way to end (`exists_write_eq`). A sink without room for all of it keeps the
bytes that fit, wherever the cut falls, and the writing fails (`write_cutOff`).
-/

namespace ShellDispatch

open Text (line unlines)

namespace File.Sink

/-! ## Texts written at once -/

variable {t : Text} {b : Bytes} {k : Nat}

theorem write_of_le (h : (Utf8.encode t).length ≤ k) :
    write t { taken := b, room := some k } =
      .ok () { taken := b ++ Utf8.encode t, room := some (k - (Utf8.encode t).length) } := by
  unfold write
  exact if_pos h

theorem write_of_lt (h : k < (Utf8.encode t).length) :
    write t { taken := b, room := some k } =
      .error .noRoom { taken := b ++ (Utf8.encode t).take k, room := some 0 } := by
  unfold write
  exact if_neg (Nat.not_le.2 h)

theorem write_unbounded (t : Text) (b : Bytes) :
    write t { taken := b } = .ok () { taken := b ++ Utf8.encode t } := rfl

theorem write_nil : write [] = pure () := by
  funext ⟨b, room⟩
  cases room with
  | none =>
    rw [write_unbounded, Utf8.encode_nil, List.append_nil]
    rfl
  | some k =>
    rw [write_of_le (Nat.zero_le k), Utf8.encode_nil, List.append_nil]
    rfl

/-- **Two texts are one**, for every sink: the first one leaves less room for the second, and what is
cut off from the second is cut off from both. -/
theorem write_append (s t : Text) : write (s ++ t) = (do write s; write t) := by
  funext ⟨b, room⟩
  show _ = EStateM.bind (write s) (fun _ => write t) _
  unfold EStateM.bind
  cases room with
  | none =>
    rw [write_unbounded, write_unbounded]
    dsimp only
    rw [write_unbounded, Utf8.encode_append, List.append_assoc]
  | some k =>
    have hlength : (Utf8.encode (s ++ t)).length = (Utf8.encode s).length + (Utf8.encode t).length := by
      rw [Utf8.encode_append, List.length_append]
    by_cases hs : (Utf8.encode s).length ≤ k
    · rw [write_of_le hs]
      dsimp only
      by_cases ht : (Utf8.encode t).length ≤ k - (Utf8.encode s).length
      · rw [write_of_le ht, write_of_le (by omega), hlength, Utf8.encode_append, List.append_assoc,
          Nat.sub_sub]
      · rw [write_of_lt (by omega), write_of_lt (by omega), Utf8.encode_append, List.take_append,
          List.take_of_length_le hs, List.append_assoc]
    · rw [write_of_lt (by omega), write_of_lt (by omega), Utf8.encode_append,
        List.take_append_of_le_length (by omega)]

end File.Sink

namespace Answer

open File

/-- Writes a text. -/
def print (t : Text) : Printing Unit := (Sink.write t).adaptExcept .unwritten

/-- Ends without writing. -/
def finish : Except Error Unit → Printing Unit
  | .ok () => pure ()
  | .error e => throw e

/-- Writes a text and then ends so. -/
def printThen (t : Text) (ending : Except Error Unit) : Printing Unit := do
  print t
  finish ending

theorem adaptExcept_bind {ε ε' σ α β : Type} (f : ε → ε') (x : EStateM ε σ α) (g : α → EStateM ε σ β) :
    (x >>= g).adaptExcept f = x.adaptExcept f >>= fun a => (g a).adaptExcept f := by
  funext s
  show EStateM.adaptExcept f (EStateM.bind x g) s = EStateM.bind (x.adaptExcept f) _ s
  unfold EStateM.bind EStateM.adaptExcept
  dsimp only
  cases x s with
  | ok a s₁ => rfl
  | error e s₁ => rfl

theorem print_append (s t : Text) : print (s ++ t) = (do print s; print t) := by
  unfold print
  rw [Sink.write_append, adaptExcept_bind]

theorem print_nil : print [] = pure () := by
  unfold print
  rw [Sink.write_nil]
  rfl

theorem printLine_eq (t : Text) : printLine t = print (line t) := rfl

theorem printLines_eq (ts : List Text) : printLines ts = print (unlines ts) := by
  induction ts with
  | nil => exact print_nil.symm
  | cons t ts ih => rw [printLines, ih, printLine_eq, ← print_append, Text.unlines_cons]

theorem printThen_nil (ending : Except Error Unit) : printThen [] ending = finish ending := by
  unfold printThen
  rw [print_nil, pure_bind]

theorem printThen_ok (t : Text) : printThen t (.ok ()) = print t := bind_pure_unit

theorem print_printThen (s t : Text) (ending : Except Error Unit) :
    (do print s; printThen t ending) = printThen (s ++ t) ending := by
  unfold printThen
  rw [print_append, bind_assoc]

/-! ### Every answer is one text -/

/-- How an answer can end: completely, without a command of the name and then without a text, or
because the rows cannot be aligned. -/
inductive Ends (commands : List Command) : Text → Except Error Unit → Prop where
  | complete (t : Text) : Ends commands t (.ok ())
  | notFound (name : Text) : Ends commands [] (.error (.notFound name))
  | lookupMiss (name : Text) : Ends commands [] (.error (.lookupMiss name))
  | overflow (t : Text) (cause : Listing.Overflow) (h : ¬ Listing.CanAlign commands) :
    Ends commands t (.error (.overflow cause))

variable {commands : List Command} {t name : Text} {ending : Except Error Unit}

/-- An answer about an unknown name has no text. -/
theorem Ends.text_eq_nil (h : Ends commands t ending)
    (hname : ending = .error (.notFound name) ∨ ending = .error (.lookupMiss name)) : t = [] := by
  cases h with
  | complete => rcases hname with h | h <;> exact absurd h nofun
  | notFound => rfl
  | lookupMiss => rfl
  | overflow => rcases hname with h | h <;> exact absurd h nofun

theorem Ends.ne_overflow (h : Ends commands t ending) (halign : Listing.CanAlign commands)
    (cause : Listing.Overflow) : ending ≠ .error (.overflow cause) := by
  intro hending
  cases h with
  | complete => exact absurd hending nofun
  | notFound => exact absurd hending nofun
  | lookupMiss => exact absurd hending nofun
  | overflow _ _ h => exact h halign

theorem exists_listing_eq (commands : List Command) :
    ∃ t ending, listing commands = printThen t ending ∧ ∀ s, Ends commands (s ++ t) ending := by
  unfold listing
  by_cases h : commands = []
  · rw [if_pos h]
    exact ⟨_, _, (printThen_ok (line emptyPicture)).symm, fun s => .complete _⟩
  rw [if_neg h]
  cases hrows : Listing.rows commands with
  | error cause =>
    refine ⟨[], .error (.overflow cause), (printThen_nil (.error (.overflow cause))).symm,
      fun s => .overflow _ cause ?_⟩
    rw [← Listing.exists_rows_eq_ok_iff, hrows]
    exact nofun
  | ok rows =>
    refine ⟨unlines rows ++ line [], .ok (), ?_, fun s => .complete _⟩
    dsimp only
    rw [printThen_ok, print_append, printLines_eq, printLine_eq]

theorem exists_lookup_eq (commands : List Command) (name : Text) :
    ∃ t ending, lookup commands name = printThen t ending ∧ Ends commands t ending := by
  cases h : find? commands name with
  | none =>
    rw [lookup_of_find?_eq_none h]
    exact ⟨[], _, (printThen_nil (.error (.lookupMiss name))).symm, .lookupMiss name⟩
  | some c =>
    rw [lookup_of_find?_eq_some h, printLine_eq]
    exact ⟨_, _, (printThen_ok _).symm, .complete _⟩

theorem exists_help_eq (commands : List Command) (target : HelpTarget) :
    ∃ t ending, help commands target = printThen t ending ∧ Ends commands t ending := by
  cases target with
  | unspecified =>
    obtain ⟨t, ending, hlisting, hends⟩ := exists_listing_eq commands
    refine ⟨line instruction ++ t, ending, ?_, hends _⟩
    rw [help, hlisting, printLine_eq, print_printThen]
  | listing =>
    obtain ⟨t, ending, hlisting, hends⟩ := exists_listing_eq commands
    exact ⟨t, ending, hlisting, hends []⟩
  | command name =>
    cases h : find? commands name with
    | none =>
      rw [help_of_find?_eq_none h]
      exact ⟨[], _, (printThen_nil (.error (.notFound name))).symm, .notFound name⟩
    | some c =>
      rw [help_of_find?_eq_some h, printLine_eq, printLine_eq, ← print_append]
      exact ⟨_, _, (printThen_ok _).symm, .complete _⟩

/-- **Every answer is one text** and a way to end, whatever the sink. -/
theorem exists_write_eq (commands : List Command) (query : Query) :
    ∃ t ending, write commands query = printThen t ending ∧ Ends commands t ending := by
  cases query with
  | help target => exact exists_help_eq commands target
  | lookup name => exact exists_lookup_eq commands name

/-! ### One text in a sink -/

variable {s s₁ : Sink}

/-- An answer whose text was taken ends as it should. -/
theorem printThen_of_write_ok (h : Sink.write t s = .ok () s₁) (ending : Except Error Unit) :
    printThen t ending s = finish ending s₁ := by
  have hprint : print t s = .ok () s₁ := by
    unfold print EStateM.adaptExcept
    rw [h]
  show EStateM.bind (print t) _ s = _
  unfold EStateM.bind
  rw [hprint]

/-- An answer whose text was cut off ends for that reason, however it should end. -/
theorem printThen_of_write_error {cause : Failure} (h : Sink.write t s = .error cause s₁)
    (ending : Except Error Unit) : printThen t ending s = .error (.unwritten cause) s₁ := by
  have hprint : print t s = .error (.unwritten cause) s₁ := by
    unfold print EStateM.adaptExcept
    rw [h]
  show EStateM.bind (print t) _ s = _
  unfold EStateM.bind
  rw [hprint]

/-- **An answer is cut off cleanly.** Let `full` be the bytes of an answer that are taken where any
number of bytes is, and `ending` the way it ends there. A sink with enough room takes the same bytes,
and the answer ends the same way; any other takes as many of the first of them as it has room for, and
the answer ends because it cannot be written. An answer that ends because a name is unknown has no
bytes, so it ends so for every sink. -/
theorem write_cutOff (commands : List Command) (query : Query) :
    ∃ (full : Bytes) (ending : Except Error Unit),
      write commands query {} = finish ending { taken := full } ∧
      (∀ k, full.length ≤ k →
        write commands query { room := some k } =
          finish ending { taken := full, room := some (k - full.length) }) ∧
      (∀ k, k < full.length →
        write commands query { room := some k } =
          .error (.unwritten .noRoom) { taken := full.take k, room := some 0 }) ∧
      (∀ name, ending = .error (.notFound name) ∨ ending = .error (.lookupMiss name) →
        full = [] ∧
          ∀ k, write commands query { room := some k } = finish ending { room := some k }) ∧
      (Listing.CanAlign commands → ∀ cause, ending ≠ .error (.overflow cause)) := by
  obtain ⟨t, ending, hwrite, hends⟩ := exists_write_eq commands query
  rw [hwrite]
  refine ⟨Utf8.encode t, ending, printThen_of_write_ok (Sink.write_unbounded t []) ending,
    fun k h => printThen_of_write_ok (Sink.write_of_le h) ending,
    fun k h => printThen_of_write_error (Sink.write_of_lt h) ending, ?_,
    fun halign cause => hends.ne_overflow halign cause⟩
  intro name hname
  obtain rfl := hends.text_eq_nil hname
  refine ⟨rfl, fun k => ?_⟩
  rw [printThen_nil]

/-- The cut may fall within a character. -/
theorem write_cutOff_within_character :
    write [⟨"ä", "cmd_ä", 1, []⟩] (.lookup "ä") { room := some 5 } =
      .error (.unwritten .noRoom) { taken := [0x63, 0x6D, 0x64, 0x5F, 0xC3], room := some 0 } := by
  obtain ⟨full, ending, hfull, -, hcut, -⟩ := write_cutOff [⟨"ä", "cmd_ä", 1, []⟩] (.lookup "ä")
  have hbytes : write [⟨"ä", "cmd_ä", 1, []⟩] (.lookup "ä") {} =
      .ok () { taken := [0x63, 0x6D, 0x64, 0x5F, 0xC3, 0xA4, 0x0A] } := rfl
  rw [hbytes] at hfull
  cases ending with
  | error e => exact absurd hfull nofun
  | ok u =>
    obtain rfl := (File.Sink.mk.inj (EStateM.Result.ok.inj hfull).2).1
    exact hcut 5 (by decide)

end Answer

end ShellDispatch
