import ShellDispatch.Proofs.Shell.Quoting
import ShellDispatch.Text.Lines

/-!
# Reading a shell script by lines

A newline ends a line of a shell script only outside quotes, so a line may hold newlines of its own
in quoted words. `IsLine` describes the texts that are one line whatever follows them, `afterLine?`
finds a line by its text, and `readUntil` reads what stands from there on, item by item.
-/

namespace ShellDispatch.Shell

open Text (line unlines)

/-! ## Lines -/

/-- The text up to the first newline outside quotes, and what follows that newline. -/
def cutLine : Mode → Text → Text × Text
  | _, [] => ([], [])
  | m, c :: t =>
    if m = .bare ∧ c = '\n' then ([], t)
    else (c :: (cutLine (m.next c) t).1, (cutLine (m.next c) t).2)

/-- Every newline of the text is quoted, if the text is read in the given mode. -/
def Mode.encloses : Mode → Text → Bool
  | _, [] => true
  | m, c :: t => !(m = .bare && c = '\n') && (m.next c).encloses t

/-- The text is one line: it is quoted where it has a newline, and closes its quotes. -/
def IsLine (l : Text) : Prop := Mode.bare.encloses l ∧ Mode.bare.after l = .bare

instance : DecidablePred IsLine := fun l =>
  inferInstanceAs (Decidable (Mode.bare.encloses l ∧ Mode.bare.after l = .bare))

theorem Mode.encloses_append (m : Mode) (s t : Text) :
    m.encloses (s ++ t) = (m.encloses s && (m.after s).encloses t) := by
  induction s generalizing m with
  | nil => rfl
  | cons c s ih =>
    rw [List.cons_append, encloses, encloses, ih, after_cons, Bool.and_assoc]

theorem isLine_append {s t : Text} (hs : IsLine s) (ht : IsLine t) : IsLine (s ++ t) := by
  refine ⟨?_, ?_⟩
  · rw [Mode.encloses_append, hs.1, hs.2, ht.1]
    rfl
  · rw [Mode.after_append, hs.2, ht.2]

/-- Lines leave the shell where it was, outside quotes. -/
theorem after_unlines {ls : List Text} (h : ∀ l ∈ ls, IsLine l) :
    Mode.bare.after (unlines ls) = .bare := by
  induction ls with
  | nil => rfl
  | cons l ls ih =>
    obtain ⟨hl, hls⟩ := List.forall_mem_cons.1 h
    rw [Text.unlines_cons, line, Mode.after_append, Mode.after_append, hl.2]
    exact ih hls

theorem encloses_escape (t : Text) : Mode.single.encloses (escape t) := by
  induction t with
  | nil => rfl
  | cons c t ih =>
    rw [escape_cons, Mode.encloses_append, after_escapeChar, ih, Bool.and_true]
    by_cases hc : c = '\''
    · subst hc
      rfl
    · rw [escapeChar_of_ne hc]
      rfl

/-- A quoted word is part of one line, whatever it quotes. -/
theorem isLine_quote (t : Text) : IsLine (quote t) := by
  refine ⟨?_, after_quote t⟩
  show (Mode.single).encloses (escape t ++ ['\'']) = true
  rw [Mode.encloses_append, encloses_escape, after_escape]
  rfl

theorem cutLine_append {m : Mode} {l : Text} (hl : m.encloses l) (hm : m.after l = .bare)
    (t : Text) : cutLine m (l ++ '\n' :: t) = (l, t) := by
  induction l generalizing m with
  | nil =>
    obtain rfl : m = .bare := hm
    rfl
  | cons c l ih =>
    rw [Mode.encloses, Bool.and_eq_true] at hl
    have hc : ¬ (m = .bare ∧ c = '\n') := by
      rintro ⟨rfl, rfl⟩
      exact absurd hl.1 (by decide)
    rw [List.cons_append, cutLine, if_neg hc, ih hl.2 hm]

theorem cutLine_line_append {l : Text} (hl : IsLine l) (t : Text) :
    cutLine .bare (line l ++ t) = (l, t) := by
  rw [line, List.append_assoc]
  exact cutLine_append hl.1 hl.2 t

theorem length_cutLine_lt {m : Mode} {t : Text} (h : t ≠ []) :
    (cutLine m t).2.length < t.length := by
  induction t generalizing m with
  | nil => exact absurd rfl h
  | cons c t ih =>
    rw [cutLine]
    split
    · exact Nat.lt_succ_self t.length
    · by_cases ht : t = []
      · subst ht
        exact Nat.zero_lt_one
      · exact Nat.lt_succ_of_lt (ih ht)

/-! ## Finding a line -/

/-- What follows the first line with the text `l`. -/
def afterLine? (l : Text) : Text → Option Text
  | [] => none
  | c :: t =>
    if (cutLine .bare (c :: t)).1 = l then some (cutLine .bare (c :: t)).2
    else afterLine? l (cutLine .bare (c :: t)).2
termination_by t => t.length
decreasing_by exact length_cutLine_lt (List.cons_ne_nil c t)

theorem afterLine?_line_append {k : Text} (hk : IsLine k) (l t : Text) :
    afterLine? l (line k ++ t) = if k = l then some t else afterLine? l t := by
  obtain ⟨c, u, hu⟩ : ∃ c u, line k ++ t = c :: u :=
    List.exists_cons_of_ne_nil (by simp [line])
  rw [hu, afterLine?, ← hu, cutLine_line_append hk]

theorem afterLine?_unlines_of_not_mem {l : Text} {ls : List Text} (hls : ∀ k ∈ ls, IsLine k)
    (h : l ∉ ls) (t : Text) : afterLine? l (unlines ls ++ t) = afterLine? l t := by
  induction ls with
  | nil => rfl
  | cons k ls ih =>
    obtain ⟨hk, hls⟩ := List.forall_mem_cons.1 hls
    rw [List.mem_cons, not_or] at h
    rw [Text.unlines_cons, List.append_assoc, afterLine?_line_append hk, if_neg (Ne.symm h.1),
      ih hls h.2]

/-- The first line with the text `l` is found behind lines with other texts. -/
theorem afterLine?_unlines {l : Text} {ls : List Text} (hls : ∀ k ∈ ls, IsLine k) (h : l ∉ ls)
    (hl : IsLine l) (ms : List Text) : afterLine? l (unlines (ls ++ l :: ms)) = some (unlines ms) := by
  rw [Text.unlines_append, afterLine?_unlines_of_not_mem hls h, Text.unlines_cons,
    afterLine?_line_append hl, if_pos rfl]

/-! ## Reading items -/

section Items

variable {α β : Type} {stop : Text} {item : Text → Option (α × Text)}

/-- Reads items up to the text `stop`. What takes no character is no item. -/
def readUntil (stop : Text) (item : Text → Option (α × Text)) (t : Text) : Option (List α) :=
  match Text.rest? stop t with
  | some _ => some []
  | none =>
    match item t with
    | none => none
    | some (a, r) => if r.length < t.length then (readUntil stop item r).map (a :: ·) else none
termination_by t.length

theorem readUntil_stop (t : Text) : readUntil stop item (stop ++ t) = some [] := by
  rw [readUntil, Text.rest?_append]

theorem readUntil_item {s t : Text} {a : α} (hs : s ≠ []) (hstop : Text.rest? stop (s ++ t) = none)
    (h : item (s ++ t) = some (a, t)) :
    readUntil stop item (s ++ t) = (readUntil stop item t).map (a :: ·) := by
  have hlen : t.length < (s ++ t).length := by
    have := List.length_pos_iff.2 hs
    rw [List.length_append]
    omega
  rw [readUntil, hstop]
  dsimp only
  rw [h]
  dsimp only
  rw [if_pos hlen]

/-- **Items written one after the other are read back**, if each is read back whatever follows it
and none can be taken for the end. -/
theorem readUntil_flatMap_append {write : β → Text} {value : β → α} {bs : List β}
    (hne : ∀ b ∈ bs, write b ≠ []) (hstop : ∀ b ∈ bs, ∀ r, Text.rest? stop (write b ++ r) = none)
    (hitem : ∀ b ∈ bs, ∀ r, item (write b ++ r) = some (value b, r)) (t : Text) :
    readUntil stop item (bs.flatMap write ++ t) = (readUntil stop item t).map (bs.map value ++ ·) := by
  induction bs with
  | nil => exact Option.map_id'.symm
  | cons b bs ih =>
    have hb : b ∈ b :: bs := List.mem_cons_self
    have ih := ih (fun c hc => hne c (List.mem_cons_of_mem b hc))
      (fun c hc => hstop c (List.mem_cons_of_mem b hc))
      (fun c hc => hitem c (List.mem_cons_of_mem b hc))
    rw [List.flatMap_cons, List.append_assoc,
      readUntil_item (hne b hb) (hstop b hb _) (hitem b hb _), ih, Option.map_map]
    rfl

theorem readUntil_flatMap {write : β → Text} {value : β → α} {bs : List β}
    (hne : ∀ b ∈ bs, write b ≠ []) (hstop : ∀ b ∈ bs, ∀ r, Text.rest? stop (write b ++ r) = none)
    (hitem : ∀ b ∈ bs, ∀ r, item (write b ++ r) = some (value b, r)) (t : Text) :
    readUntil stop item (bs.flatMap write ++ (stop ++ t)) = some (bs.map value) := by
  rw [readUntil_flatMap_append hne hstop hitem, readUntil_stop, Option.map_some, List.append_nil]

end Items

end ShellDispatch.Shell
