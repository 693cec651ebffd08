import ShellDispatch.Text.Lines

/-!
# Texts cut at their newlines

How `pieces` goes with the operations that put texts together. A newline between two texts separates
their pieces (`pieces_append_newline`), so the pieces of lines are those of each line, and an empty
one at the end (`pieces_unlines`). Written as lines, the pieces of a text are the text again
(`unlines_pieces`).
-/

namespace ShellDispatch.Text

/-- Cutting a list at `a` after a part without `a` extends the first piece by that part. -/
theorem splitOn_append_of_not_mem {α : Type} [BEq α] [LawfulBEq α] {a : α} {s : List α} (h : a ∉ s)
    (t : List α) : (s ++ t).splitOn a = (t.splitOn a).modifyHead (s ++ ·) := by
  induction s with
  | nil =>
    rw [List.nil_append]
    cases t.splitOn a <;> rfl
  | cons b s ih =>
    have hb : (b == a) = false := beq_eq_false_iff_ne.2 fun hb => h (hb ▸ List.mem_cons_self)
    have hs : a ∉ s := fun hs => h (List.mem_cons_of_mem b hs)
    rw [List.cons_append, List.splitOn_cons_eq_if_modifyHead, hb, ih hs]
    cases t.splitOn a <;> rfl

theorem mem_of_mem_dropFinal {α : Type} [DecidableEq α] {a b : α} {l : List α}
    (h : b ∈ dropFinal a l) : b ∈ l := by
  unfold dropFinal at h
  split at h
  · exact (List.dropLast_sublist l).subset h
  · exact h

theorem dropFinal_eq_or_eq_concat {α : Type} [DecidableEq α] (a : α) (l : List α) :
    dropFinal a l = l ∨ l = dropFinal a l ++ [a] := by
  by_cases h : l.getLast? = some a
  · obtain ⟨k, rfl⟩ := List.getLast?_eq_some_iff.1 h
    rw [dropFinal_append_self]
    exact Or.inr rfl
  · exact Or.inl (dropFinal_of_ne h)

theorem newline_not_mem_firstLine (t : Text) : '\n' ∉ firstLine t := by
  unfold firstLine
  split
  · intro hm
    have hall := List.all_eq_true.1 (List.all_takeWhile (p := fun c => decide (c ≠ '\n')) (l := t))
    exact absurd rfl (of_decide_eq_true (hall _ (mem_of_mem_dropFinal hm)))
  · rename_i h
    exact h

/-! ## Pieces -/

theorem pieces_ne_nil (t : Text) : pieces t ≠ [] := List.splitOn_ne_nil '\n' t

theorem pieces_cons_newline (t : Text) : pieces ('\n' :: t) = [] :: pieces t :=
  List.splitOn_append_cons_self [] t

theorem pieces_cons_of_ne {c : Char} (h : c ≠ '\n') (t : Text) :
    pieces (c :: t) = (pieces t).modifyHead (c :: ·) :=
  splitOn_append_of_not_mem (s := [c]) (fun hc => h (List.mem_singleton.1 hc).symm) t

theorem pieces_append_newline (s t : Text) : pieces (s ++ '\n' :: t) = pieces s ++ pieces t :=
  List.splitOn_append_cons_self s t

theorem pieces_line_append (l t : Text) : pieces (line l ++ t) = pieces l ++ pieces t := by
  rw [line, List.append_assoc]
  exact pieces_append_newline l t

theorem pieces_unlines_append (ls : List Text) (t : Text) :
    pieces (unlines ls ++ t) = ls.flatMap pieces ++ pieces t := by
  induction ls with
  | nil => rfl
  | cons l ls ih =>
    rw [unlines_cons, List.append_assoc, pieces_line_append, ih, List.flatMap_cons,
      List.append_assoc]

theorem pieces_unlines (ls : List Text) : pieces (unlines ls) = ls.flatMap pieces ++ [[]] := by
  have h := pieces_unlines_append ls []
  rwa [List.append_nil] at h

/-- Texts without newline, written as lines, are the pieces between the newlines. -/
theorem flatMap_pieces_of_not_mem {ls : List Text} (h : ∀ l ∈ ls, '\n' ∉ l) :
    ls.flatMap pieces = ls := by
  induction ls with
  | nil => rfl
  | cons l ls ih =>
    obtain ⟨hl, hls⟩ := List.forall_mem_cons.1 h
    rw [List.flatMap_cons, ih hls, pieces, List.splitOn_eq_singleton hl, List.singleton_append]

theorem count_newline_unlines {ls : List Text} (h : ∀ l ∈ ls, '\n' ∉ l) :
    (unlines ls).count '\n' = ls.length := by
  induction ls with
  | nil => rfl
  | cons l ls ih =>
    obtain ⟨hl, hls⟩ := List.forall_mem_cons.1 h
    have hline : (line l).count '\n' = 1 := by
      rw [line, List.count_append, List.count_eq_zero_of_not_mem hl]
      rfl
    rw [unlines_cons, List.count_append, hline, ih hls, List.length_cons, Nat.add_comm]

/-- The pieces of a text written as lines are the text with a newline after it. -/
theorem unlines_pieces (t : Text) : unlines (pieces t) = line t := by
  induction t with
  | nil => rfl
  | cons c t ih =>
    by_cases hc : c = '\n'
    · subst hc
      rw [pieces_cons_newline, unlines_cons, ih]
      rfl
    · obtain ⟨q, qs, hq⟩ := List.exists_cons_of_ne_nil (pieces_ne_nil t)
      rw [hq, unlines_cons] at ih
      rw [pieces_cons_of_ne hc, hq, List.modifyHead_cons, unlines_cons]
      exact congrArg (c :: ·) ih

/-- Cutting lines at the newlines inside them does not change what is written. -/
theorem unlines_flatMap_pieces (ls : List Text) : unlines (ls.flatMap pieces) = unlines ls := by
  induction ls with
  | nil => rfl
  | cons l ls ih => rw [List.flatMap_cons, unlines_append, unlines_pieces, ih, unlines_cons]

/-- Joining a text with others writes a newline before each of the others. -/
theorem join_cons (t : Text) (ts : List Text) :
    join (t :: ts) = t ++ ts.flatMap ('\n' :: ·) := by
  induction ts generalizing t with
  | nil => simp [join]
  | cons u us ih =>
    have h : join (u :: us) = u ++ us.flatMap ('\n' :: ·) := ih u
    unfold join at h ⊢
    rw [List.intercalate_cons_cons, h]
    simp

end ShellDispatch.Text
