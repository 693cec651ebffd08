import ShellDispatch.Proofs.Text.Pieces
import ShellDispatch.Shell.Quote

/-!
# Marks at the starts of lines

A mark without newline starts a line of a text after the first exactly if the mark with a newline
before it is part of the text (`exists_mem_tail_pieces_iff`). In this form it can be seen through
quotes: a mark without single quote starts a line of the quoted text exactly if it starts one of the
text itself (`infix_append_quote_iff`).
-/

namespace ShellDispatch

namespace Text

variable {m t : Text}

theorem prefix_head_pieces_iff (hm : '\n' ∉ m) {q : Text} {qs : List Text} (h : pieces t = q :: qs) :
    m <+: q ↔ m <+: t := by
  induction t generalizing m q qs with
  | nil =>
    obtain ⟨rfl, -⟩ := List.cons.inj h
    rfl
  | cons c t ih =>
    cases m with
    | nil => exact ⟨fun _ => List.nil_prefix, fun _ => List.nil_prefix⟩
    | cons d m =>
      rw [List.mem_cons, not_or] at hm
      obtain ⟨p, ps, hp⟩ := List.exists_cons_of_ne_nil (pieces_ne_nil t)
      by_cases hc : c = '\n'
      · subst hc
        rw [pieces_cons_newline] at h
        obtain ⟨rfl, -⟩ := List.cons.inj h
        rw [List.cons_prefix_cons]
        exact ⟨fun hd => absurd hd (by simp), fun hd => absurd hd.1.symm hm.1⟩
      · rw [pieces_cons_of_ne hc, hp, List.modifyHead_cons] at h
        obtain ⟨rfl, -⟩ := List.cons.inj h
        rw [List.cons_prefix_cons, List.cons_prefix_cons, ih hm.2 hp]

/-- A mark starts a line after the first exactly where it follows a newline. -/
theorem exists_mem_tail_pieces_iff (hm : '\n' ∉ m) (t : Text) :
    (∃ p ∈ (pieces t).tail, m <+: p) ↔ ('\n' :: m) <:+: t := by
  induction t with
  | nil =>
    constructor
    · rintro ⟨p, hp, -⟩
      exact absurd hp List.not_mem_nil
    · intro h
      exact absurd (List.infix_nil.1 h) (List.cons_ne_nil _ _)
  | cons c t ih =>
    obtain ⟨q, qs, hq⟩ := List.exists_cons_of_ne_nil (pieces_ne_nil t)
    rw [List.infix_cons_iff, List.cons_prefix_cons, ← ih]
    by_cases hc : c = '\n'
    · subst hc
      rw [pieces_cons_newline, List.tail_cons, ← prefix_head_pieces_iff hm hq, hq, List.tail_cons]
      simp only [List.mem_cons, exists_eq_or_imp, true_and]
    · rw [pieces_cons_of_ne hc, hq, List.modifyHead_cons, List.tail_cons, List.tail_cons]
      exact ⟨Or.inr, fun h => h.resolve_left fun hd => hc hd.1.symm⟩

theorem exists_mem_pieces_iff (hm : '\n' ∉ m) (t : Text) :
    (∃ p ∈ pieces t, m <+: p) ↔ m <+: t ∨ ('\n' :: m) <:+: t := by
  obtain ⟨q, qs, hq⟩ := List.exists_cons_of_ne_nil (pieces_ne_nil t)
  rw [← exists_mem_tail_pieces_iff hm, ← prefix_head_pieces_iff hm hq, hq, List.tail_cons]
  simp only [List.mem_cons, exists_eq_or_imp]

theorem infix_append_of_not_mem {c : Char} {s : Text} (h : c ∉ s) (m t : Text) :
    (c :: m) <:+: s ++ t ↔ (c :: m) <:+: t := by
  induction s with
  | nil => rfl
  | cons d s ih =>
    rw [List.mem_cons, not_or] at h
    rw [List.cons_append, List.infix_cons_iff, List.cons_prefix_cons, ih h.2]
    exact ⟨fun hd => hd.resolve_left fun hd => h.1 hd.1, Or.inr⟩

theorem not_infix_of_not_mem {c : Char} {t : Text} (h : c ∉ t) (m : Text) : ¬ (c :: m) <:+: t :=
  fun hm => h (hm.subset List.mem_cons_self)

end Text

namespace Shell

variable {m : Text}

theorem prefix_escape_append_iff (hm : '\'' ∉ m) (t r : Text) :
    m <+: escape t ++ '\'' :: r ↔ m <+: t := by
  induction t generalizing m with
  | nil =>
    cases m with
    | nil => exact ⟨fun _ => List.nil_prefix, fun _ => List.nil_prefix⟩
    | cons d m =>
      rw [List.mem_cons, not_or] at hm
      rw [escape_nil, List.nil_append, List.cons_prefix_cons]
      exact ⟨fun h => absurd h.1.symm hm.1, fun h => absurd h (by simp)⟩
  | cons c t ih =>
    cases m with
    | nil => exact ⟨fun _ => List.nil_prefix, fun _ => List.nil_prefix⟩
    | cons d m =>
      rw [List.mem_cons, not_or] at hm
      by_cases hc : c = '\''
      · subst hc
        show (d :: m) <+: '\'' :: ('\\' :: '\'' :: '\'' :: (escape t ++ '\'' :: r)) ↔ _
        rw [List.cons_prefix_cons, List.cons_prefix_cons]
        exact ⟨fun h => absurd h.1.symm hm.1, fun h => absurd h.1.symm hm.1⟩
      · rw [escape_cons, escapeChar_of_ne hc, List.singleton_append, List.cons_append,
          List.cons_prefix_cons, List.cons_prefix_cons, ih hm.2]

/-- Quotes hide no newline: what follows one in the text follows one in the quoted text. -/
theorem infix_escape_append_iff (hm : '\'' ∉ m) {r : Text} (hr : '\n' ∉ r) (t : Text) :
    ('\n' :: m) <:+: escape t ++ '\'' :: r ↔ ('\n' :: m) <:+: t := by
  induction t with
  | nil =>
    have hq : '\n' ∉ '\'' :: r := by simpa using hr
    constructor
    · exact fun h => absurd h (Text.not_infix_of_not_mem hq m)
    · exact fun h => absurd h (Text.not_infix_of_not_mem List.not_mem_nil m)
  | cons c t ih =>
    rw [escape_cons, List.append_assoc]
    by_cases hc : c = '\''
    · subst hc
      rw [Text.infix_append_of_not_mem (by decide), ih]
      exact (Text.infix_append_of_not_mem (s := ['\'']) (by decide) m t).symm
    · rw [escapeChar_of_ne hc, List.singleton_append, List.infix_cons_iff, List.infix_cons_iff,
        List.cons_prefix_cons, List.cons_prefix_cons, prefix_escape_append_iff hm, ih]

theorem infix_append_quote_iff (hm : '\'' ∉ m) {a b : Text} (ha : '\n' ∉ a) (hb : '\n' ∉ b)
    (t : Text) : ('\n' :: m) <:+: a ++ quote t ++ b ↔ ('\n' :: m) <:+: t := by
  have hquote : a ++ quote t ++ b = a ++ (['\''] ++ (escape t ++ '\'' :: b)) := by
    unfold quote
    simp only [List.append_assoc, List.cons_append, List.nil_append]
  rw [hquote, Text.infix_append_of_not_mem ha, Text.infix_append_of_not_mem (by decide),
    infix_escape_append_iff hm hb]

end Shell

end ShellDispatch
