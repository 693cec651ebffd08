import Mathlib.Data.List.DropRight
import ShellDispatch.Text.Blank

/-!
# Trimmed texts

Blanks around a text are what `trim` removes: adding more of them changes nothing (`trim_append`,
`trim_blank_append`), so trimming twice is trimming once (`trim_trim`). Everything from the first
visible character to the last stays (`trim_cons`), and nothing else does (`isBlank_of_head?_trim`,
`isBlank_of_getLast?_trim`).
-/

namespace ShellDispatch.Text

/-- The text has nothing but blanks. -/
def IsBlank (t : Text) : Prop := ∀ c ∈ t, isBlank c

instance : DecidablePred IsBlank := fun t => decidable_of_iff (t.all isBlank) List.all_eq_true

variable {c : Char} {t : Text}

/-! ## Visible characters -/

/-- A visible character at the start stays when the end is trimmed. -/
theorem trimEnd_cons (hc : isBlank c = false) (t : Text) : trimEnd (c :: t) = c :: trimEnd t := by
  unfold trimEnd
  rw [List.reverse_cons, List.dropWhile_append]
  split
  · rename_i h
    rw [List.dropWhile_cons_of_neg (by simp [hc]), List.isEmpty_iff.1 h]
    rfl
  · rw [List.reverse_append]
    rfl

theorem trim_cons (hc : isBlank c = false) (t : Text) : trim (c :: t) = c :: trimEnd t := by
  unfold trim trimStart
  rw [List.dropWhile_cons_of_neg (by simp [hc]), trimEnd_cons hc]

theorem mem_of_mem_trim (h : c ∈ trim t) : c ∈ t := by
  unfold trim trimEnd trimStart at h
  rw [List.mem_reverse] at h
  have h := (List.dropWhile_sublist _).subset h
  rw [List.mem_reverse] at h
  exact (List.dropWhile_sublist _).subset h

/-! ## Blanks around a text -/

theorem trimEnd_concat (hc : isBlank c) (t : Text) : trimEnd (t ++ [c]) = trimEnd t :=
  List.rdropWhile_concat_pos isBlank t c hc

theorem trim_concat (hc : isBlank c) (t : Text) : trim (t ++ [c]) = trim t := by
  unfold trim trimStart
  rw [List.dropWhile_append]
  split
  · rename_i h
    rw [List.dropWhile_cons_of_pos hc, List.isEmpty_iff.1 h]
    rfl
  · exact trimEnd_concat hc _

theorem trim_append {blanks : Text} (h : IsBlank blanks) (t : Text) :
    trim (t ++ blanks) = trim t := by
  induction blanks generalizing t with
  | nil => rw [List.append_nil]
  | cons c blanks ih =>
    obtain ⟨hc, hblanks⟩ := List.forall_mem_cons.1 h
    rw [List.append_cons, ih hblanks, trim_concat hc]

theorem trim_blank_append {blanks : Text} (h : IsBlank blanks) (t : Text) :
    trim (blanks ++ t) = trim t := by
  unfold trim trimStart
  rw [List.dropWhile_append_of_pos h]

theorem exists_eq_trimEnd_append (t : Text) : ∃ blanks, IsBlank blanks ∧ t = trimEnd t ++ blanks :=
  ⟨t.rtakeWhile isBlank, fun _ hc => List.mem_rtakeWhile_imp hc,
    List.rdropWhile_append_rtakeWhile.symm⟩

@[simp] theorem trim_trimEnd (t : Text) : trim (trimEnd t) = trim t := by
  obtain ⟨blanks, hblanks, ht⟩ := exists_eq_trimEnd_append t
  have h := trim_append hblanks (trimEnd t)
  rw [← ht] at h
  exact h.symm

@[simp] theorem trim_trim (t : Text) : trim (trim t) = trim t := by
  have hstart : trim (trimStart t) = trim t := by
    unfold trim trimStart
    rw [List.dropWhile_idempotent]
  exact (trim_trimEnd (trimStart t)).trans hstart

/-- Only blanks are trimmed away completely. -/
theorem trim_eq_nil_iff : trim t = [] ↔ IsBlank t := by
  constructor
  · intro h
    obtain ⟨blanks, hblanks, hend⟩ := exists_eq_trimEnd_append (trimStart t)
    have hstart : trimStart t = blanks := by
      rw [hend, show trimEnd (trimStart t) = [] from h, List.nil_append]
    intro c hc
    rw [← List.takeWhile_append_dropWhile (p := isBlank) (l := t), List.mem_append] at hc
    rcases hc with hc | hc
    · exact List.mem_takeWhile_imp hc
    · exact hblanks c (hstart ▸ hc)
  · intro h
    exact trim_append h []

/-! ## The ends of a trimmed text -/

theorem isBlank_of_head?_trim (h : (trim t).head? = some c) : isBlank c = false := by
  unfold trim at h
  cases hstart : trimStart t with
  | nil =>
    rw [hstart] at h
    exact absurd h nofun
  | cons d s =>
    have hd : isBlank d = false := by
      have hfirst := List.head?_dropWhile_not isBlank t
      unfold trimStart at hstart
      rw [hstart] at hfirst
      exact hfirst
    rw [hstart, trimEnd_cons hd] at h
    obtain rfl := Option.some.inj h
    exact hd

theorem isBlank_of_getLast?_trim (h : (trim t).getLast? = some c) : isBlank c = false := by
  have hfirst := List.head?_dropWhile_not isBlank (trimStart t).reverse
  unfold trim trimEnd at h
  rw [List.getLast?_reverse] at h
  rw [h] at hfirst
  exact hfirst

end ShellDispatch.Text
