import ShellDispatch.Shell.Word

/-!
# Quoted words read back

Inside single quotes the escaped form of a text leads from single quotes to single quotes
(`after_escape`), so a quoted word leaves the shell where it was, outside quotes (`after_quote`),
and is read as the text it quotes (`readWord_quote_append`). On the way each character of the text
is read between single quotes, a single quote as an escaped character (`scan_quote`). The word ends
with the closing quote exactly if a blank, a newline or nothing follows
(`readWord_quote_append_iff`).
-/

namespace ShellDispatch.Shell

/-! ## The mode after a quoted word -/

theorem after_escapeChar (c : Char) : Mode.single.after (escapeChar c) = .single := by
  unfold escapeChar
  split
  · rfl
  · rename_i h
    exact if_neg h

@[simp] theorem after_escape (t : Text) : Mode.single.after (escape t) = .single := by
  induction t with
  | nil => rfl
  | cons c t ih => rw [escape_cons, Mode.after_append, after_escapeChar, ih]

@[simp] theorem after_quote (t : Text) : Mode.bare.after (quote t) = .bare := by
  unfold quote
  rw [Mode.after_append, Mode.after_cons]
  show ((Mode.single).after (escape t)).after ['\''] = _
  rw [after_escape]
  rfl

/-- Without quotes and backslashes a text outside quotes stays there. -/
theorem after_of_not_mem {t : Text} (hquote : '\'' ∉ t) (hdouble : '"' ∉ t) (hbackslash : '\\' ∉ t) :
    Mode.bare.after t = .bare := by
  induction t with
  | nil => rfl
  | cons c t ih =>
    rw [List.mem_cons, not_or] at hquote hdouble hbackslash
    have hc : Mode.bare.next c = .bare := by
      unfold Mode.next
      dsimp only
      rw [if_neg (Ne.symm hquote.1), if_neg (Ne.symm hdouble.1), if_neg (Ne.symm hbackslash.1)]
    rw [Mode.after_cons, hc, ih hquote.2 hdouble.2 hbackslash.2]

/-! ## The characters of a quoted word -/

/-- The characters of a text, each with the quoting in force at it. -/
def Mode.scan : Mode → Text → List (Char × Mode)
  | _, [] => []
  | m, c :: t => (c, m) :: (m.next c).scan t

theorem Mode.scan_append (m : Mode) (s t : Text) :
    m.scan (s ++ t) = m.scan s ++ (m.after s).scan t := by
  induction s generalizing m with
  | nil => rfl
  | cons c s ih => rw [List.cons_append, scan, scan, ih, after_cons, List.cons_append]

/-- A character of a quoted text as it is scanned: a single quote is the escaped one of the four
characters that stand for it, any other character is between single quotes. -/
def scannedChar (c : Char) : List (Char × Mode) :=
  if c = '\'' then [('\'', .single), ('\\', .bare), ('\'', .escaped), ('\'', .bare)]
  else [(c, .single)]

/-- A quoted text as it is scanned. -/
def scannedQuote (t : Text) : List (Char × Mode) :=
  ('\'', .bare) :: t.flatMap scannedChar ++ [('\'', .single)]

theorem scan_escapeChar (c : Char) : Mode.single.scan (escapeChar c) = scannedChar c := by
  unfold escapeChar scannedChar
  split
  · rfl
  · rfl

theorem scan_escape (t : Text) : Mode.single.scan (escape t) = t.flatMap scannedChar := by
  induction t with
  | nil => rfl
  | cons c t ih =>
    rw [escape_cons, Mode.scan_append, scan_escapeChar, after_escapeChar, ih, List.flatMap_cons]

/-- **No character of a quoted text leaves its quotes.** -/
theorem scan_quote (t : Text) : Mode.bare.scan (quote t) = scannedQuote t := by
  have hopen : Mode.bare.next '\'' = .single := rfl
  unfold quote scannedQuote
  rw [List.cons_append, Mode.scan, hopen, Mode.scan_append, after_escape, scan_escape]
  rfl

/-! ## The value of a quoted word -/

theorem readRest_quote (quoted : Bool) (t : Text) :
    readRest quoted ('\'' :: t) = readRest (!quoted) t := by
  rw [readRest.eq_def]
  rfl

theorem readRest_quoted_cons {c : Char} (h : c ≠ '\'') (t : Text) :
    readRest true (c :: t) = (readRest true t).map fun r => (c :: r.1, r.2) := by
  rw [readRest.eq_def]
  dsimp only
  rw [if_neg h, if_pos rfl]

theorem readRest_backslash (c : Char) (t : Text) :
    readRest false ('\\' :: c :: t) = (readRest false t).map fun r => (c :: r.1, r.2) := by
  rw [readRest.eq_def]
  rfl

theorem readRest_of_isSeparator {r : Text} (h : ∀ c ∈ r.head?, isSeparator c) :
    readRest false r = some ([], r) := by
  cases r with
  | nil => rfl
  | cons c r =>
    have hc : isSeparator c := h c rfl
    have hq : c ≠ '\'' := by
      rintro rfl
      exact absurd hc (by decide)
    rw [readRest.eq_def]
    dsimp only
    rw [if_neg hq, if_neg (by simp), if_pos hc]

/-- The escaped form of a text, up to the closing quote, is read as the text. -/
theorem readRest_escape (t r : Text) :
    readRest true (escape t ++ '\'' :: r) = (readRest false r).map fun x => (t ++ x.1, x.2) := by
  induction t with
  | nil =>
    show readRest true ('\'' :: r) = _
    rw [readRest_quote, Bool.not_true]
    cases readRest false r <;> rfl
  | cons c t ih =>
    rw [escape_cons, List.append_assoc]
    by_cases hc : c = '\''
    · subst hc
      show readRest true ('\'' :: '\\' :: '\'' :: '\'' :: (escape t ++ '\'' :: r)) = _
      rw [readRest_quote, Bool.not_true, readRest_backslash, readRest_quote, Bool.not_false, ih,
        Option.map_map]
      rfl
    · rw [escapeChar_of_ne hc, List.singleton_append, readRest_quoted_cons hc, ih, Option.map_map]
      rfl

/-- A quoted text begins a word that goes on with what follows it. -/
theorem readWord_quote (t r : Text) :
    readWord (quote t ++ r) = (readWord r).map fun x => (t ++ x.1, x.2) := by
  unfold readWord quote
  rw [List.append_assoc, List.cons_append, List.singleton_append, readRest_quote, Bool.not_false,
    readRest_escape]

/-- **A quoted text is read back**, and nothing of what follows it is taken. -/
theorem readWord_quote_append {r : Text} (h : ∀ c ∈ r.head?, isSeparator c) (t : Text) :
    readWord (quote t ++ r) = some (t, r) := by
  rw [readWord_quote, readWord, readRest_of_isSeparator h]
  simp

/-! ## Where a word ends -/

theorem isSeparator_iff {c : Char} : isSeparator c ↔ c = ' ' ∨ c = '\t' ∨ c = '\n' := by
  simp [isSeparator, or_assoc]

/-- What is left after a word is the end of the text. -/
theorem suffix_of_readRest {quoted : Bool} {t : Text} {x : Text × Text}
    (h : readRest quoted t = some x) : x.2 <:+ t := by
  fun_induction readRest quoted t generalizing x with
  | case1 => exact absurd h nofun
  | case2 =>
    obtain rfl := Option.some.inj h
    exact List.suffix_rfl
  | case3 quoted t ih => exact (ih h).trans (List.suffix_cons '\'' t)
  | case4 c t hc ih =>
    obtain ⟨y, hy, rfl⟩ := Option.map_eq_some_iff.1 h
    exact (ih hy).trans (List.suffix_cons c t)
  | case5 =>
    obtain rfl := Option.some.inj h
    exact List.suffix_rfl
  | case6 => exact absurd h nofun
  | case7 quoted hquoted d t hc hs ih =>
    obtain ⟨y, hy, rfl⟩ := Option.map_eq_some_iff.1 h
    exact (ih hy).trans ((List.suffix_cons d t).trans (List.suffix_cons '\\' (d :: t)))
  | case8 quoted c t hc hquoted hs hb ih =>
    obtain ⟨y, hy, rfl⟩ := Option.map_eq_some_iff.1 h
    exact (ih hy).trans (List.suffix_cons c t)

/-- A character that neither ends a word nor quotes anything begins one. -/
theorem readRest_bare_cons {c : Char} (hquote : c ≠ '\'') (hseparator : ¬ isSeparator c)
    (hbackslash : c ≠ '\\') (t : Text) :
    readRest false (c :: t) = (readRest false t).map fun r => (c :: r.1, r.2) := by
  rw [readRest.eq_def]
  dsimp only
  rw [if_neg hquote, if_neg (by simp), if_neg hseparator, if_neg hbackslash]

/-- Reading a word takes nothing only before a blank or a newline, or at the end of the text. -/
theorem readWord_eq_nil_iff {r : Text} :
    readWord r = some ([], r) ↔ ∀ c ∈ r.head?, isSeparator c := by
  refine ⟨fun h => ?_, fun h => readRest_of_isSeparator h⟩
  have hnonempty : ∀ (c : Char) (t : Text),
      (readRest false t).map (fun x => (c :: x.1, x.2)) ≠ some ([], r) := by
    intro c t hmap
    obtain ⟨x, -, hx⟩ := Option.map_eq_some_iff.1 hmap
    exact absurd (congrArg Prod.fst hx) (List.cons_ne_nil c x.1)
  cases r with
  | nil => exact fun c hc => absurd hc nofun
  | cons c t =>
    intro d hd
    obtain rfl := Option.some.inj hd
    refine Classical.byContradiction fun hseparator => ?_
    unfold readWord at h
    by_cases hquote : c = '\''
    -- an empty quoted text is a word without characters, but it is taken off the text
    · subst hquote
      rw [readRest_quote] at h
      have hlength : ('\'' :: t).length ≤ t.length := (suffix_of_readRest h).length_le
      exact absurd hlength (Nat.not_succ_le_self t.length)
    · by_cases hbackslash : c = '\\'
      · subst hbackslash
        cases t with
        | nil => exact absurd h nofun
        | cons e t =>
          rw [readRest_backslash] at h
          exact hnonempty e t h
      · rw [readRest_bare_cons hquote hseparator hbackslash] at h
        exact hnonempty c t h

/-- **A quoted text is read back, and the rest is left, exactly if the rest ends the word**: if there
is none, or it starts with a blank or a newline. Any other rest goes on with the word. -/
theorem readWord_quote_append_iff (t r : Text) :
    readWord (quote t ++ r) = some (t, r) ↔
      r = [] ∨ ∃ c s, r = c :: s ∧ (c = ' ' ∨ c = '\t' ∨ c = '\n') := by
  have hends : (∀ c ∈ r.head?, isSeparator c) ↔
      r = [] ∨ ∃ c s, r = c :: s ∧ (c = ' ' ∨ c = '\t' ∨ c = '\n') := by
    cases r with
    | nil => simp
    | cons c s => simp [isSeparator_iff]
  rw [← hends, ← readWord_eq_nil_iff, readWord_quote, Option.map_eq_some_iff]
  constructor
  · rintro ⟨⟨w, s⟩, hread, hx⟩
    obtain ⟨hw, rfl⟩ := Prod.mk.inj hx
    obtain rfl : w = [] := List.append_right_eq_self.1 hw
    exact hread
  · intro hread
    exact ⟨([], r), hread, by rw [List.append_nil]⟩

example : readWord (quote "it's" ++ " b") = some ("it's".toList, " b".toList) ∧
    readWord (quote "a" ++ "\\ b") = some ("a b".toList, []) := by decide

end ShellDispatch.Shell
