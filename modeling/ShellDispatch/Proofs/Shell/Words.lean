import ShellDispatch.Proofs.Shell.Quoting

/-!
# The words of a command

`words` reads a text as the words of one command, by the rules for blanks, quotes and backslashes.
There are words only if nothing else is in force that would change the command: no operator, no
comment and no expansion. An asterisk, a question mark or an opening bracket outside quotes counts as
an expansion wherever it stands, since what becomes of it depends on more than its place in the text.
A tilde outside quotes is one at the start of a word, and in a word that assigns a value at the start
of the value and after a colon in it (`expandsTilde`); everywhere else it stands for itself. Apart from
that it is not asked what a word does, to name a command or to assign a value.

A quoted text is one word whatever it is (`words_quote`). A text as it stands is one word only if each
of its characters is plain and it assigns no tilde (`words_eq_singleton_iff`): on the way through a
text no character adds more than itself to the words, and one that is not plain adds nothing.
-/

namespace ShellDispatch.Shell

/-! ## Reading -/

/-- The characters that end a command or part it from another. -/
def operators : Text := "|&;<>()\n"

/-- The characters outside quotes that may stand for something else. -/
def expansions : Text := "$`*?["

/-- The characters that begin or end quotes, and the one that quotes the next. -/
def quoting : Text := "'\"\\"

/-- The characters between double quotes that may stand for something else. -/
def doubleExpansions : Text := "$`"

/-- The characters between double quotes that a backslash quotes. -/
def doubleQuotable : Text := "$`\"\\"

/-- A character that stands for itself within a word outside quotes. -/
def IsPlain (c : Char) : Prop := ¬ isSeparator c ∧ c ∉ quoting ∧ c ∉ operators ∧ c ∉ expansions

instance : DecidablePred IsPlain := fun c =>
  inferInstanceAs (Decidable (¬ isSeparator c ∧ c ∉ quoting ∧ c ∉ operators ∧ c ∉ expansions))

/-- A word with one more character, which is its first if no word was open. -/
def extend (w : Option Text) (c : Char) : Option Text := some (w.getD [] ++ [c])

/-- Reads a character, with a word open or between words: the words that it completes, and the word
that is open after it. -/
def readChar : Mode → Option Text → Char → Option (List Text × Option Text)
  | .bare, w, c =>
    if c ∈ operators ∨ c ∈ expansions ∨ c = '#' ∧ w = none then none
    else if isSeparator c then some (w.toList, none)
    else if c = '\\' then some ([], w)
    else if c ∈ quoting then some ([], some (w.getD []))
    else some ([], extend w c)
  | .single, w, c => some ([], if c = '\'' then w else extend w c)
  | .double, w, c =>
    if c ∈ doubleExpansions then none
    else some ([], if c = '"' ∨ c = '\\' then w else extend w c)
  -- a backslash before a newline joins two lines
  | .escaped, w, c => some ([], if c = '\n' then w else extend w c)
  | .doubleEscaped, w, c =>
    some ([], if c = '\n' then w
      else if c ∈ doubleQuotable then extend w c else extend (extend w '\\') c)

/-- Reads words from within a text. -/
def wordsFrom : Mode → Option Text → Text → Option (List Text)
  | m, w, [] => if m = .bare then some w.toList else none
  | m, w, c :: t => (readChar m w c).bind fun r => (wordsFrom (m.next c) r.2 t).map (r.1 ++ ·)

/-! ### Tildes -/

/-- A character with which the name of a variable can begin. -/
def isNameStart (c : Char) : Bool := c.isAlpha || c = '_'

/-- A character of the name of a variable. -/
def isNameChar (c : Char) : Bool := c.isAlphanum || c = '_'

/-- What the word before a character is like, as far as a tilde there depends on it. -/
inductive Place where
  /-- There is no word yet. -/
  | start
  /-- The name of a variable, to which the word may assign a value. -/
  | name
  /-- An assignment with a value that may be at the start of one of its parts. -/
  | value (begins : Bool)
  /-- Any other word. -/
  | other
deriving DecidableEq, Repr

namespace Place

/-- The place after a character that stands for itself. -/
def goOn : Place → Char → Place
  | start, c => if isNameStart c then name else other
  | name, c => if c = '=' then value true else if isNameChar c then name else other
  | value _, c => value (c = ':')
  | other, _ => other

/-- The place after quotes. -/
def quoted : Place → Place
  | value _ => value false
  | _ => other

/-- The place after a character. -/
def next (p : Place) : Mode → Char → Place
  | .bare, c =>
    if isSeparator c then start
    else if c = '\\' then p
    else if c ∈ quoting then p.quoted
    else p.goOn c
  | .escaped, c => if c = '\n' then p else p.quoted
  | _, _ => p

/-- Whether a tilde outside quotes stands for a directory. -/
def expands : Place → Bool
  | start => true
  | value begins => begins
  | _ => false

end Place

/-- Whether a tilde stands for a directory somewhere in a text. -/
def expandsTilde : Mode → Place → Text → Bool
  | _, _, [] => false
  | m, p, c :: t => (m = .bare && c = '~' && p.expands) || expandsTilde (m.next c) (p.next m c) t

/-- The words of a command, if it is nothing but words. -/
def words (t : Text) : Option (List Text) :=
  if expandsTilde .bare .start t then none else wordsFrom .bare none t

example : words "printf '%s\\n' \"it's\" a\\ b''#1" =
    some ["printf".toList, "%s\\n".toList, "it's".toList, "a b#1".toList] := by decide

example : words "shift; help" = none ∧ words "a #b" = none ∧ words "\"$0\"" = none := by decide

example : words "a~ b=c~ d-e=~ 'f'=~" =
      some ["a~".toList, "b=c~".toList, "d-e=~".toList, "f=~".toList] ∧
    words "a ~" = none ∧ words "b=~" = none ∧ words "b='c':~" = none := by decide

/-- A character that completes no word leaves the rest of the text to be read. -/
theorem wordsFrom_cons_of_eq {m : Mode} {w w' : Option Text} {c : Char}
    (h : readChar m w c = some ([], w')) (t : Text) :
    wordsFrom m w (c :: t) = wordsFrom (m.next c) w' t := by
  rw [wordsFrom, h, Option.bind_some]
  exact Option.map_id'

/-! ## Quoted texts -/

theorem wordsFrom_escapeChar (w : Text) (c : Char) (r : Text) :
    wordsFrom .single (some w) (escapeChar c ++ r) = wordsFrom .single (some (w ++ [c])) r := by
  by_cases hc : c = '\''
  · subst hc
    have hclose : readChar .single (some w) '\'' = some ([], some w) := rfl
    have hbackslash : readChar .bare (some w) '\\' = some ([], some w) := rfl
    have hquote : readChar .escaped (some w) '\'' = some ([], some (w ++ ['\''])) := rfl
    have hopen : readChar .bare (some (w ++ ['\''])) '\'' = some ([], some (w ++ ['\''])) := rfl
    show wordsFrom .single (some w) ('\'' :: '\\' :: '\'' :: '\'' :: r) = _
    rw [wordsFrom_cons_of_eq hclose]
    exact (wordsFrom_cons_of_eq hbackslash _).trans
      ((wordsFrom_cons_of_eq hquote _).trans (wordsFrom_cons_of_eq hopen r))
  · have hread : readChar .single (some w) c = some ([], some (w ++ [c])) := by
      rw [readChar, if_neg hc]
      rfl
    have hmode : Mode.single.next c = .single := if_neg hc
    rw [escapeChar_of_ne hc, List.singleton_append, wordsFrom_cons_of_eq hread, hmode]

theorem expandsTilde_escapeChar (c : Char) (r : Text) :
    expandsTilde .single .other (escapeChar c ++ r) = expandsTilde .single .other r := by
  by_cases hc : c = '\''
  · subst hc
    rfl
  · have hmode : Mode.single.next c = .single := if_neg hc
    rw [escapeChar_of_ne hc, List.singleton_append, expandsTilde, hmode]
    rfl

theorem expandsTilde_escape (t r : Text) :
    expandsTilde .single .other (escape t ++ r) = expandsTilde .single .other r := by
  induction t with
  | nil => rfl
  | cons c t ih => rw [escape_cons, List.append_assoc, expandsTilde_escapeChar, ih]

theorem wordsFrom_escape (w t r : Text) :
    wordsFrom .single (some w) (escape t ++ r) = wordsFrom .single (some (w ++ t)) r := by
  induction t generalizing w with
  | nil => rw [escape_nil, List.nil_append, List.append_nil]
  | cons c t ih =>
    rw [escape_cons, List.append_assoc, wordsFrom_escapeChar, ih, List.append_cons w c t]

/-- **A quoted text is one word**, whatever the text. -/
theorem words_quote (t : Text) : words (quote t) = some [t] := by
  have hopen : readChar .bare none '\'' = some ([], some []) := by decide
  have htilde : expandsTilde .bare .start (quote t) = false := expandsTilde_escape t ['\'']
  unfold words
  rw [htilde, if_neg Bool.false_ne_true]
  unfold quote
  rw [List.cons_append, wordsFrom_cons_of_eq hopen]
  exact wordsFrom_escape [] t ['\'']

/-! ## Texts as they stand -/

/-- Outside quotes a plain character goes on with the word, and any other adds nothing to it. -/
theorem readChar_bare_cases {w : Option Text} {c : Char} {r : List Text × Option Text}
    (h : readChar .bare w c = some r) :
    (IsPlain c ∧ r = ([], extend w c)) ∨
      (¬ IsPlain c ∧ (r = (w.toList, none) ∨ r = ([], w) ∨ r = ([], some (w.getD [])))) := by
  rw [readChar] at h
  split at h
  · exact absurd h (Option.some_ne_none r).symm
  rename_i hactive
  split at h
  · rename_i hblank
    exact Or.inr ⟨fun hc => hc.1 hblank, Or.inl (Option.some.inj h).symm⟩
  rename_i hblank
  split at h
  · rename_i hbackslash
    refine Or.inr ⟨?_, Or.inr (Or.inl (Option.some.inj h).symm)⟩
    rw [hbackslash]
    decide
  split at h
  · rename_i hquoting
    exact Or.inr ⟨fun hc => hc.2.1 hquoting, Or.inr (Or.inr (Option.some.inj h).symm)⟩
  · rename_i hquoting
    rw [not_or, not_or] at hactive
    exact Or.inl ⟨⟨hblank, hquoting, hactive.1, hactive.2.1⟩, (Option.some.inj h).symm⟩

/-- What has been read of the word that is open. A backslash between double quotes is held back until
the character after it tells what becomes of it. -/
def held : Mode → Option Text → Text
  | .doubleEscaped, w => w.getD [] ++ ['\\']
  | _, w => w.getD []

theorem held_of_ne {m : Mode} (h : m ≠ .doubleEscaped) (w : Option Text) : held m w = w.getD [] := by
  cases m with
  | doubleEscaped => exact absurd rfl h
  | _ => rfl

/-- Only between double quotes a backslash is held back. -/
theorem next_ne_doubleEscaped {m : Mode} (h : m ≠ .double) (c : Char) :
    m.next c ≠ .doubleEscaped := by
  cases m with
  | bare =>
    unfold Mode.next
    grind
  | single =>
    unfold Mode.next
    grind
  | double => exact absurd rfl h
  | escaped => exact Mode.noConfusion
  | doubleEscaped => exact Mode.noConfusion

theorem flatten_toList (w : Option Text) : w.toList.flatten = w.getD [] := by
  cases w with
  | none => rfl
  | some w => exact List.flatten_singleton

/-- A character adds at most itself. -/
theorem readChar_sublist {m : Mode} {w : Option Text} {c : Char} {r : List Text × Option Text}
    (h : readChar m w c = some r) :
    (r.1.flatten ++ held (m.next c) r.2).Sublist (held m w ++ [c]) := by
  have hleft : (w.getD []).Sublist (w.getD [] ++ [c]) := List.sublist_append_left _ _
  cases m with
  | bare =>
    rw [held_of_ne (next_ne_doubleEscaped (by decide) c)]
    obtain ⟨-, rfl⟩ | ⟨-, rfl | rfl | rfl⟩ := readChar_bare_cases h
    · exact List.Sublist.refl _
    · rw [flatten_toList]
      exact (List.append_nil _).symm ▸ hleft
    · exact hleft
    · exact hleft
  | single =>
    rw [held_of_ne (next_ne_doubleEscaped (by decide) c)]
    obtain rfl := Option.some.inj h
    split
    · exact hleft
    · exact List.Sublist.refl _
  | double =>
    rw [readChar] at h
    split at h
    · exact absurd h (Option.some_ne_none r).symm
    obtain rfl := Option.some.inj h
    by_cases hquote : c = '"'
    · subst hquote
      exact hleft
    by_cases hbackslash : c = '\\'
    · subst hbackslash
      exact List.Sublist.refl _
    · have hnext : Mode.double.next c = .double := by
        unfold Mode.next
        dsimp only
        rw [if_neg hquote, if_neg hbackslash]
      rw [hnext, if_neg (not_or.2 ⟨hquote, hbackslash⟩)]
      exact List.Sublist.refl _
  | escaped =>
    rw [held_of_ne (next_ne_doubleEscaped (by decide) c)]
    obtain rfl := Option.some.inj h
    split
    · exact hleft
    · exact List.Sublist.refl _
  | doubleEscaped =>
    rw [held_of_ne (next_ne_doubleEscaped (by decide) c)]
    obtain rfl := Option.some.inj h
    have hdrop : (w.getD [] ++ [c]).Sublist (w.getD [] ++ ['\\'] ++ [c]) :=
      (List.sublist_append_left _ ['\\']).append_right [c]
    split
    · exact hleft.trans hdrop
    split
    · exact hdrop
    · exact List.Sublist.refl _

/-- **Reading only leaves characters out**: the words of a text are made of its characters. -/
theorem wordsFrom_sublist {m : Mode} {w : Option Text} {t : Text} {ws : List Text}
    (h : wordsFrom m w t = some ws) : ws.flatten.Sublist (held m w ++ t) := by
  induction t generalizing m w ws with
  | nil =>
    rw [wordsFrom] at h
    split at h
    · rename_i hm
      obtain rfl := Option.some.inj h
      rw [hm, List.append_nil, flatten_toList]
      exact List.Sublist.refl _
    · exact absurd h (Option.some_ne_none ws).symm
  | cons c t ih =>
    obtain ⟨r, hr, h⟩ := Option.bind_eq_some_iff.1 h
    obtain ⟨vs, hvs, rfl⟩ := Option.map_eq_some_iff.1 h
    rw [List.flatten_append, List.append_cons]
    refine List.Sublist.trans ?_ ((readChar_sublist hr).append_right t)
    rw [List.append_assoc]
    exact (ih hvs).append_left _

/-- A character that is not plain is left out. -/
theorem wordsFrom_cons_sublist {w : Option Text} {c : Char} {t : Text} {ws : List Text}
    (hc : ¬ IsPlain c) (h : wordsFrom .bare w (c :: t) = some ws) :
    ws.flatten.Sublist (w.getD [] ++ t) := by
  obtain ⟨r, hr, h⟩ := Option.bind_eq_some_iff.1 h
  obtain ⟨vs, hvs, rfl⟩ := Option.map_eq_some_iff.1 h
  have hword : r.1.flatten ++ held (Mode.bare.next c) r.2 = w.getD [] := by
    rw [held_of_ne (next_ne_doubleEscaped (by decide) c)]
    obtain ⟨hplain, -⟩ | ⟨-, rfl | rfl | rfl⟩ := readChar_bare_cases hr
    · exact absurd hplain hc
    · rw [flatten_toList]
      exact List.append_nil _
    · rfl
    · rfl
  rw [List.flatten_append, ← hword, List.append_assoc]
  exact (wordsFrom_sublist hvs).append_left _

theorem next_of_isPlain {c : Char} (h : IsPlain c) : Mode.bare.next c = .bare := by
  obtain ⟨-, hquoting, -, -⟩ := h
  have hsingle : c ≠ '\'' := fun hc => hquoting (hc ▸ by decide)
  have hdouble : c ≠ '"' := fun hc => hquoting (hc ▸ by decide)
  have hbackslash : c ≠ '\\' := fun hc => hquoting (hc ▸ by decide)
  unfold Mode.next
  dsimp only
  rw [if_neg hsingle, if_neg hdouble, if_neg hbackslash]

/-- A plain character goes on with the word that is open. It begins one, unless it begins a comment
there. -/
theorem wordsFrom_cons_of_isPlain {w : Option Text} {c : Char} (h : IsPlain c)
    (hw : w = none → c ≠ '#') (t : Text) :
    wordsFrom .bare w (c :: t) = wordsFrom .bare (extend w c) t := by
  have hnext := next_of_isPlain h
  obtain ⟨hblank, hquoting, hoperator, hexpansion⟩ := h
  have hcomment : ¬ (c = '#' ∧ w = none) := fun hc => hw hc.2 hc.1
  have hbackslash : c ≠ '\\' := fun hc => hquoting (hc ▸ by decide)
  have hread : readChar .bare w c = some ([], extend w c) := by
    rw [readChar, if_neg (not_or.2 ⟨hoperator, not_or.2 ⟨hexpansion, hcomment⟩⟩), if_neg hblank,
      if_neg hbackslash, if_neg hquoting]
  rw [wordsFrom_cons_of_eq hread, hnext]

/-- A text goes on with the word that is open, and is read as no more than that word, exactly if it
is plain. -/
theorem wordsFrom_eq_singleton_iff {w : Option Text} {t : Text}
    (hw : w = none → t ≠ [] ∧ t.head? ≠ some '#') :
    wordsFrom .bare w t = some [w.getD [] ++ t] ↔ ∀ c ∈ t, IsPlain c := by
  induction t generalizing w with
  | nil =>
    cases w with
    | none => exact absurd rfl (hw rfl).1
    | some w =>
      rw [Option.getD_some, List.append_nil]
      exact iff_of_true rfl (List.forall_mem_nil _)
  | cons c t ih =>
    rw [List.forall_mem_cons]
    by_cases hc : IsPlain c
    · have hcomment : w = none → c ≠ '#' := fun h heq => (hw h).2 (congrArg some heq)
      have hopen : extend w c = none → t ≠ [] ∧ t.head? ≠ some '#' :=
        fun h => absurd h (Option.some_ne_none _)
      rw [wordsFrom_cons_of_isPlain hc hcomment, List.append_cons, and_iff_right hc]
      exact ih hopen
    · refine iff_of_false (fun h => ?_) (fun h => hc h.1)
      -- the character is left out, so the words are too short
      have hlength := (wordsFrom_cons_sublist hc h).length_le
      rw [List.flatten_singleton] at hlength
      simp only [List.length_append, List.length_cons] at hlength
      omega

/-! ### Tildes in plain texts -/

/-- The name of a variable. -/
def IsName (t : Text) : Prop := ∃ c rest, t = c :: rest ∧ isNameStart c ∧ ∀ d ∈ rest, isNameChar d

/-- The text assigns a value in which a tilde begins a part: the first, or one after a colon. -/
def AssignsTilde (t : Text) : Prop :=
  ∃ name value after, t = name ++ '=' :: (value ++ '~' :: after) ∧ IsName name ∧
    (value = [] ∨ value.getLast? = some ':')

theorem not_assignsTilde_of_not_mem {t : Text} (h : '=' ∉ t) : ¬ AssignsTilde t := by
  rintro ⟨name, value, after, rfl, -⟩
  exact h (List.mem_append_right name List.mem_cons_self)

section Tilde

variable {c : Char} {t : Text}

theorem expandsTilde_cons (h : IsPlain c) (p : Place) (t : Text) :
    expandsTilde .bare p (c :: t) ↔ c = '~' ∧ p.expands ∨ expandsTilde .bare (p.goOn c) t := by
  have hplace : p.next .bare c = p.goOn c := by
    have hbackslash : c ≠ '\\' := fun hc => h.2.1 (hc ▸ by decide)
    unfold Place.next
    dsimp only
    rw [if_neg h.1, if_neg hbackslash, if_neg h.2.1]
  rw [expandsTilde, next_of_isPlain h, hplace]
  simp

theorem not_expandsTilde_other (h : ∀ c ∈ t, IsPlain c) : ¬ expandsTilde .bare .other t := by
  induction t with
  | nil => exact Bool.false_ne_true
  | cons c t ih =>
    rw [List.forall_mem_cons] at h
    rw [expandsTilde_cons h.1]
    rintro (⟨-, hother⟩ | hrest)
    · exact absurd hother Bool.false_ne_true
    · exact ih h.2 hrest

theorem expandsTilde_value_iff (h : ∀ c ∈ t, IsPlain c) (begins : Bool) :
    expandsTilde .bare (.value begins) t ↔ ∃ value after, t = value ++ '~' :: after ∧
      (value = [] ∧ begins ∨ value.getLast? = some ':') := by
  induction t generalizing begins with
  | nil =>
    refine iff_of_false Bool.false_ne_true ?_
    rintro ⟨value, after, ht, -⟩
    exact absurd ht.symm (List.append_ne_nil_of_right_ne_nil value (List.cons_ne_nil _ after))
  | cons c t ih =>
    rw [List.forall_mem_cons] at h
    rw [expandsTilde_cons h.1]
    show c = '~' ∧ begins ∨ expandsTilde .bare (.value (c = ':')) t ↔ _
    rw [ih h.2]
    constructor
    · rintro (⟨rfl, hbegins⟩ | ⟨value, after, rfl, hvalue⟩)
      · exact ⟨[], t, rfl, Or.inl ⟨rfl, hbegins⟩⟩
      · refine ⟨c :: value, after, rfl, Or.inr ?_⟩
        rcases hvalue with ⟨rfl, hcolon⟩ | hlast
        · rw [of_decide_eq_true hcolon]
          rfl
        · rw [List.getLast?_cons, hlast]
          rfl
    · rintro ⟨value, after, ht, hvalue⟩
      cases value with
      | nil =>
        obtain ⟨rfl, rfl⟩ := List.cons.inj ht
        rcases hvalue with ⟨-, hbegins⟩ | hlast
        · exact Or.inl ⟨rfl, hbegins⟩
        · exact absurd hlast nofun
      | cons d value =>
        obtain ⟨rfl, rfl⟩ := List.cons.inj ht
        refine Or.inr ⟨value, after, rfl, ?_⟩
        rcases hvalue with ⟨hnil, -⟩ | hlast
        · exact absurd hnil (List.cons_ne_nil c value)
        · cases value with
          | nil => exact Or.inl ⟨rfl, decide_eq_true (Option.some.inj hlast)⟩
          | cons e value =>
            rw [List.getLast?_cons_cons] at hlast
            exact Or.inr hlast

theorem expandsTilde_name_iff (h : ∀ c ∈ t, IsPlain c) :
    expandsTilde .bare .name t ↔ ∃ rest value after, t = rest ++ '=' :: (value ++ '~' :: after) ∧
      (∀ d ∈ rest, isNameChar d) ∧ (value = [] ∨ value.getLast? = some ':') := by
  induction t with
  | nil =>
    refine iff_of_false Bool.false_ne_true ?_
    rintro ⟨rest, value, after, ht, -⟩
    exact absurd ht.symm (List.append_ne_nil_of_right_ne_nil rest (List.cons_ne_nil _ _))
  | cons c t ih =>
    rw [List.forall_mem_cons] at h
    have hplace : ¬ (c = '~' ∧ Place.name.expands) := fun hc => absurd hc.2 Bool.false_ne_true
    rw [expandsTilde_cons h.1, or_iff_right hplace]
    unfold Place.goOn
    dsimp only
    by_cases hassign : c = '='
    · subst hassign
      rw [if_pos rfl, expandsTilde_value_iff h.2]
      constructor
      · rintro ⟨value, after, rfl, hvalue⟩
        exact ⟨[], value, after, rfl, nofun, hvalue.imp_left And.left⟩
      · rintro ⟨rest, value, after, ht, hrest, hvalue⟩
        cases rest with
        | nil =>
          exact ⟨value, after, (List.cons.inj ht).2, hvalue.imp_left fun hnil => ⟨hnil, rfl⟩⟩
        | cons d rest =>
          obtain ⟨rfl, -⟩ := List.cons.inj ht
          exact absurd (hrest '=' List.mem_cons_self) (by decide)
    · rw [if_neg hassign]
      by_cases hname : isNameChar c
      · rw [if_pos hname, ih h.2]
        constructor
        · rintro ⟨rest, value, after, rfl, hrest, hvalue⟩
          exact ⟨c :: rest, value, after, rfl, List.forall_mem_cons.2 ⟨hname, hrest⟩, hvalue⟩
        · rintro ⟨rest, value, after, ht, hrest, hvalue⟩
          cases rest with
          | nil => exact absurd (List.cons.inj ht).1 hassign
          | cons d rest =>
            exact ⟨rest, value, after, (List.cons.inj ht).2, (List.forall_mem_cons.1 hrest).2, hvalue⟩
      · rw [if_neg hname]
        refine iff_of_false (not_expandsTilde_other h.2) ?_
        rintro ⟨rest, value, after, ht, hrest, -⟩
        cases rest with
        | nil => exact hassign (List.cons.inj ht).1
        | cons d rest =>
          obtain ⟨rfl, -⟩ := List.cons.inj ht
          exact hname (hrest c List.mem_cons_self)

/-- Where a text cannot begin with a tilde, only an assignment has one that stands for a directory. -/
theorem expandsTilde_iff (h : ∀ c ∈ t, IsPlain c) (hhead : t.head? ≠ some '~') :
    expandsTilde .bare .start t ↔ AssignsTilde t := by
  cases t with
  | nil =>
    refine iff_of_false Bool.false_ne_true ?_
    exact not_assignsTilde_of_not_mem List.not_mem_nil
  | cons c t =>
    rw [List.forall_mem_cons] at h
    have hfirst : ¬ (c = '~' ∧ Place.start.expands) := fun hc => hhead (congrArg some hc.1)
    rw [expandsTilde_cons h.1, or_iff_right hfirst]
    unfold Place.goOn
    dsimp only
    by_cases hname : isNameStart c
    · rw [if_pos hname, expandsTilde_name_iff h.2]
      constructor
      · rintro ⟨rest, value, after, rfl, hrest, hvalue⟩
        exact ⟨c :: rest, value, after, rfl, ⟨c, rest, rfl, hname, hrest⟩, hvalue⟩
      · rintro ⟨name, value, after, ht, ⟨d, rest, rfl, -, hrest⟩, hvalue⟩
        exact ⟨rest, value, after, (List.cons.inj ht).2, hrest, hvalue⟩
    · rw [if_neg hname]
      refine iff_of_false (not_expandsTilde_other h.2) ?_
      rintro ⟨name, value, after, ht, ⟨d, rest, rfl, hd, -⟩, -⟩
      obtain ⟨rfl, -⟩ := List.cons.inj ht
      exact hname hd

end Tilde

/-- **A text as it stands is one word exactly if it is plain** and assigns no tilde, where it can be
neither a comment nor a tilde itself. -/
theorem words_eq_singleton_iff {t : Text} (hne : t ≠ []) (hcomment : t.head? ≠ some '#')
    (htilde : t.head? ≠ some '~') :
    words t = some [t] ↔ (∀ c ∈ t, IsPlain c) ∧ ¬ AssignsTilde t := by
  have hread : wordsFrom .bare none t = some [t] ↔ ∀ c ∈ t, IsPlain c :=
    wordsFrom_eq_singleton_iff fun _ => ⟨hne, hcomment⟩
  unfold words
  by_cases hplain : ∀ c ∈ t, IsPlain c
  · rw [← expandsTilde_iff hplain htilde]
    by_cases hexpands : expandsTilde .bare .start t
    · rw [if_pos hexpands]
      exact iff_of_false nofun fun h => h.2 hexpands
    · rw [if_neg hexpands]
      exact iff_of_true (hread.2 hplain) ⟨hplain, hexpands⟩
  · refine iff_of_false (fun h => ?_) fun h => hplain h.1
    split at h
    · exact absurd h nofun
    · exact hplain (hread.1 h)

end ShellDispatch.Shell
