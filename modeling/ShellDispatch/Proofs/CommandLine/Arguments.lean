import ShellDispatch.CommandLine.DispatchArguments
import ShellDispatch.CommandLine.QueryArguments
import ShellDispatch.Proofs.Traversal

/-!
# Command lines that ask for a run

For each tool, `Accepts a words b` says by rules which words lead from the arguments `a` to a run
with the arguments `b` (`ofWords_eq_run_iff`): one rule for each way to take the next word. What the
rules keep holds of every accepted command line:

1. A log file that is named first is the log file of the run, and the words after it give all other
   arguments as before (`ofWords_logFileWord`).
2. A query has a subcommand only if it has a script (`QueryArguments.ordered_of_ofWords`).
3. Words at the end of a query that has words are added to these (`QueryArguments.ofWords_append`).
-/

namespace ShellDispatch.CommandLine

namespace DispatchArguments

/-- The words lead from the arguments `a` to a run with the arguments `b`. -/
inductive Accepts : DispatchArguments → List Text → DispatchArguments → Prop where
  | done (a : DispatchArguments) : Accepts a [] a
  | rest {a b : DispatchArguments} {word : Text} {words : List Text}
    (hword : Word.ofText word = .endOfOptions) (h : a.addFiles words = .ok b) :
    Accepts a (word :: words) b
  | file {a next b : DispatchArguments} {word path : Text} {words : List Text}
    (hword : Word.ofText word = .plain path) (hnext : a.addFile path = .ok next)
    (h : Accepts next words b) : Accepts a (word :: words) b
  | joined {a next b : DispatchArguments} {word name value : Text} {setting : Setting}
    {words : List Text} (hword : Word.ofText word = .long name (some value))
    (hname : name ≠ "help".toList) (hsetting : Setting.ofName? name = some setting)
    (hnext : a.set setting value = .ok next) (h : Accepts next words b) : Accepts a (word :: words) b
  | separate {a next b : DispatchArguments} {word name second value : Text} {setting : Setting}
    {words : List Text} (hword : Word.ofText word = .long name none)
    (hname : name ≠ "help".toList) (hsetting : Setting.ofName? name = some setting)
    (hvalue : Word.ofText second = .plain value) (hnext : a.set setting value = .ok next)
    (h : Accepts next words b) : Accepts a (word :: second :: words) b

variable {a b next : DispatchArguments} {words : List Text} {p : Text}

theorem accepts_of_ofWords (h : a.ofWords words = .ok (.run b)) : Accepts a words b := by
  fun_induction ofWords a words with
  | case1 a =>
    obtain rfl := Request.run.inj (Except.ok.inj h)
    exact .done a
  | case2 a word words hword =>
    obtain ⟨c, hc, hrun⟩ := map_eq_ok_iff.1 h
    obtain rfl := Request.run.inj hrun
    exact .rest hword hc
  | case3 a word words path hword ih =>
    obtain ⟨next, hnext, hrun⟩ := bind_eq_ok_iff.1 h
    exact .file hword hnext (ih next hrun)
  | case9 a word name hname setting value words hsetting hword ih =>
    obtain ⟨next, hnext, hrun⟩ := bind_eq_ok_iff.1 h
    exact .joined hword hname hsetting hnext (ih next hrun)
  | case11 a word name hname setting second words hsetting value hvalue hword ih =>
    obtain ⟨next, hnext, hrun⟩ := bind_eq_ok_iff.1 h
    exact .separate hword hname hsetting hvalue hnext (ih next hrun)
  -- All other words are refused or ask for help.
  | _ => exact absurd h nofun

theorem ofWords_of_accepts (h : Accepts a words b) : a.ofWords words = .ok (.run b) := by
  induction h with
  | done a => rfl
  | rest hword h =>
    rw [ofWords, hword, h]
    rfl
  | file hword hnext h ih =>
    rw [ofWords, hword]
    dsimp only
    rw [hnext]
    exact ih
  | joined hword hname hsetting hnext h ih =>
    rw [ofWords, hword]
    dsimp only
    rw [if_neg hname, hsetting]
    dsimp only
    rw [hnext]
    exact ih
  | separate hword hname hsetting hvalue hnext h ih =>
    rw [ofWords, hword]
    dsimp only
    rw [if_neg hname, hsetting]
    dsimp only
    rw [hvalue]
    dsimp only
    rw [hnext]
    exact ih

theorem ofWords_eq_run_iff : a.ofWords words = .ok (.run b) ↔ Accepts a words b :=
  ⟨accepts_of_ofWords, ofWords_of_accepts⟩

/-! ### A log file -/

/-- The arguments with a log file. -/
def withLogFile (p : Text) (a : DispatchArguments) : DispatchArguments := { a with logFile := some p }

theorem addFile_withLogFile (p path : Text) (a : DispatchArguments) :
    (a.withLogFile p).addFile path = (a.addFile path).map (withLogFile p) := by
  unfold addFile
  split <;> rfl

theorem addFiles_withLogFile (p : Text) (paths : List Text) (a : DispatchArguments) :
    (a.withLogFile p).addFiles paths = (a.addFiles paths).map (withLogFile p) := by
  induction paths generalizing a with
  | nil => rfl
  | cons path paths ih =>
    rw [addFiles, addFiles, addFile_withLogFile]
    cases a.addFile path with
    | error e => rfl
    | ok next => exact ih next

theorem set_withLogFile (p : Text) {setting : Setting} (h : setting ≠ .logFile) (value : Text)
    (a : DispatchArguments) :
    (a.withLogFile p).set setting value = (a.set setting value).map (withLogFile p) := by
  cases setting with
  | logFile => exact absurd rfl h
  | baseCommand =>
    unfold set withLogFile
    dsimp only
    split <;> rfl
  | helpPreamble =>
    unfold set withLogFile
    dsimp only
    split <;> rfl
  | exitCodeOnHelp =>
    unfold set withLogFile
    dsimp only
    split <;> rfl

theorem logFile_of_addFile {path : Text} (h : a.addFile path = .ok b) : b.logFile = a.logFile := by
  unfold addFile at h
  split at h
  · exact absurd h nofun
  · obtain rfl := Except.ok.inj h
    rfl

theorem logFile_of_addFiles {paths : List Text} (h : a.addFiles paths = .ok b) :
    b.logFile = a.logFile := by
  induction paths generalizing a with
  | nil =>
    obtain rfl := Except.ok.inj h
    rfl
  | cons path paths ih =>
    rw [addFiles] at h
    obtain ⟨next, hnext, h⟩ := bind_eq_ok_iff.1 h
    rw [ih h, logFile_of_addFile hnext]

/-- A setting leaves the log file as it is, or it is the log file. -/
theorem logFile_of_set {setting : Setting} {value : Text} (h : a.set setting value = .ok b) :
    (setting ≠ .logFile ∧ b.logFile = a.logFile) ∨ b.logFile = some value := by
  cases setting with
  | baseCommand =>
    simp only [set] at h
    split at h
    · exact absurd h nofun
    · obtain rfl := Except.ok.inj h
      exact Or.inl ⟨nofun, rfl⟩
  | helpPreamble =>
    simp only [set] at h
    split at h
    · exact absurd h nofun
    · obtain rfl := Except.ok.inj h
      exact Or.inl ⟨nofun, rfl⟩
  | exitCodeOnHelp =>
    simp only [set] at h
    split at h
    · obtain rfl := Except.ok.inj h
      exact Or.inl ⟨nofun, rfl⟩
    · exact absurd h nofun
  | logFile =>
    simp only [set] at h
    split at h
    · exact absurd h nofun
    · obtain rfl := Except.ok.inj h
      exact Or.inr rfl

theorem Accepts.logFile_eq_none (h : Accepts a words b) (hb : b.logFile = none) :
    a.logFile = none := by
  induction h with
  | done a => exact hb
  | rest hword h => rw [← logFile_of_addFiles h, hb]
  | file hword hnext h ih => rw [← logFile_of_addFile hnext, ih hb]
  | joined hword hname hsetting hnext h ih =>
    rcases logFile_of_set hnext with ⟨-, hsame⟩ | hlog
    · rw [← hsame, ih hb]
    · exact absurd (hlog.symm.trans (ih hb)) nofun
  | separate hword hname hsetting hvalue hnext h ih =>
    rcases logFile_of_set hnext with ⟨-, hsame⟩ | hlog
    · rw [← hsame, ih hb]
    · exact absurd (hlog.symm.trans (ih hb)) nofun

/-- A setting on the way to arguments without a log file is not the log file, which would stay. -/
theorem Accepts.setting_ne {setting : Setting} {value : Text} (hnext : a.set setting value = .ok next)
    (h : Accepts next words b) (hb : b.logFile = none) : setting ≠ .logFile := by
  rcases logFile_of_set hnext with ⟨hne, -⟩ | hlog
  · exact hne
  · exact absurd (hlog.symm.trans (h.logFile_eq_none hb)) nofun

/-- Words that name no log file mean the same after one was named. -/
theorem Accepts.withLogFile (h : Accepts a words b) (hb : b.logFile = none) (p : Text) :
    Accepts (a.withLogFile p) words (b.withLogFile p) := by
  induction h with
  | done a => exact .done _
  | rest hword h =>
    refine .rest hword ?_
    rw [addFiles_withLogFile, h]
    rfl
  | file hword hnext h ih =>
    refine .file hword ?_ (ih hb)
    rw [addFile_withLogFile, hnext]
    rfl
  | joined hword hname hsetting hnext h ih =>
    refine .joined hword hname hsetting ?_ (ih hb)
    rw [set_withLogFile p (Accepts.setting_ne hnext h hb), hnext]
    rfl
  | separate hword hname hsetting hvalue hnext h ih =>
    refine .separate hword hname hsetting hvalue ?_ (ih hb)
    rw [set_withLogFile p (Accepts.setting_ne hnext h hb), hnext]
    rfl

end DispatchArguments

namespace QueryOption

theorem ofLong_eq_logFile_iff {name : Text} {value v : Option Text} :
    ofLong name value = .logFile v ↔ name = "log-file".toList ∧ value = v := by
  have hne : "log-file".toList ≠ "help".toList := by decide +kernel
  unfold ofLong
  constructor
  · intro h
    split at h
    · split at h
      · exact absurd h nofun
      · exact absurd h nofun
    · split at h
      · next hname => exact ⟨hname, logFile.inj h⟩
      · exact absurd h nofun
  · rintro ⟨rfl, rfl⟩
    rw [if_neg hne, if_pos rfl]

end QueryOption

namespace QueryArguments

/-- The word begins the words of the query where these are awaited. -/
def Begins (word : Text) : Prop :=
  match Word.ofText word with
  | .endOfOptions => False
  | .plain _ => True
  | .short letters => ¬ letters.all (· = 'h')
  | .long name value => QueryOption.ofLong name value = .unknown

/-- The words lead from the arguments `a` to a run with the arguments `b`. -/
inductive Accepts : QueryArguments → List Text → QueryArguments → Prop where
  | done (a : QueryArguments) : Accepts a [] a
  | rest {a b : QueryArguments} {word : Text} {words : List Text}
    (hword : Word.ofText word = .endOfOptions) (h : a.addRest words = .ok b) :
    Accepts a (word :: words) b
  | words {a : QueryArguments} {word : Text} {words : List Text} (ha : a.awaitsWords)
    (hword : Begins word) : Accepts a (word :: words) { a with words := word :: words }
  | plain {a next b : QueryArguments} {word t : Text} {words : List Text} (ha : ¬ a.awaitsWords)
    (hword : Word.ofText word = .plain t) (hnext : a.addPlain t = .ok next)
    (h : Accepts next words b) : Accepts a (word :: words) b
  | joined {a next b : QueryArguments} {word value : Text} {words : List Text}
    (hword : Word.ofText word = .long "log-file" (some value))
    (hnext : a.setLogFile value = .ok next) (h : Accepts next words b) : Accepts a (word :: words) b
  | separate {a next b : QueryArguments} {word value : Text} {words : List Text}
    (hword : Word.ofText word = .long "log-file" none) (hvalue : a.isValue value)
    (hnext : a.setLogFile value = .ok next) (h : Accepts next words b) :
    Accepts a (word :: value :: words) b

variable {a b next : QueryArguments} {words : List Text} {p : Text}

theorem accepts_of_ofWords (h : a.ofWords words = .ok (.run b)) : Accepts a words b := by
  fun_induction ofWords a words with
  | case1 a =>
    obtain rfl := Request.run.inj (Except.ok.inj h)
    exact .done a
  | case2 a word words hword =>
    obtain ⟨c, hc, hrun⟩ := map_eq_ok_iff.1 h
    obtain rfl := Request.run.inj hrun
    exact .rest hword hc
  | case3 a word words t hword ha =>
    obtain rfl := Request.run.inj (Except.ok.inj h)
    refine .words ha ?_
    unfold Begins
    rw [hword]
    trivial
  | case4 a word words t hword ha ih =>
    obtain ⟨next, hnext, hrun⟩ := bind_eq_ok_iff.1 h
    exact .plain ha hword hnext (ih next hrun)
  | case6 a word words letters hword ha hletters =>
    obtain rfl := Request.run.inj (Except.ok.inj h)
    refine .words ha ?_
    unfold Begins
    rw [hword]
    exact hletters
  | case11 a word name value hword words hname ha =>
    obtain rfl := Request.run.inj (Except.ok.inj h)
    refine .words ha ?_
    unfold Begins
    rw [hword]
    exact hname
  | case13 a word name value hword v words hname ih =>
    obtain ⟨rfl, rfl⟩ := QueryOption.ofLong_eq_logFile_iff.1 hname
    obtain ⟨next, hnext, hrun⟩ := bind_eq_ok_iff.1 h
    exact .joined hword hnext (ih next hrun)
  | case15 a word name value hword second words hname hvalue ih =>
    obtain ⟨rfl, rfl⟩ := QueryOption.ofLong_eq_logFile_iff.1 hname
    obtain ⟨next, hnext, hrun⟩ := bind_eq_ok_iff.1 h
    exact .separate hword hvalue hnext (ih next hrun)
  | _ => exact absurd h nofun

theorem ofWords_words {word : Text} (ha : a.awaitsWords) (hword : Begins word) :
    a.ofWords (word :: words) = .ok (.run { a with words := word :: words }) := by
  unfold Begins at hword
  rw [ofWords]
  cases hform : Word.ofText word with
  | endOfOptions => exact absurd hword (by rw [hform]; exact id)
  | plain t => exact if_pos ha
  | short letters =>
    rw [hform] at hword
    dsimp only
    rw [if_pos ha, if_neg hword]
  | long name value =>
    rw [hform] at hword
    dsimp only at hword ⊢
    rw [hword]
    exact if_pos ha

theorem ofWords_of_accepts (h : Accepts a words b) : a.ofWords words = .ok (.run b) := by
  induction h with
  | done a => rfl
  | rest hword h =>
    rw [ofWords, hword, h]
    rfl
  | words ha hword => exact ofWords_words ha hword
  | plain ha hword hnext h ih =>
    rw [ofWords, hword]
    dsimp only
    rw [if_neg ha, hnext]
    exact ih
  | joined hword hnext h ih =>
    rw [ofWords, hword]
    dsimp only
    rw [QueryOption.ofLong_eq_logFile_iff.2 ⟨rfl, rfl⟩]
    dsimp only
    rw [hnext]
    exact ih
  | separate hword hvalue hnext h ih =>
    rw [ofWords, hword]
    dsimp only
    rw [QueryOption.ofLong_eq_logFile_iff.2 ⟨rfl, rfl⟩]
    dsimp only
    rw [if_pos hvalue, hnext]
    exact ih

theorem ofWords_eq_run_iff : a.ofWords words = .ok (.run b) ↔ Accepts a words b :=
  ⟨accepts_of_ofWords, ofWords_of_accepts⟩

/-! ### Order -/

/-- A subcommand only comes after a script. -/
def Ordered (a : QueryArguments) : Prop := a.script = none → a.subcommand = none

theorem ordered_of_addPlain {t : Text} (hnext : a.addPlain t = .ok next) : next.Ordered := by
  unfold addPlain at hnext
  split at hnext
  · next hscript =>
    split at hnext
    · exact absurd hnext nofun
    · obtain rfl := Except.ok.inj hnext
      exact fun hnone => absurd hnone nofun
  · next script hscript =>
    obtain rfl := Except.ok.inj hnext
    exact fun hnone => absurd (hscript.symm.trans hnone) nofun

theorem Ordered.addRest (ha : a.Ordered) (hb : a.addRest words = .ok b) : b.Ordered := by
  induction words generalizing a with
  | nil =>
    obtain rfl := Except.ok.inj hb
    exact ha
  | cons t ts ih =>
    rw [QueryArguments.addRest] at hb
    split at hb
    · obtain rfl := Except.ok.inj hb
      exact ha
    · obtain ⟨next, hnext, hb⟩ := bind_eq_ok_iff.1 hb
      exact ih (ordered_of_addPlain hnext) hb

theorem setLogFile_eq_ok_iff {value : Text} :
    a.setLogFile value = .ok next ↔
      a.logFile = none ∧ value ≠ [] ∧ next = { a with logFile := some value } := by
  unfold setLogFile
  split
  · next h =>
    refine ⟨nofun, ?_⟩
    rintro ⟨hlog, hvalue, -⟩
    rcases h with h | h
    · rw [hlog] at h
      exact absurd h Bool.false_ne_true
    · exact absurd h hvalue
  · next h =>
    rw [not_or, Bool.not_eq_true, Option.isSome_eq_false_iff, Option.isNone_iff_eq_none] at h
    constructor
    · intro hnext
      exact ⟨h.1, h.2, (Except.ok.inj hnext).symm⟩
    · rintro ⟨-, -, rfl⟩
      rfl

theorem Accepts.ordered (h : Accepts a words b) (ha : a.Ordered) : b.Ordered := by
  induction h with
  | done a => exact ha
  | rest hword h => exact ha.addRest h
  | words hawaits hword => exact ha
  | plain hawaits hword hnext h ih => exact ih (ordered_of_addPlain hnext)
  | joined hword hnext h ih =>
    obtain ⟨-, -, rfl⟩ := setLogFile_eq_ok_iff.1 hnext
    exact ih ha
  | separate hword hvalue hnext h ih =>
    obtain ⟨-, -, rfl⟩ := setLogFile_eq_ok_iff.1 hnext
    exact ih ha

/-- Arguments from a command line have a subcommand only if they have a script. -/
theorem ordered_of_ofWords (h : ofWords {} words = .ok (.run b)) : b.Ordered :=
  (ofWords_eq_run_iff.1 h).ordered fun _ => rfl

/-! ### More words -/

/-- The arguments with more words of the query. -/
def addWords (a : QueryArguments) (extra : List Text) : QueryArguments :=
  { a with words := a.words ++ extra }

theorem words_of_addPlain {t : Text} (h : a.addPlain t = .ok next) : next.words = a.words := by
  unfold addPlain at h
  split at h
  · split at h
    · exact absurd h nofun
    · obtain rfl := Except.ok.inj h
      rfl
  · obtain rfl := Except.ok.inj h
    rfl

theorem addRest_append (h : a.addRest words = .ok b) (ha : a.words = []) (hb : b.words ≠ [])
    (extra : List Text) : a.addRest (words ++ extra) = .ok (b.addWords extra) := by
  induction words generalizing a with
  | nil =>
    obtain rfl := Except.ok.inj h
    exact absurd ha hb
  | cons t ts ih =>
    rw [List.cons_append, addRest]
    rw [addRest] at h
    split
    · next hawaits =>
      rw [if_pos hawaits] at h
      obtain rfl := Except.ok.inj h
      rfl
    · next hawaits =>
      rw [if_neg hawaits] at h
      obtain ⟨next, hnext, h⟩ := bind_eq_ok_iff.1 h
      rw [hnext]
      exact ih h ((words_of_addPlain hnext).trans ha)

/-- Once the words of the query have begun, every word belongs to them. -/
theorem Accepts.append (h : Accepts a words b) (ha : a.words = []) (hb : b.words ≠ [])
    (extra : List Text) : Accepts a (words ++ extra) (b.addWords extra) := by
  induction h with
  | done a => exact absurd ha hb
  | rest hword h => exact .rest hword (addRest_append h ha hb extra)
  | words hawaits hword => exact .words hawaits hword
  | plain hawaits hword hnext h ih =>
    exact .plain hawaits hword hnext (ih ((words_of_addPlain hnext).trans ha) hb)
  | joined hword hnext h ih =>
    have hsame := (setLogFile_eq_ok_iff.1 hnext).2.2
    subst hsame
    exact .joined hword hnext (ih ha hb)
  | separate hword hvalue hnext h ih =>
    have hsame := (setLogFile_eq_ok_iff.1 hnext).2.2
    subst hsame
    exact .separate hword hvalue hnext (ih ha hb)

theorem ofWords_append (h : ofWords {} words = .ok (.run b)) (hb : b.words ≠ [])
    (extra : List Text) : ofWords {} (words ++ extra) = .ok (.run (b.addWords extra)) :=
  ofWords_eq_run_iff.2 ((ofWords_eq_run_iff.1 h).append rfl hb extra)

/-! ### A log file -/

/-- The arguments with a log file. -/
def withLogFile (p : Text) (a : QueryArguments) : QueryArguments := { a with logFile := some p }

theorem addPlain_withLogFile (p t : Text) (a : QueryArguments) :
    (a.withLogFile p).addPlain t = (a.addPlain t).map (withLogFile p) := by
  obtain ⟨script, subcommand, words, logFile⟩ := a
  cases script with
  | none =>
    show (if t = [] then _ else _) = Except.map _ (if t = [] then _ else _)
    split <;> rfl
  | some script => rfl

theorem addRest_withLogFile (p : Text) (words : List Text) (a : QueryArguments) :
    (a.withLogFile p).addRest words = (a.addRest words).map (withLogFile p) := by
  induction words generalizing a with
  | nil => rfl
  | cons t ts ih =>
    rw [addRest, addRest, addPlain_withLogFile]
    by_cases ha : a.awaitsWords
    · rw [if_pos ha]
      exact if_pos ha
    · rw [if_neg ha]
      refine (if_neg ha).trans ?_
      cases a.addPlain t with
      | error e => rfl
      | ok next => exact ih next

theorem logFile_of_addPlain {t : Text} (h : a.addPlain t = .ok next) :
    next.logFile = a.logFile := by
  unfold addPlain at h
  split at h
  · split at h
    · exact absurd h nofun
    · obtain rfl := Except.ok.inj h
      rfl
  · obtain rfl := Except.ok.inj h
    rfl

theorem logFile_of_addRest (h : a.addRest words = .ok b) : b.logFile = a.logFile := by
  induction words generalizing a with
  | nil =>
    obtain rfl := Except.ok.inj h
    rfl
  | cons t ts ih =>
    rw [addRest] at h
    split at h
    · obtain rfl := Except.ok.inj h
      rfl
    · obtain ⟨next, hnext, h⟩ := bind_eq_ok_iff.1 h
      rw [ih h, logFile_of_addPlain hnext]

/-- A log file stays once it is given. -/
theorem Accepts.logFile_ne_none (h : Accepts a words b) (ha : a.logFile ≠ none) :
    b.logFile ≠ none := by
  induction h with
  | done a => exact ha
  | rest hword h => rwa [logFile_of_addRest h]
  | words hawaits hword => exact ha
  | plain hawaits hword hnext h ih =>
    apply ih
    rwa [logFile_of_addPlain hnext]
  | joined hword hnext h ih => exact absurd (setLogFile_eq_ok_iff.1 hnext).1 ha
  | separate hword hvalue hnext h ih => exact absurd (setLogFile_eq_ok_iff.1 hnext).1 ha

/-- Words that name no log file mean the same after one was named. -/
theorem Accepts.withLogFile (h : Accepts a words b) (hb : b.logFile = none) (p : Text) :
    Accepts (a.withLogFile p) words (b.withLogFile p) := by
  induction h with
  | done a => exact .done _
  | rest hword h =>
    refine .rest hword ?_
    rw [addRest_withLogFile, h]
    rfl
  | words ha hword => exact .words ha hword
  | plain ha hword hnext h ih =>
    refine .plain ha hword ?_ (ih hb)
    rw [addPlain_withLogFile, hnext]
    rfl
  | joined hword hnext h ih =>
    obtain ⟨-, -, rfl⟩ := setLogFile_eq_ok_iff.1 hnext
    exact absurd hb (h.logFile_ne_none nofun)
  | separate hword hvalue hnext h ih =>
    obtain ⟨-, -, rfl⟩ := setLogFile_eq_ok_iff.1 hnext
    exact absurd hb (h.logFile_ne_none nofun)

end QueryArguments

end ShellDispatch.CommandLine
