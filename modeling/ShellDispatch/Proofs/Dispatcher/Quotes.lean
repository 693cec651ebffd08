import ShellDispatch.Proofs.Dispatcher.Lines
import ShellDispatch.Proofs.Dispatcher.Targets

/-!
# Texts from outside stay in their quotes

The shell's quoting is followed through a dispatcher script part by part. Parts are `Balanced` if
they lead from outside quotes to outside quotes and each quoted word among them begins outside
quotes. Balanced parts can be put one after the other, so the parts of a whole script are balanced
(`balanced_pieces`), and each text from outside is scanned as a quoted text (`generate_quotes`).

The names of functions are the only texts from outside that are not quoted: a quote or a backslash
in one of them would change how everything behind it is read.
-/

namespace ShellDispatch.Dispatcher

open Shell (Mode)

/-! ## Quoted words among parts -/

/-- The text that a part quotes. -/
def Piece.quoted? : Piece → Option Text
  | quoted t => some t
  | _ => none

theorem Piece.quoted?_eq_some_iff {p : Piece} {t : Text} : p.quoted? = some t ↔ p = .quoted t := by
  cases p with
  | code u => simp [quoted?]
  | quoted u => simp [quoted?]
  | call u => simp [quoted?]

/-- Each quoted word among the parts begins outside quotes, if the first part is read in the given
mode. -/
def QuotesBare : Mode → List Piece → Prop
  | _, [] => True
  | m, p :: ps => (p.quoted?.isSome → m = .bare) ∧ QuotesBare (m.after p.text) ps

theorem quotesBare_append {m : Mode} {ps qs : List Piece} :
    QuotesBare m (ps ++ qs) ↔
      QuotesBare m ps ∧ QuotesBare (m.after (ps.flatMap Piece.text)) qs := by
  induction ps generalizing m with
  | nil => exact ⟨fun h => ⟨trivial, h⟩, And.right⟩
  | cons p ps ih =>
    rw [List.cons_append, QuotesBare, QuotesBare, ih, List.flatMap_cons, Mode.after_append,
      and_assoc]

/-- Without quoted words among the parts there is nothing to ask of the mode. -/
theorem quotesBare_of_quoted?_eq_none {ps : List Piece} (h : ∀ p ∈ ps, p.quoted? = none) (m : Mode) :
    QuotesBare m ps := by
  induction ps generalizing m with
  | nil => trivial
  | cons p ps ih =>
    obtain ⟨hp, hps⟩ := List.forall_mem_cons.1 h
    exact ⟨fun hq => by simp [hp] at hq, ih hps _⟩

/-- A quoted word among parts is scanned as such, wherever it stands among them. -/
theorem scan_flatMap_text_of_quotesBare {before after : List Piece} {t : Text}
    (h : QuotesBare .bare (before ++ .quoted t :: after)) :
    Mode.bare.scan ((before ++ .quoted t :: after).flatMap Piece.text) =
      Mode.bare.scan (before.flatMap Piece.text) ++ Shell.scannedQuote t ++
        Mode.bare.scan (after.flatMap Piece.text) := by
  have hbare : Mode.bare.after (before.flatMap Piece.text) = .bare :=
    (quotesBare_append.1 h).2.1 rfl
  rw [List.flatMap_append, List.flatMap_cons, Piece.text_quoted, Mode.scan_append, hbare,
    Mode.scan_append, Shell.after_quote, Shell.scan_quote, List.append_assoc]

/-! ## Balanced parts -/

/-- The parts lead from outside quotes to outside quotes, and so does what stands before each quoted
word among them. -/
structure Balanced (ps : List Piece) : Prop where
  quotesBare : QuotesBare .bare ps
  after_eq : Mode.bare.after (ps.flatMap Piece.text) = .bare

theorem balanced_append {ps qs : List Piece} (hp : Balanced ps) (hq : Balanced qs) :
    Balanced (ps ++ qs) where
  quotesBare := by
    rw [quotesBare_append, hp.after_eq]
    exact ⟨hp.quotesBare, hq.quotesBare⟩
  after_eq := by rw [List.flatMap_append, Mode.after_append, hp.after_eq, hq.after_eq]

theorem balanced_nil : Balanced [] := ⟨trivial, rfl⟩

theorem balanced_cons {p : Piece} {ps : List Piece} (hp : Mode.bare.after p.text = .bare)
    (hps : Balanced ps) : Balanced (p :: ps) where
  quotesBare := ⟨fun _ => rfl, by rw [hp]; exact hps.quotesBare⟩
  after_eq := by rw [List.flatMap_cons, Mode.after_append, hp, hps.after_eq]

theorem balanced_flatMap {α : Type} {parts : α → List Piece} {as : List α}
    (h : ∀ a ∈ as, Balanced (parts a)) : Balanced (as.flatMap parts) := by
  induction as with
  | nil => exact balanced_nil
  | cons a as ih =>
    obtain ⟨ha, has⟩ := List.forall_mem_cons.1 h
    rw [List.flatMap_cons]
    exact balanced_append ha (ih has)

/-- A quoted word closes the quotes that it opens. -/
theorem after_text_quoted (t : Text) : Mode.bare.after (Piece.quoted t).text = .bare :=
  Shell.after_quote t

/-! ## The parts of a script -/

namespace Fragment

/-- Code of the dispatcher's own lines leaves the shell outside quotes. -/
theorem after_of_plain {code : Text} {ls : List Text} (hcode : Text.unlines ls = code)
    (h : ∀ l ∈ ls, Plain l) : Mode.bare.after (Piece.code code).text = .bare := by
  rw [Piece.text_code, ← hcode]
  exact Shell.after_unlines fun l hl => (h l hl).isLine

theorem balanced_exitCode (status : UInt8) :
    Balanced [.code exitCodeCode, .code (Text.decimal status.toNat), .code hookCode] where
  quotesBare := quotesBare_of_quoted?_eq_none (by simp [Piece.quoted?]) _
  after_eq := by
    -- the number stands between double quotes, which the part after it closes
    have hopen : Mode.bare.after exitCodeCode = .double := by decide +kernel
    have hclose : Mode.double.after hookCode = .bare := by
      rw [hookCode_eq, Mode.after_append]
      exact Shell.after_unlines fun l hl => (plain_hookLines l hl).isLine
    simp only [List.flatMap_cons, List.flatMap_nil, List.append_nil, Piece.text_code,
      Mode.after_append, hopen, (after_double_decimal _).2, hclose]

theorem balanced_settings (o : Options) : Balanced (settings o) := by
  have hname : Mode.bare.after (o.baseCommand.elim (Piece.code callerCode) Piece.quoted).text =
      .bare := by
    cases o.baseCommand with
    | none => rfl
    | some t => exact after_text_quoted t
  exact balanced_cons (by decide +kernel) (balanced_cons hname (balanced_cons (by decide +kernel)
    (balanced_cons (after_text_quoted _) (balanced_exitCode _))))

theorem balanced_row (t : Text) : Balanced (row t) :=
  balanced_cons (by decide) (balanced_cons (after_text_quoted t)
    (balanced_cons (by decide) balanced_nil))

theorem balanced_helpArm (t : Target) : Balanced (helpArm t) :=
  balanced_cons (by decide) (balanced_cons (after_text_quoted _) (balanced_cons (by decide)
    (balanced_cons (after_text_quoted _) (balanced_cons (by decide) balanced_nil))))

theorem balanced_runArm {t : Target} (h : Mode.bare.after t.functionName = .bare) :
    Balanced (runArm t) :=
  balanced_cons (by decide) (balanced_cons (after_text_quoted _) (balanced_cons (by decide)
    (balanced_cons h (balanced_cons (by decide) balanced_nil))))

theorem balanced_help (f : Fragment) : Balanced f.help := by
  have hhelp : Mode.bare.after (Piece.code helpCode).text = .bare :=
    after_of_plain (unlines_codeLines _) plain_helpLines
  have hcase : Mode.bare.after (Piece.code helpCaseCode).text = .bare :=
    after_of_plain (unlines_codeLines _) plain_helpCaseLines
  have hend : Mode.bare.after (Piece.code helpEndCode).text = .bare :=
    after_of_plain (unlines_codeLines _) plain_helpEndLines
  unfold help
  refine balanced_append (balanced_append ?_ ?_) ?_
  · exact balanced_cons hhelp (balanced_flatMap fun t _ => balanced_row t)
  · exact balanced_cons hcase (balanced_flatMap fun t _ => balanced_helpArm t)
  · exact balanced_cons hend balanced_nil

theorem balanced_run {f : Fragment}
    (h : ∀ t ∈ f.targets, Mode.bare.after t.functionName = .bare) : Balanced f.run := by
  have hrun : Mode.bare.after (Piece.code runCode).text = .bare :=
    after_of_plain (unlines_codeLines _) plain_runLines
  have hend : Mode.bare.after (Piece.code runEndCode).text = .bare :=
    after_of_plain (unlines_codeLines _) plain_runEndLines
  unfold run
  refine balanced_append ?_ (balanced_cons hend balanced_nil)
  exact balanced_cons hrun (balanced_flatMap fun t ht => balanced_runArm (h t ht))

/-- The parts of a script are balanced, if the names of its functions are. -/
theorem balanced_pieces {f : Fragment}
    (h : ∀ t ∈ f.targets, Mode.bare.after t.functionName = .bare) : Balanced f.pieces :=
  balanced_append (balanced_append (balanced_settings _) (balanced_help f)) (balanced_run h)

/-! ## The texts from outside -/

/-- The texts that a script quotes, in order: those of the settings, the rows of the listing, the
name and the documentation of each target for help, and the names again for the calls. -/
def interpolated (f : Fragment) : List Text :=
  f.options.baseCommand.toList ++ [f.options.helpPreamble] ++ f.rows ++
    f.targets.flatMap (fun t => [t.name, t.documentation]) ++ f.targets.map Target.name

theorem filterMap_quoted?_settings (o : Options) :
    (settings o).filterMap Piece.quoted? = o.baseCommand.toList ++ [o.helpPreamble] := by
  unfold settings
  cases o.baseCommand <;> rfl

/-- Every text from outside is the text of a quoted part, and nothing else is quoted. -/
theorem filterMap_quoted?_pieces (f : Fragment) :
    f.pieces.filterMap Piece.quoted? = f.interpolated := by
  have hrows : (f.rows.flatMap row).filterMap Piece.quoted? = f.rows := by
    rw [List.filterMap_flatMap]
    exact List.flatMap_singleton' f.rows
  have hhelp : (f.targets.flatMap helpArm).filterMap Piece.quoted? =
      f.targets.flatMap fun t => [t.name, t.documentation] := List.filterMap_flatMap
  have hrun : (f.targets.flatMap runArm).filterMap Piece.quoted? = f.targets.map Target.name := by
    rw [List.filterMap_flatMap]
    exact List.map_eq_flatMap.symm
  unfold pieces interpolated help run
  simp only [List.filterMap_append, List.filterMap_cons, List.filterMap_nil,
    filterMap_quoted?_settings, hrows, hhelp, hrun, Piece.quoted?, List.nil_append,
    List.append_nil, List.append_assoc]

theorem exists_pieces_eq {f : Fragment} {t : Text} (h : t ∈ f.interpolated) :
    ∃ before after, f.pieces = before ++ .quoted t :: after := by
  rw [← filterMap_quoted?_pieces, List.mem_filterMap] at h
  obtain ⟨p, hp, ht⟩ := h
  rw [Piece.quoted?_eq_some_iff] at ht
  exact List.append_of_mem (ht ▸ hp)

end Fragment

/-! ## The script for commands -/

/-- **No text from outside escapes its quotes.** If the names of the functions have no quotes and no
backslashes, the script for commands ends outside quotes, and each row of the listing, name,
documentation and text of the options is scanned as a quoted text where it stands in the script:
each of its characters between single quotes, a single quote as an escaped character. -/
theorem generate_quotes {commands : List Command} {rows : List Text}
    (hnames : ∀ c ∈ commands,
      '\'' ∉ c.functionName ∧ '"' ∉ c.functionName ∧ '\\' ∉ c.functionName)
    (hrows : Listing.rows commands = .ok rows) (options : Options) :
    ∃ f : Fragment, f.options = options ∧ f.rows = rows ∧ f.targets = targets commands ∧
      generate commands options = .ok f.text ∧
      Mode.bare.after f.text = .bare ∧
      f.pieces.filterMap Piece.quoted? = f.interpolated ∧
      ∀ before t after, f.pieces = before ++ .quoted t :: after →
        Mode.bare.scan f.text = Mode.bare.scan (before.flatMap Piece.text) ++
          Shell.scannedQuote t ++ Mode.bare.scan (after.flatMap Piece.text) := by
  have hbalanced : Balanced (Fragment.pieces ⟨options, rows, targets commands⟩) :=
    Fragment.balanced_pieces (forall_mem_targets fun c hc =>
      Shell.after_of_not_mem (hnames c hc).1 (hnames c hc).2.1 (hnames c hc).2.2)
  refine ⟨⟨options, rows, targets commands⟩, rfl, rfl, rfl, generate_eq hrows options,
    hbalanced.after_eq, Fragment.filterMap_quoted?_pieces _, ?_⟩
  intro before t after hpieces
  have hquotes := hbalanced.quotesBare
  unfold Fragment.text
  rw [hpieces] at hquotes ⊢
  exact scan_flatMap_text_of_quotesBare hquotes

/-- Documentation of a double quote, a backslash and a single quote, beside quotes in every other
text from outside. -/
theorem generate_quotes_of_hostile :
    ∃ script before after,
      generate [⟨"it's", "cmd_it", 1, "\"\\'"⟩] ⟨some "'\\", "''", 1⟩ = .ok script ∧
      Mode.bare.after script = .bare ∧
      Mode.bare.scan script = before ++ Shell.scannedQuote "\"\\'" ++ after := by
  have hrows : Listing.rows [⟨"it's", "cmd_it", 1, "\"\\'"⟩] =
      .ok ["    it's - \"\\'".toList] := rfl
  obtain ⟨f, hoptions, hlisting, htargets, hgenerate, hafter, -, hscan⟩ :=
    generate_quotes (by decide) hrows ⟨some "'\\", "''", 1⟩
  have hmem : "\"\\'".toList ∈ f.interpolated := by
    unfold Fragment.interpolated
    rw [hoptions, hlisting, htargets]
    decide
  obtain ⟨before, after, hpieces⟩ := Fragment.exists_pieces_eq hmem
  exact ⟨_, _, _, hgenerate, hafter, hscan before _ after hpieces⟩

end ShellDispatch.Dispatcher
