import ShellDispatch.Proofs.Dispatcher.Reading
import ShellDispatch.Proofs.Dispatcher.Targets

/-!
# Dispatchers tell everything apart

The settings of a dispatcher script are read back like its functions, so a script determines the
options, the listing and the targets it was written from (`generate_injective`).
-/

namespace ShellDispatch.Dispatcher

open Shell (quote readWord)
open Text (line unlines decimal)

namespace Reading

/-! ## The settings read back -/

/-- Reads the name for the usage line: the caller, or a word. -/
def readBaseCommand (t : Text) : Option (Option Text × Text) :=
  match Text.rest? Fragment.callerCode t with
  | some r => some (none, r)
  | none => (readWord t).map fun (word, r) => (some word, r)

/-- Reads the number in decimal digits at the start of a text. -/
def readDecimal (t : Text) : Nat := Nat.ofDigitChars 10 (t.takeWhile Char.isDigit) 0

/-- Reads the settings of a dispatcher script. -/
def options? (t : Text) : Option Options := do
  let r ← Text.rest? Fragment.baseCommandCode t
  let (baseCommand, r) ← readBaseCommand r
  let r ← Text.rest? Fragment.helpPreambleCode r
  let (helpPreamble, r) ← readWord r
  let r ← Text.rest? Fragment.exitCodeCode r
  return { baseCommand, helpPreamble, exitCodeOnHelp := UInt8.ofNat (readDecimal r) }

theorem readBaseCommand_append (name : Option Text) (t : Text) :
    readBaseCommand (name.elim Fragment.callerCode quote ++ '\n' :: t) = some (name, '\n' :: t) := by
  unfold readBaseCommand
  cases name with
  | none =>
    rw [Option.elim_none, Text.rest?_append]
  | some b =>
    have hquote : Text.rest? Fragment.callerCode (quote b ++ '\n' :: t) = none :=
      rest?_eq_none_of_ne (by decide : '"' ≠ '\'') [] "$0\"" _
    rw [Option.elim_some, hquote, readWord_quote_newline]
    rfl

theorem readDecimal_append (n : Nat) {c : Char} (hc : ¬ c.isDigit) (t : Text) :
    readDecimal (decimal n ++ c :: t) = n := by
  have hdigits : ∀ d ∈ decimal n, d.isDigit :=
    fun d hd => Nat.isDigit_of_mem_toDigits (by decide) (by decide) hd
  unfold readDecimal
  rw [List.takeWhile_append_of_pos hdigits, List.takeWhile_cons_of_neg hc, List.append_nil]
  exact Nat.ofDigitChars_ten_toDigits

theorem options?_text (f : Fragment) : options? f.text = some f.options := by
  have hname : (f.options.baseCommand.elim (Piece.code Fragment.callerCode) Piece.quoted).text =
      f.options.baseCommand.elim Fragment.callerCode quote := by
    cases f.options.baseCommand <;> rfl
  have htext : f.text = Fragment.baseCommandCode ++
      (f.options.baseCommand.elim Fragment.callerCode quote ++ (Fragment.helpPreambleCode ++
        (quote f.options.helpPreamble ++ (Fragment.exitCodeCode ++
          (decimal f.options.exitCodeOnHelp.toNat ++ (Fragment.hookCode ++
            (f.help ++ f.run).flatMap Piece.text)))))) := by
    unfold Fragment.text Fragment.pieces Fragment.settings
    simp only [List.append_assoc, List.flatMap_append, List.flatMap_cons, List.flatMap_nil,
      Piece.text_code, Piece.text_quoted, hname, List.append_nil]
  -- a newline ends each of the words, and a brace the number
  have hbase : ∀ r, readBaseCommand (f.options.baseCommand.elim Fragment.callerCode quote ++
      (Fragment.helpPreambleCode ++ r)) =
        some (f.options.baseCommand, Fragment.helpPreambleCode ++ r) :=
    fun r => readBaseCommand_append f.options.baseCommand _
  have hheading : ∀ r, readWord (quote f.options.helpPreamble ++ (Fragment.exitCodeCode ++ r)) =
      some (f.options.helpPreamble, Fragment.exitCodeCode ++ r) :=
    fun r => readWord_quote_newline f.options.helpPreamble _
  have hstatus : ∀ r, readDecimal (decimal f.options.exitCodeOnHelp.toNat ++
      (Fragment.hookCode ++ r)) = f.options.exitCodeOnHelp.toNat :=
    fun r => readDecimal_append _ (by decide : ¬ '\x7d'.isDigit) _
  unfold options?
  rw [htext]
  simp only [Text.rest?_append, hbase, hheading, hstatus, Option.bind_eq_bind, Option.bind_some,
    UInt8.ofNat_toNat]
  rfl

/-! ## The whole script read back -/

/-- The targets that have the arms: the name and the text from `bashi_help`, the function from
`bashi_run`. -/
def toTargets (r : Reading) : List Target :=
  List.zipWith (fun help run => ⟨help.pattern, run.command, help.command⟩) r.helpArms
    (r.runArms.drop builtinArms.length)

theorem toTargets_ofFragment (f : Fragment) : (ofFragment f).toTargets = f.targets := by
  unfold toTargets ofFragment
  dsimp only
  rw [List.drop_left, List.zipWith_map_left, List.zipWith_map_right, List.zipWith_self]
  exact List.map_id f.targets

/-- Reads what a dispatcher script says. -/
def fragment? (t : Text) : Option Fragment := do
  let options ← options? t
  let reading ← ofText? t
  return { options, rows := reading.listing, targets := reading.toTargets }

theorem fragment?_text {f : Fragment} (h : ∀ t ∈ f.targets, '\n' ∉ t.functionName) :
    fragment? f.text = some f := by
  unfold fragment?
  rw [options?_text, ofText?_text h]
  show some (Fragment.mk f.options f.rows (ofFragment f).toTargets) = some f
  rw [toTargets_ofFragment]

end Reading

/-! ## Equal scripts -/

theorem Fragment.text_injective {f g : Fragment} (hf : ∀ t ∈ f.targets, '\n' ∉ t.functionName)
    (hg : ∀ t ∈ g.targets, '\n' ∉ t.functionName) (h : f.text = g.text) : f = g := by
  have h := congrArg Reading.fragment? h
  rw [Reading.fragment?_text hf, Reading.fragment?_text hg] at h
  exact Option.some.inj h

/-- **Nothing is lost or confused**: a script determines the options, the listing and the targets
it was written from. -/
theorem generate_injective {commands₁ commands₂ : List Command} {options₁ options₂ : Options}
    {rows₁ rows₂ : List Text}
    (hnames₁ : ∀ c ∈ commands₁, '\n' ∉ c.functionName)
    (hnames₂ : ∀ c ∈ commands₂, '\n' ∉ c.functionName)
    (hrows₁ : Listing.rows commands₁ = .ok rows₁) (hrows₂ : Listing.rows commands₂ = .ok rows₂)
    (h : generate commands₁ options₁ = generate commands₂ options₂) :
    options₁ = options₂ ∧ Listing.rows commands₁ = Listing.rows commands₂ ∧
      targets commands₁ = targets commands₂ := by
  rw [generate_eq hrows₁, generate_eq hrows₂] at h
  have hfragment := Fragment.text_injective (forall_mem_targets hnames₁)
    (forall_mem_targets hnames₂) (Except.ok.inj h)
  obtain ⟨hoptions, hrows, htargets⟩ := Fragment.mk.inj hfragment
  rw [hrows₁, hrows₂, hrows]
  exact ⟨hoptions, rfl, htargets⟩

/-- The line of a definition is not in the script. -/
theorem generate_injective_of_moved :
    generate [⟨"a", "cmd_a", 1, "it's"⟩] {} = generate [⟨"a", "cmd_a", 7, "it's"⟩] {} ∧
      targets [⟨"a", "cmd_a", 1, "it's"⟩] = targets [⟨"a", "cmd_a", 7, "it's"⟩] := by
  have hrows₁ : Listing.rows [⟨"a", "cmd_a", 1, "it's"⟩] = .ok ["    a - it's".toList] := rfl
  have hrows₂ : Listing.rows [⟨"a", "cmd_a", 7, "it's"⟩] = .ok ["    a - it's".toList] := rfl
  have h : generate [⟨"a", "cmd_a", 1, "it's"⟩] {} = generate [⟨"a", "cmd_a", 7, "it's"⟩] {} := by
    rw [generate_eq hrows₁, generate_eq hrows₂]
    rfl
  exact ⟨h, (generate_injective (by decide) (by decide) hrows₁ hrows₂ h).2.2⟩

end ShellDispatch.Dispatcher
