import ShellDispatch.Proofs.Script.Events
import ShellDispatch.Proofs.Traversal
import ShellDispatch.Script.Loading

/-!
# Loading several files

What is loaded from files depends on what stands in them, file by file (`outcome_loadScripts`):

1. `commandsOf` is what one file gives, from its path and content alone. `scanFile` gives it, and
   the records that it reports do not change what is read later.
2. All files together give the commands of each in order, or what the first that fails gives.
3. An error of a file names its path and wraps one error of the scan, once (`FileError`).
-/

namespace ShellDispatch.Script

open Utf8 (encode)

/-- What an action gives, without the state that it leaves. -/
def outcome {ε σ α : Type} : EStateM.Result ε σ α → Except ε α
  | .ok a _ => .ok a
  | .error e _ => .error e

/-- What a file with this content gives. -/
def commandsOf (path : Text) : Except File.Failure Bytes → Except ScanError (List Command)
  | .error cause => .error (.inFile path (.unreadable cause))
  | .ok bytes => (Source.commands { bytes }).mapError (.inFile path)

section Host

variable {σ : Type} {host : Host σ} {content : Text → Except File.Failure Bytes} {s : σ}

/-- The files at the paths have these contents, whatever is reported. -/
def Host.Holds (host : Host σ) (content : Text → Except File.Failure Bytes) (paths : List Text)
    (s : σ) : Prop :=
  ∀ path ∈ paths, ∀ records, host.read path (host.reportAll records s) = content path

theorem Host.holds_ofFiles (files : Text → Except File.Failure Bytes) (paths : List Text)
    (records : List Log.Record) : (Host.ofFiles files).Holds files paths records :=
  fun _ _ _ => rfl

theorem Host.reportAll_append (records more : List Log.Record) (s : σ) :
    host.reportAll (records ++ more) s = host.reportAll more (host.reportAll records s) :=
  List.foldl_append

theorem scanFile_eq (path : Text) (s : σ) :
    scanFile host path s =
      match commandsOf path (host.read path s) with
      | .ok commands => .ok commands (host.reportAll (findings path commands) s)
      | .error e => .error e s := by
  unfold scanFile commandsOf
  cases host.read path s with
  | error cause => rfl
  | ok bytes =>
    dsimp only
    cases Source.commands { bytes } with
    | error e => rfl
    | ok commands => rfl

theorem outcome_scanFiles_cons (path : Text) (paths : List Text) (s : σ) :
    outcome (scanFiles host (path :: paths) s) =
      match scanFile host path s with
      | .ok commands s₁ => (outcome (scanFiles host paths s₁)).map (commands ++ ·)
      | .error e _ => .error e := by
  rw [scanFiles]
  simp only [bind, EStateM.bind]
  cases scanFile host path s with
  | error e s₁ => rfl
  | ok commands s₁ =>
    dsimp only
    cases scanFiles host paths s₁ with
    | error e s₂ => rfl
    | ok others s₂ => rfl

/-- The commands of several files are those of each, in order, or the first error. -/
def commandsOfAll (content : Text → Except File.Failure Bytes) (paths : List Text) :
    Except ScanError (List Command) :=
  (paths.mapM fun path => commandsOf path (content path)).map List.flatten

theorem commandsOfAll_cons (path : Text) (paths : List Text) :
    commandsOfAll content (path :: paths) =
      match commandsOf path (content path) with
      | .ok commands => (commandsOfAll content paths).map (commands ++ ·)
      | .error e => .error e := by
  unfold commandsOfAll
  rw [List.mapM_cons]
  cases commandsOf path (content path) with
  | error e => rfl
  | ok commands =>
    dsimp only
    cases paths.mapM fun path => commandsOf path (content path) with
    | error e => rfl
    | ok parts => rfl

theorem outcome_scanFiles {paths : List Text} (h : host.Holds content paths s) :
    outcome (scanFiles host paths s) = commandsOfAll content paths := by
  induction paths generalizing s with
  | nil => rfl
  | cons path paths ih =>
    have hpath : host.read path s = content path := h path List.mem_cons_self []
    rw [outcome_scanFiles_cons, scanFile_eq, hpath, commandsOfAll_cons]
    cases commandsOf path (content path) with
    | error e => rfl
    | ok commands =>
      have hrest : host.Holds content paths (host.reportAll (findings path commands) s) := by
        intro p hp records
        rw [← Host.reportAll_append]
        exact h p (List.mem_cons_of_mem path hp) _
      dsimp only
      rw [ih hrest]

/-- **What is loaded** depends on the files only through what stands in them. -/
theorem outcome_loadScripts {paths : List Text} (h : host.Holds content paths s) :
    outcome (loadScripts host paths s) = commandsOfAll content paths := by
  rw [← outcome_scanFiles h]
  unfold loadScripts
  simp only [bind, EStateM.bind]
  cases scanFiles host paths s with
  | error e s₁ => rfl
  | ok commands s₁ => rfl

theorem commandsOfAll_eq_ok_iff {paths : List Text} {commands : List Command} :
    commandsOfAll content paths = .ok commands ↔
      ∃ parts, List.Forall₂ (fun path part => commandsOf path (content path) = .ok part) paths parts ∧
        commands = parts.flatten := by
  unfold commandsOfAll
  rw [map_eq_ok_iff]
  simp only [mapM_eq_ok_iff]

theorem commandsOfAll_eq_error_iff {paths : List Text} {e : ScanError} :
    commandsOfAll content paths = .error e ↔
      ∃ before path after, paths = before ++ path :: after ∧
        (∀ p ∈ before, ∃ part, commandsOf p (content p) = .ok part) ∧
        commandsOf path (content path) = .error e := by
  unfold commandsOfAll
  rw [map_eq_error_iff, mapM_eq_error_iff]

theorem exists_commandsOfAll_eq_ok_iff {paths : List Text} :
    (∃ commands, commandsOfAll content paths = .ok commands) ↔
      ∀ path ∈ paths, ∃ part, commandsOf path (content path) = .ok part := by
  rw [← exists_mapM_eq_ok_iff]
  unfold commandsOfAll
  simp only [map_eq_ok_iff]
  constructor
  · rintro ⟨commands, parts, hparts, -⟩
    exact ⟨parts, hparts⟩
  · rintro ⟨parts, hparts⟩
    exact ⟨parts.flatten, parts, hparts, rfl⟩

end Host

/-! ## One file -/

section File

variable {files : Text → Except File.Failure Bytes} {path : Text}

/-- The commands are those of the lines of the file: each has the number of its line among them and
the comments below it there. -/
def AreOf (files : Text → Except File.Failure Bytes) (path : Text) (commands : List Command) : Prop :=
  ∃ bytes lines, files path = .ok bytes ∧ Yields none bytes (lines.map .ofText) ∧
    commands = (definitionIndices lines).map (commandAt lines)

/-- The line of the file with this number is a malformed definition, and nothing is wrong before. -/
def IsMalformedAt (files : Text → Except File.Failure Bytes) (path : Text) (number : Nat) : Prop :=
  ∃ bytes before t after, files path = .ok bytes ∧
    Yields none bytes (before ++ .ofText t :: after) ∧ (∀ x ∈ before, x.IsSound) ∧
    IsMalformed t ∧ number = before.length + 1

/-- The error of a file that cannot be loaded: its path, and what is wrong with the file. -/
structure FileError (files : Text → Except File.Failure Bytes) (path : Text) (source e : ScanError) :
    Prop where
  wrapped : e = .inFile path source
  kind : (∃ number, source = .malformedDefinition number) ∨ ∃ cause, source = .unreadable cause
  line? : ∀ number, e.line? = some number ↔ source = .malformedDefinition number
  place : ∀ number, source = .malformedDefinition number ↔ IsMalformedAt files path number

theorem Event.Offends.kind {number : Nat} {event : Event} {e : ScanError}
    (h : event.Offends number e) :
    (∃ number, e = .malformedDefinition number) ∨ ∃ cause, e = .unreadable cause := by
  cases h with
  | malformed _ => exact Or.inl ⟨number, rfl⟩
  | unreadable _ => exact Or.inr ⟨.notUtf8, rfl⟩
  | failed cause => exact Or.inr ⟨cause, rfl⟩

/-- The line of an error in a file is that of the error itself. -/
theorem line?_inFile_iff {source : ScanError}
    (h : (∃ number, source = .malformedDefinition number) ∨ ∃ cause, source = .unreadable cause)
    (path : Text) (number : Nat) :
    (ScanError.inFile path source).line? = some number ↔ source = .malformedDefinition number := by
  rcases h with ⟨k, rfl⟩ | ⟨cause, rfl⟩
  · simp [ScanError.line?]
  · simp [ScanError.line?]

theorem commands_eq_malformed_iff {bytes : Bytes} {number : Nat} :
    Source.commands { bytes } = .error (.malformedDefinition number) ↔
      ∃ before t after, Yields none bytes (before ++ .ofText t :: after) ∧
        (∀ x ∈ before, x.IsSound) ∧ IsMalformed t ∧ number = before.length + 1 := by
  have hyields : ∀ es, Yields none bytes es ↔ es = Source.events { bytes } :=
    fun es => Source.yields_iff (s := { bytes })
  rw [Source.commands_eq_error_iff]
  simp only [hyields]
  constructor
  · rintro ⟨before, event, after, he, hb, ho⟩
    generalize hk : before.length + 1 = k at ho
    cases ho with
    | malformed hm => exact ⟨before, _, after, he.symm, hb, hm, hk.symm⟩
  · rintro ⟨before, t, after, he, hb, hm, rfl⟩
    exact ⟨before, .ofText t, after, he.symm, hb, .malformed hm⟩

theorem commandsOf_ok_eq_ok_iff {bytes : Bytes} {commands : List Command} :
    commandsOf path (.ok bytes) = .ok commands ↔ Source.commands { bytes } = .ok commands := by
  unfold commandsOf
  dsimp only
  cases Source.commands { bytes } with
  | error source => exact ⟨nofun, nofun⟩
  | ok part => exact Iff.rfl

theorem commandsOf_ok_eq_error_iff {bytes : Bytes} {e : ScanError} :
    commandsOf path (.ok bytes) = .error e ↔
      ∃ source, Source.commands { bytes } = .error source ∧ e = .inFile path source := by
  unfold commandsOf
  dsimp only
  cases Source.commands { bytes } with
  | ok part => exact ⟨nofun, nofun⟩
  | error source =>
    constructor
    · intro h
      exact ⟨source, rfl, (Except.error.inj h).symm⟩
    · rintro ⟨_, hs, rfl⟩
      obtain rfl := Except.error.inj hs
      rfl

theorem areOf_of_commandsOf {commands : List Command}
    (h : commandsOf path (files path) = .ok commands) : AreOf files path commands := by
  cases hfile : files path with
  | error cause =>
    rw [hfile] at h
    exact absurd h nofun
  | ok bytes =>
    rw [hfile, commandsOf_ok_eq_ok_iff] at h
    obtain ⟨lines, hlines⟩ := Event.exists_eq_map_ofText (Source.isSound_of_commands_eq_ok h)
    rw [Source.commands_of_events hlines] at h
    exact ⟨bytes, lines, hfile, Source.yields_iff.2 hlines.symm, (scanLines_eq_ok_iff.1 h).2⟩

theorem exists_fileError_of_commandsOf {e : ScanError} (h : commandsOf path (files path) = .error e) :
    ∃ source, FileError files path source e := by
  cases hfile : files path with
  | error cause =>
    rw [hfile] at h
    obtain rfl := Except.error.inj h
    have hkind : (∃ number, ScanError.unreadable cause = .malformedDefinition number) ∨
        ∃ c, ScanError.unreadable cause = .unreadable c := Or.inr ⟨cause, rfl⟩
    refine ⟨.unreadable cause, rfl, hkind, line?_inFile_iff hkind path, fun number => ?_⟩
    constructor
    · intro hs
      exact absurd hs nofun
    · rintro ⟨bytes, -, -, -, hbytes, -⟩
      exact absurd (hfile.symm.trans hbytes) nofun
  | ok bytes =>
    rw [hfile, commandsOf_ok_eq_error_iff] at h
    obtain ⟨source, hs, rfl⟩ := h
    have hplace : ∀ number, IsMalformedAt files path number ↔
        Source.commands { bytes } = .error (.malformedDefinition number) := by
      intro number
      rw [commands_eq_malformed_iff]
      unfold IsMalformedAt
      rw [hfile]
      simp only [Except.ok.injEq, exists_and_left, exists_eq_left']
    obtain ⟨before, event, after, -, -, hoffends⟩ := Source.commands_eq_error_iff.1 hs
    refine ⟨source, rfl, hoffends.kind, line?_inFile_iff hoffends.kind path, fun number => ?_⟩
    rw [hplace, hs, Except.error.injEq]

end File

/-! ## Files of a map -/

/-- What loading the files at the paths gives. -/
def loaded (files : Text → Except File.Failure Bytes) (paths : List Text) :
    Except ScanError (List Command) :=
  outcome (loadScripts (Host.ofFiles files) paths [])

/-- What the file at a path gives by itself. -/
def loadedFile (files : Text → Except File.Failure Bytes) (path : Text) :
    Except ScanError (List Command) :=
  outcome (scanFile (Host.ofFiles files) path [])

theorem loaded_eq (files : Text → Except File.Failure Bytes) (paths : List Text) :
    loaded files paths = commandsOfAll files paths :=
  outcome_loadScripts (Host.holds_ofFiles files paths [])

theorem loadedFile_eq (files : Text → Except File.Failure Bytes) (path : Text) :
    loadedFile files path = commandsOf path (files path) := by
  unfold loadedFile
  rw [scanFile_eq]
  show outcome (match commandsOf path (files path) with | .ok _ => _ | .error _ => _) = _
  cases commandsOf path (files path) with
  | error e => rfl
  | ok commands => rfl

/-- **Files are loaded in order, each by itself.** If every file can be loaded, the commands are
those of each file, one after the other. Else the error is that of the first file that cannot, and
the files that come only after it do not matter. -/
theorem loadScripts_files (files : Text → Except File.Failure Bytes) (paths : List Text) :
    ((∃ commands, loaded files paths = .ok commands) ↔
      ∀ path ∈ paths, ∃ part, loadedFile files path = .ok part) ∧
    (∀ commands, loaded files paths = .ok commands →
      ∃ parts, List.Forall₂ (fun path part => loadedFile files path = .ok part ∧
        AreOf files path part) paths parts ∧ commands = parts.flatten) ∧
    ∀ e, loaded files paths = .error e →
      ∃ before path after source, paths = before ++ path :: after ∧
        (∀ p ∈ before, ∃ part, loadedFile files p = .ok part) ∧
        loadedFile files path = .error e ∧ FileError files path source e ∧
        ∀ others, (∀ p ∈ before ++ [path], others p = files p) →
          loaded others paths = .error e := by
  simp only [loaded_eq, loadedFile_eq]
  refine ⟨exists_commandsOfAll_eq_ok_iff, ?_, ?_⟩
  · intro commands h
    obtain ⟨parts, hparts, rfl⟩ := commandsOfAll_eq_ok_iff.1 h
    exact ⟨parts, hparts.imp fun path part hpart => ⟨hpart, areOf_of_commandsOf hpart⟩, rfl⟩
  · intro e h
    obtain ⟨before, path, after, rfl, hbefore, hpath⟩ := commandsOfAll_eq_error_iff.1 h
    obtain ⟨source, hsource⟩ := exists_fileError_of_commandsOf hpath
    refine ⟨before, path, after, source, rfl, hbefore, hpath, hsource, fun others hsame => ?_⟩
    rw [List.forall_mem_append, List.forall_mem_singleton] at hsame
    refine commandsOfAll_eq_error_iff.2 ⟨before, path, after, rfl, fun p hp => ?_, ?_⟩
    · rw [hsame.1 p hp]
      exact hbefore p hp
    · rw [hsame.2]
      exact hpath

/-- Files of these names and texts. -/
def named (entries : List (Text × Text)) (path : Text) : Except File.Failure Bytes :=
  match entries.lookup path with
  | some t => .ok (encode t)
  | none => .error .missing

theorem loadedFile_of_encode {files : Text → Except File.Failure Bytes} {path t : Text}
    (h : files path = .ok (encode t)) :
    loadedFile files path = (scanLines (Source.readLines t)).mapError (.inFile path) := by
  rw [loadedFile_eq, h, ← Source.commands_encode]
  rfl

theorem loadedFile_named {entries : List (Text × Text)} {path t : Text}
    (h : entries.lookup path = some t) :
    loadedFile (named entries) path =
      (scanLines (Source.readLines t)).mapError (.inFile path) := by
  apply loadedFile_of_encode
  unfold named
  rw [h]

/-- The first file ends in a definition, the second begins with a comment, the third is malformed. -/
def threeFiles : Text → Except File.Failure Bytes :=
  named [("a", "function cmd_a("), ("b", "# late\nfunction cmd_b(\n# own"), ("c", "\nfunction cmd_c\n")]

theorem loadedFile_threeFiles :
    loadedFile threeFiles "a" = .ok [⟨"a", "cmd_a", 1, []⟩] ∧
      loadedFile threeFiles "b" = .ok [⟨"b", "cmd_b", 2, "own"⟩] ∧
      loadedFile threeFiles "c" = .error (.inFile "c" (.malformedDefinition 2)) := by
  have ha : scanLines (Source.readLines "function cmd_a(") = .ok [⟨"a", "cmd_a", 1, []⟩] :=
    scanLines_eq_ok_iff.2 (by decide +kernel)
  have hb : scanLines (Source.readLines "# late\nfunction cmd_b(\n# own") =
      .ok [⟨"b", "cmd_b", 2, "own"⟩] := scanLines_eq_ok_iff.2 (by decide +kernel)
  have hc : scanLines (Source.readLines "\nfunction cmd_c\n") = .error (.malformedDefinition 2) :=
    scanLines_eq_error_iff.2 ⟨[[]], "function cmd_c", [], by decide +kernel, by decide,
      by decide, rfl⟩
  unfold threeFiles
  rw [loadedFile_named (t := "function cmd_a(") rfl, ha,
    loadedFile_named (t := "# late\nfunction cmd_b(\n# own") rfl, hb,
    loadedFile_named (t := "\nfunction cmd_c\n") rfl, hc]
  exact ⟨rfl, rfl, rfl⟩

theorem loadScripts_files_of_three :
    loaded threeFiles ["a".toList, "b".toList] =
        .ok [⟨"a", "cmd_a", 1, []⟩, ⟨"b", "cmd_b", 2, "own"⟩] ∧
      loaded threeFiles ["a".toList, "c".toList, "b".toList] =
        .error (.inFile "c" (.malformedDefinition 2)) := by
  obtain ⟨ha, hb, hc⟩ := loadedFile_threeFiles
  constructor
  · obtain ⟨hok, hparts, -⟩ := loadScripts_files threeFiles ["a".toList, "b".toList]
    have hfiles : ∀ path ∈ ["a".toList, "b".toList], ∃ part, loadedFile threeFiles path = .ok part := by
      rw [List.forall_mem_cons, List.forall_mem_singleton]
      exact ⟨⟨_, ha⟩, _, hb⟩
    obtain ⟨commands, h⟩ := hok.2 hfiles
    obtain ⟨parts, hforall, rfl⟩ := hparts commands h
    cases hforall with
    | cons hfirst hrest =>
      cases hrest with
      | cons hsecond hnil =>
        cases hnil
        obtain rfl := Except.ok.inj (ha.symm.trans hfirst.1)
        obtain rfl := Except.ok.inj (hb.symm.trans hsecond.1)
        exact h
  · obtain ⟨hok, -, herror⟩ := loadScripts_files threeFiles ["a".toList, "c".toList, "b".toList]
    cases h : loaded threeFiles ["a".toList, "c".toList, "b".toList] with
    | ok commands =>
      obtain ⟨part, hpart⟩ := hok.1 ⟨commands, h⟩ "c" (by simp)
      exact absurd (hc.symm.trans hpart) nofun
    | error e =>
      obtain ⟨before, path, after, source, hpaths, hbefore, hpath, -⟩ := herror e h
      cases before with
      | nil =>
        obtain ⟨rfl, -⟩ := List.cons.inj hpaths
        exact absurd (ha.symm.trans hpath) nofun
      | cons first before =>
        obtain ⟨rfl, htail⟩ := List.cons.inj hpaths
        cases before with
        | nil =>
          obtain ⟨rfl, -⟩ := List.cons.inj htail
          exact hpath.symm.trans hc
        | cons second before =>
          obtain ⟨rfl, -⟩ := List.cons.inj htail
          obtain ⟨part, hpart⟩ := hbefore "c" (by simp)
          exact absurd (hc.symm.trans hpart) nofun

end ShellDispatch.Script
