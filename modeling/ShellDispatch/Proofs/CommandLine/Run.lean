import ShellDispatch.CommandLine.Tool
import ShellDispatch.Proofs.CommandLine.Effect
import ShellDispatch.Proofs.File.Way

/-!
# Runs with a log

A tool prepares its log and then acts. What is left of the run follows from the effect of the action
(`Effect.outcome`):

1. Without a log file the records that the threshold selects stand on the standard error stream,
   before everything else.
2. With a log file they stand in the file, and every other file is as it was. The scripts are read
   as before as long as none of their paths meets the log file, although it is made before they are
   read and grows meanwhile.
3. If the log file cannot be made, nothing else happens.
-/

namespace ShellDispatch

/-! ## Records and thresholds -/

namespace Log

/-- The records that a threshold lets through. -/
def Threshold.select (threshold : Threshold) (records : List Record) : List Record :=
  records.filter fun r => threshold.admits r.level

/-- The log with these records. -/
def text (records : List Record) : Text := records.flatMap Record.text

theorem select_cons_of_admits {threshold : Threshold} {r : Record} (h : threshold.admits r.level)
    (records : List Record) : threshold.select (r :: records) = r :: threshold.select records :=
  List.filter_cons_of_pos h

theorem select_cons_of_not_admits {threshold : Threshold} {r : Record}
    (h : ¬ threshold.admits r.level) (records : List Record) :
    threshold.select (r :: records) = threshold.select records :=
  List.filter_cons_of_neg h

theorem text_cons (r : Record) (records : List Record) :
    text (r :: records) = r.text ++ text records := List.flatMap_cons

/-- A logger whose own threshold is the maximum receives what the threshold admits. -/
theorem receiver?_self {δ : Type} (destination : δ) (threshold : Threshold) (level : Level) :
    ({ logger := some { destination, threshold }, maximum := threshold } : Logging δ).receiver? level =
      if threshold.admits level then some destination else none := by
  unfold Logging.receiver?
  dsimp only
  rw [Bool.and_self]

end Log

namespace CommandLine

open File.Tree (SameExcept)

/-! ## Where records go -/

namespace World

/-- A world in which logging has been prepared. -/
def prepared (files : File.Tree) (sink : LogSink) (threshold : Log.Threshold) : World :=
  { files, logging := { logger := some { destination := sink, threshold }, maximum := threshold } }

/-- The records go to the sink, those that the threshold admits. -/
def LogsTo (w : World) (sink : LogSink) (threshold : Log.Threshold) : Prop :=
  w.logging = { logger := some { destination := sink, threshold }, maximum := threshold }

variable {w : World} {sink : LogSink} {threshold : Log.Threshold} {l : File.Location}

theorem log_of_not_admits {r : Log.Record} (hw : w.LogsTo sink threshold)
    (h : ¬ threshold.admits r.level) : w.log r = w := by
  unfold log
  rw [hw, Log.receiver?_self, if_neg h]

theorem log_of_standardError {r : Log.Record} (hw : w.LogsTo .standardError threshold)
    (h : threshold.admits r.level) : w.log r = { w with errorText := w.errorText ++ r.text } := by
  unfold log
  rw [hw, Log.receiver?_self, if_pos h]

theorem log_of_file {r : Log.Record} (hw : w.LogsTo (.file l) threshold)
    (h : threshold.admits r.level) :
    w.log r = { w with files := w.files.append l (Utf8.encode r.text) } := by
  unfold log
  rw [hw, Log.receiver?_self, if_pos h]

theorem reportAll_standardError (hw : w.LogsTo .standardError threshold)
    (records : List Log.Record) :
    host.reportAll records w =
      { w with errorText := w.errorText ++ Log.text (threshold.select records) } := by
  induction records generalizing w with
  | nil =>
    show w = { w with errorText := w.errorText ++ [] }
    rw [List.append_nil]
  | cons r records ih =>
    rw [reportAll_cons]
    by_cases h : threshold.admits r.level
    · have hnext : (w.log r).LogsTo .standardError threshold := by
        rw [log_of_standardError hw h]
        exact hw
      rw [ih hnext, log_of_standardError hw h, Log.select_cons_of_admits h, Log.text_cons,
        ← List.append_assoc]
    · rw [log_of_not_admits hw h, ih hw, Log.select_cons_of_not_admits h]

/-- Records in a file are added at its end, and nothing else changes. -/
theorem reportAll_file (hw : w.LogsTo (.file l) threshold) (hl : l ≠ []) {content : Bytes}
    (hcontent : w.files.get? l = some (.file content)) (records : List Log.Record) :
    ∃ files, host.reportAll records w = { w with files } ∧ SameExcept l w.files files ∧
      files.get? l =
        some (.file (content ++ Utf8.encode (Log.text (threshold.select records)))) := by
  induction records generalizing w content with
  | nil =>
    refine ⟨w.files, rfl, .refl l w.files, ?_⟩
    show w.files.get? l = some (.file (content ++ Utf8.encode []))
    rw [Utf8.encode_nil, List.append_nil]
    exact hcontent
  | cons r records ih =>
    rw [reportAll_cons]
    by_cases h : threshold.admits r.level
    · rw [log_of_file hw h, Log.select_cons_of_admits h, Log.text_cons, Utf8.encode_append,
        ← List.append_assoc]
      have hnext : LogsTo { w with files := w.files.append l (Utf8.encode r.text) } (.file l)
          threshold := hw
      obtain ⟨files, hfiles, hsame, hget⟩ := ih hnext (File.Tree.get?_append_self hl hcontent)
      exact ⟨files, hfiles, (File.Tree.sameExcept_append w.files l _).trans hsame, hget⟩
    · rw [log_of_not_admits hw h, Log.select_cons_of_not_admits h]
      exact ih hw hcontent

end World

/-! ## What is left of a run -/

namespace Effect

/-- The exit status of a run with the effect. -/
def status (e : Effect Stop Unit) : UInt8 :=
  match e.ending with
  | .ok _ => 0
  | .error (.overflow _) => 101
  | .error _ => 1

/-- What a run with the effect shows beside its output, where the log comes first. -/
def diagnostics (usage : Text) (e : Effect Stop Unit) (log : Text) : Diagnostics :=
  match e.ending with
  | .ok _ => .text log
  | .error (.usage message) => .text (log ++ errorLine message ++ Text.line usage)
  | .error (.failed message) => .text (log ++ errorLine message)
  | .error .silent => .text log
  | .error (.overflow _) => .aborted

/-- What is left of a run with the effect. -/
def outcome (usage : Text) (e : Effect Stop Unit) (log : Text) (files : File.Tree) : Outcome :=
  ⟨e.status, Utf8.encode e.printed, e.diagnostics usage log, files⟩

theorem ofResult_result (usage : Text) (e : Effect Stop Unit) {w after : World} {log : Text}
    (hafter : World.host.reportAll e.records w = after) (houtput : after.output = {})
    (hlog : after.errorText = log) :
    Outcome.ofResult usage (e.result w) = e.outcome usage log after.files := by
  subst hafter hlog
  have htaken : (w.after e.records e.printed).output.taken = Utf8.encode e.printed := by
    show (World.host.reportAll e.records w).output.taken ++ Utf8.encode e.printed = _
    rw [houtput]
    exact List.nil_append _
  unfold result outcome status diagnostics
  cases e.ending with
  | ok u =>
    unfold Outcome.ofResult
    dsimp only
    rw [htaken]
    rfl
  | error stop =>
    cases stop <;>
    · unfold Outcome.ofResult
      dsimp only
      rw [htaken]
      rfl

/-- The status tells how the run ended. -/
theorem status_cases (e : Effect Stop Unit) :
    (e.status = 0 ∧ e.ending = .ok ()) ∨
      (e.status = 101 ∧ ∃ cause, e.ending = .error (.overflow cause)) ∨
      (e.status = 1 ∧ e.ending ≠ .ok () ∧ ∀ cause, e.ending ≠ .error (.overflow cause)) := by
  unfold status
  cases e.ending with
  | ok u => exact Or.inl ⟨rfl, rfl⟩
  | error stop =>
    cases stop with
    | overflow cause => exact Or.inr (Or.inl ⟨rfl, cause, rfl⟩)
    | usage message => exact Or.inr (Or.inr ⟨rfl, nofun, nofun⟩)
    | failed message => exact Or.inr (Or.inr ⟨rfl, nofun, nofun⟩)
    | silent => exact Or.inr (Or.inr ⟨rfl, nofun, nofun⟩)

theorem status_eq_zero_iff {e : Effect Stop Unit} : e.status = 0 ↔ e.ending = .ok () := by
  rcases e.status_cases with ⟨hs, he⟩ | ⟨hs, cause, he⟩ | ⟨hs, he, -⟩
  · simp only [hs, he]
  · simp [hs, he]
  · simp [hs, he]

theorem status_eq_overflow_iff {e : Effect Stop Unit} :
    e.status = 101 ↔ ∃ cause, e.ending = .error (.overflow cause) := by
  rcases e.status_cases with ⟨hs, he⟩ | ⟨hs, cause, he⟩ | ⟨hs, -, he⟩
  · simp [hs, he]
  · simp [hs, he]
  · simp [hs, he]

end Effect

/-! ## Preparing the log -/

/-- An action after logging has been prepared. -/
def withLog (logFile : Option Text) (threshold : Log.Threshold) (body : Program Unit) :
    Program Unit := do
  Program.startLogging logFile threshold
  body

section WithLog

variable {body : Program Unit} {files files' : File.Tree} {paths : List Text}
  {e : Effect Stop Unit} {p : Text} {l : File.Location}

theorem withLog_none (threshold : Log.Threshold) :
    withLog none threshold body { files } = body (.prepared files .standardError threshold) := rfl

theorem withLog_some_of_ok (h : files.create p = .ok (l, files')) (threshold : Log.Threshold) :
    withLog (some p) threshold body { files } = body (.prepared files' (.file l) threshold) := by
  unfold withLog Program.startLogging Program.openLog
  simp only [bind, EStateM.bind]
  rw [h]
  rfl

theorem withLog_some_of_error {cause : File.Failure} (h : files.create p = .error cause)
    (threshold : Log.Threshold) :
    withLog (some p) threshold body { files } = .error (.failed cause.message) { files } := by
  unfold withLog Program.startLogging Program.openLog
  simp only [bind, EStateM.bind]
  rw [h]

/-- **A run without a log file** shows the log first. -/
theorem outcome_withLog_none (h : HasEffect files.read paths body e) (usage : Text)
    (threshold : Log.Threshold) :
    Outcome.ofResult usage (withLog none threshold body { files }) =
      e.outcome usage (Log.text (threshold.select e.records)) files := by
  have hlogs : (World.prepared files .standardError threshold).LogsTo .standardError threshold := rfl
  have hshows : (World.prepared files .standardError threshold).Shows files.read paths := by
    refine ⟨fun path _ records => ?_, rfl⟩
    rw [World.reportAll_standardError hlogs]
    rfl
  rw [withLog_none, h _ hshows]
  exact Effect.ofResult_result usage e (World.reportAll_standardError hlogs e.records) rfl rfl

/-- **A run with a log file** is the run without log but for the file. -/
theorem outcome_withLog_some (h : HasEffect files.read paths body e)
    (hcreate : files.create p = .ok (l, files')) (hway : ∀ path ∈ paths, l ∉ files.way path)
    (usage : Text) (threshold : Log.Threshold) :
    ∃ after, Outcome.ofResult usage (withLog (some p) threshold body { files }) =
        e.outcome usage [] after ∧
      SameExcept l files after ∧
      after.get? l = some (.file (Utf8.encode (Log.text (threshold.select e.records)))) := by
  have hl := File.Tree.ne_nil_of_create hcreate
  have hsame := File.Tree.sameExcept_of_create hcreate
  have hlogs : (World.prepared files' (.file l) threshold).LogsTo (.file l) threshold := rfl
  have hreport := World.reportAll_file hlogs hl (File.Tree.get?_of_create hcreate)
  -- Making the file and each record in it change one location, so the scripts are read as before.
  have hshows : (World.prepared files' (.file l) threshold).Shows files.read paths := by
    refine ⟨fun path hpath records => ?_, rfl⟩
    obtain ⟨after, hafter, hsameAfter, -⟩ := hreport records
    rw [hafter]
    exact File.Tree.read_of_sameExcept (hsame.trans hsameAfter) (hway path hpath)
  obtain ⟨after, hafter, hsameAfter, hget⟩ := hreport e.records
  rw [List.nil_append] at hget
  refine ⟨after, ?_, hsame.trans hsameAfter, hget⟩
  rw [withLog_some_of_ok hcreate, h _ hshows]
  exact Effect.ofResult_result usage e hafter rfl rfl

/-- **A run whose log file cannot be made** does nothing else. -/
theorem outcome_withLog_some_of_error {cause : File.Failure} (h : files.create p = .error cause)
    (usage : Text) (threshold : Log.Threshold) :
    Outcome.ofResult usage (withLog (some p) threshold body { files }) =
      ⟨1, [], .text (errorLine cause.message), files⟩ := by
  rw [withLog_some_of_error h]
  rfl

/-- The log file can be made, if there is to be one. -/
def CanLog (files : File.Tree) (logFile : Option Text) : Prop :=
  ∀ p, logFile = some p → ∃ made, files.create p = .ok made

/-- No script path goes to the log file or through it. -/
def LogApart (files : File.Tree) (logFile : Option Text) (paths : List Text) : Prop :=
  ∀ p l made, logFile = some p → files.create p = .ok (l, made) →
    ∀ path ∈ paths, l ∉ files.way path

/-- Status and output are those of the effect, unless the log file cannot be made. -/
theorem status_output_withLog {logFile : Option Text} (h : HasEffect files.read paths body e)
    (hapart : LogApart files logFile paths) (usage : Text) (threshold : Log.Threshold) {o : Outcome}
    (ho : Outcome.ofResult usage (withLog logFile threshold body { files }) = o) :
    (CanLog files logFile ∧ o.status = e.status ∧ o.output = Utf8.encode e.printed) ∨
      (¬ CanLog files logFile ∧ o.status = 1 ∧ o.output = []) := by
  subst ho
  cases logFile with
  | none =>
    rw [outcome_withLog_none h]
    exact Or.inl ⟨fun p hp => absurd hp nofun, rfl, rfl⟩
  | some p =>
    cases hcreate : files.create p with
    | error cause =>
      rw [outcome_withLog_some_of_error hcreate]
      refine Or.inr ⟨fun hcan => ?_, rfl, rfl⟩
      obtain ⟨made, hmade⟩ := hcan p rfl
      exact absurd (hcreate.symm.trans hmade) nofun
    | ok made =>
      obtain ⟨after, hafter, -⟩ :=
        outcome_withLog_some h hcreate (hapart p _ _ rfl hcreate) usage threshold
      rw [hafter]
      refine Or.inl ⟨fun q hq => ?_, rfl, rfl⟩
      obtain rfl := Option.some.inj hq
      exact ⟨made, hcreate⟩

end WithLog

/-! ## A script and room for a log -/

/-- One script with one command. -/
def oneScript : File.Tree where
  entries := [(["a".toList], .file (Utf8.encode "function cmd_a(\n# doc\n"))]

theorem create_oneScript : oneScript.create "log" =
    .ok (["log".toList], oneScript.set ["log".toList] (.file [])) := by decide +kernel

theorem logApart_oneScript : LogApart oneScript (some "log".toList) ["a".toList] := by
  intro p l made hp hcreate path hpath
  obtain rfl := Option.some.inj hp
  obtain rfl := List.mem_singleton.1 hpath
  obtain ⟨rfl, -⟩ := Prod.mk.inj (Except.ok.inj (create_oneScript.symm.trans hcreate))
  decide +kernel

theorem loadedFile_oneScript :
    Script.loadedFile oneScript.read "a" = .ok [⟨"a", "cmd_a", 1, "doc"⟩] := by
  have hread : oneScript.read "a" = .ok (Utf8.encode "function cmd_a(\n# doc\n") := by
    decide +kernel
  have hlines : Script.scanLines (Script.Source.readLines "function cmd_a(\n# doc\n") =
      .ok [⟨"a", "cmd_a", 1, "doc"⟩] := Script.scanLines_eq_ok_iff.2 (by decide +kernel)
  rw [Script.loadedFile_of_encode hread, hlines]
  rfl

theorem loaded_oneScript :
    Script.loaded oneScript.read ["a".toList] = .ok [⟨"a", "cmd_a", 1, "doc"⟩] := by
  have hfile := loadedFile_oneScript
  rw [Script.loadedFile_eq] at hfile
  rw [Script.loaded_eq, Script.commandsOfAll_cons, hfile]
  rfl

end CommandLine

end ShellDispatch
