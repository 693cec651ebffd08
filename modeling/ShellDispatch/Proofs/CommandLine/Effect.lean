import ShellDispatch.CommandLine.World
import ShellDispatch.Proofs.Query.Answer
import ShellDispatch.Proofs.Script.Loading

/-!
# Effects

An `Effect` is what an action does to the world, said without the world: the records that it
reports, the text that it prints and how it ends. An action that reads scripts has one effect in
every world that shows these scripts (`HasEffect`), wherever the records go: reporting and printing
change neither the scripts nor the room for output (`World.Shows.after`), so the effects of actions
in sequence are put together from theirs (`hasEffect_bind`).
-/

namespace ShellDispatch.CommandLine

open Script (commandsOf commandsOfAll findings)

/-! ## Worlds that show scripts -/

namespace World

/-- The world with a text added to its output. -/
def print (t : Text) (w : World) : World :=
  { w with output := { w.output with taken := w.output.taken ++ Utf8.encode t } }

/-- The world after records and a printed text. -/
def after (w : World) (records : List Log.Record) (printed : Text) : World :=
  (host.reportAll records w).print printed

/-- The scripts at the paths have these contents, whatever is reported, and there is room for any
output. -/
structure Shows (w : World) (content : Text → Except File.Failure Bytes) (paths : List Text) :
    Prop where
  holds : host.Holds content paths w
  room : w.output.room = none

variable {w : World} {content : Text → Except File.Failure Bytes} {paths : List Text}

theorem log_print (r : Log.Record) (t : Text) (w : World) :
    (w.print t).log r = (w.log r).print t := by
  have hreceiver : (w.print t).logging.receiver? r.level = w.logging.receiver? r.level := rfl
  unfold log
  rw [hreceiver]
  cases w.logging.receiver? r.level with
  | none => rfl
  | some sink =>
    cases sink with
    | standardError => rfl
    | file location => rfl

theorem reportAll_cons (r : Log.Record) (records : List Log.Record) (w : World) :
    host.reportAll (r :: records) w = host.reportAll records (w.log r) := rfl

theorem reportAll_print (records : List Log.Record) (t : Text) (w : World) :
    host.reportAll records (w.print t) = (host.reportAll records w).print t := by
  induction records generalizing w with
  | nil => rfl
  | cons r records ih => rw [reportAll_cons, reportAll_cons, log_print, ih]

theorem output_log (r : Log.Record) (w : World) : (w.log r).output = w.output := by
  unfold log
  split <;> rfl

theorem output_reportAll (records : List Log.Record) (w : World) :
    (host.reportAll records w).output = w.output := by
  induction records generalizing w with
  | nil => rfl
  | cons r records ih => rw [reportAll_cons, ih, output_log]

theorem print_print (s t : Text) (w : World) : (w.print s).print t = w.print (s ++ t) := by
  unfold print
  rw [Utf8.encode_append, ← List.append_assoc]

theorem print_nil (w : World) : w.print [] = w := by
  unfold print
  rw [Utf8.encode_nil, List.append_nil]

theorem after_after (w : World) (records more : List Log.Record) (s t : Text) :
    (w.after records s).after more t = w.after (records ++ more) (s ++ t) := by
  unfold after
  rw [reportAll_print, print_print, Script.Host.reportAll_append]

/-- Reporting and printing leave the scripts as they are. -/
theorem Shows.after (h : w.Shows content paths) (records : List Log.Record) (t : Text) :
    (w.after records t).Shows content paths where
  holds path hpath more := by
    have hread := h.holds path hpath (records ++ more)
    rw [Script.Host.reportAll_append] at hread
    unfold World.after
    rw [reportAll_print]
    exact hread
  room := by
    show (host.reportAll records w).output.room = none
    rw [output_reportAll]
    exact h.room

end World

/-! ## Effects of actions -/

/-- What an action does in any world. -/
structure Effect (ε α : Type) where
  records : List Log.Record
  printed : Text
  ending : Except ε α

namespace Effect

variable {ε α β : Type}

/-- What the effect makes of a world. -/
def result (e : Effect ε α) (w : World) : EStateM.Result ε World α :=
  match e.ending with
  | .ok a => .ok a (w.after e.records e.printed)
  | .error cause => .error cause (w.after e.records e.printed)

theorem result_after (e : Effect ε α) (w : World) (records : List Log.Record) (t : Text) :
    e.result (w.after records t) = result ⟨records ++ e.records, t ++ e.printed, e.ending⟩ w := by
  unfold result
  dsimp only
  rw [World.after_after]

/-- One effect and then another, unless the first ends in an error. -/
def bind (e : Effect ε α) (f : α → Effect ε β) : Effect ε β :=
  match e.ending with
  | .ok a => ⟨e.records ++ (f a).records, e.printed ++ (f a).printed, (f a).ending⟩
  | .error cause => ⟨e.records, e.printed, .error cause⟩

/-- An effect and, if it ends in an error, the effect of handling the error. -/
def handle {δ : Type} (e : Effect ε Unit) (g : ε → Effect δ Unit) : Effect δ Unit :=
  match e.ending with
  | .ok () => ⟨e.records, e.printed, .ok ()⟩
  | .error cause =>
    ⟨e.records ++ (g cause).records, e.printed ++ (g cause).printed, (g cause).ending⟩

end Effect

section HasEffect

variable {ε δ α β : Type} {content : Text → Except File.Failure Bytes} {paths : List Text}

/-- The action has the effect in every world that shows the scripts. -/
def HasEffect (content : Text → Except File.Failure Bytes) (paths : List Text)
    (x : EStateM ε World α) (e : Effect ε α) : Prop :=
  ∀ w : World, w.Shows content paths → x w = e.result w

theorem hasEffect_pure (a : α) :
    HasEffect content paths (pure a : EStateM ε World α) ⟨[], [], .ok a⟩ := by
  intro w hw
  show EStateM.Result.ok a w = .ok a (w.print [])
  rw [World.print_nil]

theorem hasEffect_throw (cause : ε) :
    HasEffect content paths (throw cause : EStateM ε World α) ⟨[], [], .error cause⟩ := by
  intro w hw
  show EStateM.Result.error cause w = .error cause (w.print [])
  rw [World.print_nil]

theorem hasEffect_bind {x : EStateM ε World α} {f : α → EStateM ε World β} {e : Effect ε α}
    {g : α → Effect ε β} (hx : HasEffect content paths x e)
    (hf : ∀ a, e.ending = .ok a → HasEffect content paths (f a) (g a)) :
    HasEffect content paths (x >>= f) (e.bind g) := by
  intro w hw
  have hxw := hx w hw
  obtain ⟨records, printed, ending⟩ := e
  show EStateM.bind x f w = _
  unfold EStateM.bind
  rw [hxw]
  cases ending with
  | error cause => rfl
  | ok a =>
    -- The second action runs in a changed world, which shows the same scripts.
    show f a (w.after records printed) = _
    rw [hf a rfl _ (hw.after records printed), Effect.result_after]
    rfl

/-- An action and, if it ends in an error, the handling of the error. -/
def handled (x : EStateM ε World Unit) (f : ε → EStateM δ World Unit) :
    EStateM δ World Unit := fun w =>
  match x w with
  | .ok () w => .ok () w
  | .error cause w => f cause w

theorem hasEffect_handled {x : EStateM ε World Unit} {f : ε → EStateM δ World Unit}
    {e : Effect ε Unit} {g : ε → Effect δ Unit} (hx : HasEffect content paths x e)
    (hf : ∀ cause, e.ending = .error cause → HasEffect content paths (f cause) (g cause)) :
    HasEffect content paths (handled x f) (e.handle g) := by
  intro w hw
  have hxw := hx w hw
  obtain ⟨records, printed, ending⟩ := e
  unfold handled
  rw [hxw]
  cases ending with
  | ok a => rfl
  | error cause =>
    show f cause (w.after records printed) = _
    rw [hf cause rfl _ (hw.after records printed), Effect.result_after]
    rfl

/-- An effect in which the error has another name. -/
theorem hasEffect_adaptExcept {x : EStateM ε World α} {e : Effect ε α} (f : ε → δ)
    (hx : HasEffect content paths x e) :
    HasEffect content paths (x.adaptExcept f) ⟨e.records, e.printed, e.ending.mapError f⟩ := by
  intro w hw
  show EStateM.adaptExcept f x w = _
  unfold EStateM.adaptExcept
  rw [hx w hw]
  unfold Effect.result
  cases e.ending with
  | ok a => rfl
  | error cause => rfl

theorem hasEffect_report (r : Log.Record) :
    HasEffect content paths (modify (World.host.report r) : EStateM ε World Unit)
      ⟨[r], [], .ok ()⟩ := by
  intro w hw
  show EStateM.Result.ok () (w.log r) = .ok () ((w.log r).print [])
  rw [World.print_nil]

/-! ### Printing -/

/-- What an action writes to a sink without a bound is printed where it acts on the output. -/
theorem hasEffect_onOutput {x : EStateM ε File.Sink α} {t : Text} {ending : Except ε α}
    (hx : Answer.Writes x t ending) :
    HasEffect content paths (World.onOutput x) ⟨[], t, ending⟩ := by
  intro w hw
  have hroom := hw.room
  obtain ⟨files, logging, ⟨taken, room⟩, errorText⟩ := w
  obtain rfl : room = none := hroom
  unfold World.onOutput
  dsimp only
  rw [hx taken]
  cases ending with
  | ok a => rfl
  | error cause => rfl

theorem hasEffect_print (t : Text) :
    HasEffect content paths (Program.print t) ⟨[], t, .ok ()⟩ :=
  hasEffect_adaptExcept _ (hasEffect_onOutput (Answer.writes_write t))

theorem hasEffect_print_throw (t : Text) (stop : Stop) :
    HasEffect content paths (do Program.print t; throw stop : Program Unit)
      ⟨[], t, .error stop⟩ := by
  have heffect : HasEffect content paths (do Program.print t; throw stop : Program Unit) _ :=
    hasEffect_bind (hasEffect_print t) fun _ _ => hasEffect_throw stop
  unfold Effect.bind at heffect
  dsimp only at heffect
  rw [List.append_nil, List.append_nil] at heffect
  exact heffect

/-! ### Scripts -/

/-- The records about the commands of a file, if it can be scanned. -/
def recordsOf (path : Text) (content : Except File.Failure Bytes) : List Log.Record :=
  match commandsOf path content with
  | .ok commands => findings path commands
  | .error _ => []

theorem hasEffect_scanFile {path : Text} (h : path ∈ paths) :
    HasEffect content paths (Script.scanFile World.host path)
      ⟨recordsOf path (content path), [], commandsOf path (content path)⟩ := by
  intro w hw
  have hread : World.host.read path w = content path := hw.holds path h []
  rw [Script.scanFile_eq, hread]
  unfold recordsOf Effect.result World.after
  dsimp only
  cases commandsOf path (content path) with
  | error e =>
    dsimp only
    rw [World.print_nil]
    rfl
  | ok commands =>
    dsimp only
    rw [World.print_nil]

/-- Scanning files has the commands of all of them as its result. -/
theorem exists_hasEffect_scanFiles {files : List Text} (h : ∀ path ∈ files, path ∈ paths) :
    ∃ records, HasEffect content paths (Script.scanFiles World.host files)
      ⟨records, [], commandsOfAll content files⟩ := by
  induction files with
  | nil => exact ⟨[], hasEffect_pure []⟩
  | cons path files ih =>
    rw [List.forall_mem_cons] at h
    obtain ⟨more, hmore⟩ := ih h.2
    have heffect : HasEffect content paths (Script.scanFiles World.host (path :: files)) _ :=
      hasEffect_bind (hasEffect_scanFile h.1) fun commands _ =>
        hasEffect_bind hmore fun others _ => hasEffect_pure (commands ++ others)
    rw [Script.commandsOfAll_cons]
    cases hpath : commandsOf path (content path) with
    | error e =>
      rw [hpath] at heffect
      exact ⟨_, heffect⟩
    | ok commands =>
      rw [hpath] at heffect
      cases hfiles : commandsOfAll content files with
      | error e =>
        rw [hfiles] at heffect
        exact ⟨_, heffect⟩
      | ok others =>
        rw [hfiles] at heffect
        exact ⟨_, heffect⟩

/-- Loading files has the commands of all of them as its result. -/
theorem exists_hasEffect_loadScripts {files : List Text} (h : ∀ path ∈ files, path ∈ paths) :
    ∃ records, HasEffect content paths (Program.loadScripts files)
      ⟨records, [], (commandsOfAll content files).mapError fun e => .failed e.message⟩ := by
  obtain ⟨records, hfiles⟩ : ∃ records, HasEffect content paths
      (Script.scanFiles World.host files) ⟨records, [], commandsOfAll content files⟩ :=
    exists_hasEffect_scanFiles h
  have heffect : HasEffect content paths (Script.loadScripts World.host files) _ :=
    hasEffect_bind hfiles fun commands _ =>
      hasEffect_bind (hasEffect_report (Script.totals commands files)) fun _ _ =>
        hasEffect_pure commands
  cases hcommands : commandsOfAll content files with
  | error e =>
    rw [hcommands] at heffect
    exact ⟨_, hasEffect_adaptExcept _ heffect⟩
  | ok commands =>
    rw [hcommands] at heffect
    exact ⟨_, hasEffect_adaptExcept _ heffect⟩

end HasEffect

end ShellDispatch.CommandLine
