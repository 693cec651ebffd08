import ShellDispatch.Proofs.CommandLine.Arguments
import ShellDispatch.Proofs.CommandLine.Run

/-!
# Runs that answer a query

The arguments decide first: something is missing, or the subcommand does not exist, or a query is
asked on a script (`QueryArguments.exists_asks`). Files matter only in the last case. There the
script decides, and after it the query (`run_query`).
-/

namespace ShellDispatch

/-! ## What words ask -/

namespace Query

/-- The subcommands. -/
def subcommands : List Text := ["help".toList, "helpall".toList, "lookup".toList]

theorem helpall_ne_help : "helpall".toList ≠ "help".toList := by decide +kernel

theorem lookup_ne_help : "lookup".toList ≠ "help".toList := by decide +kernel

theorem lookup_ne_helpall : "lookup".toList ≠ "helpall".toList := by decide +kernel

variable {sub : Text} {words : List Text} {query : Query}

/-- Each query comes from one of the subcommands. -/
theorem ofWords_eq_ok_iff :
    ofWords sub words = .ok query ↔
      sub = "help".toList ∧ query = .help (.ofWord words.head?) ∨
      sub = "helpall".toList ∧ query = .help .listing ∨
      sub = "lookup".toList ∧ ∃ name, words.head? = some name ∧ query = .lookup name := by
  unfold ofWords
  constructor
  · intro h
    split_ifs at h with hhelp hhelpall hlookup
    · exact Or.inl ⟨hhelp, (Except.ok.inj h).symm⟩
    · exact Or.inr (Or.inl ⟨hhelpall, (Except.ok.inj h).symm⟩)
    · refine Or.inr (Or.inr ⟨hlookup, ?_⟩)
      cases hwords : words.head? with
      | none =>
        rw [hwords] at h
        exact absurd h nofun
      | some name =>
        rw [hwords] at h
        exact ⟨name, rfl, (Except.ok.inj h).symm⟩
  · rintro (⟨rfl, rfl⟩ | ⟨rfl, rfl⟩ | ⟨rfl, name, hname, rfl⟩)
    · exact if_pos rfl
    · rw [if_neg helpall_ne_help, if_pos rfl]
    · rw [if_neg lookup_ne_help, if_neg lookup_ne_helpall, if_pos rfl, hname]

theorem ofWords_of_not_mem (h : sub ∉ subcommands) (words : List Text) :
    ofWords sub words = .error (.unknownSubcommand sub) := by
  unfold subcommands at h
  simp only [List.mem_cons, List.not_mem_nil, or_false, not_or] at h
  obtain ⟨hhelp, hhelpall, hlookup⟩ := h
  unfold ofWords
  rw [if_neg hhelp, if_neg hhelpall, if_neg hlookup]

theorem ofWords_lookup_nil : ofWords "lookup" [] = .error .missingName := by
  unfold ofWords
  rw [if_neg lookup_ne_help, if_neg lookup_ne_helpall, if_pos rfl]
  rfl

theorem ofWords_congr {more : List Text} (h : words.head? = more.head?) :
    ofWords sub words = ofWords sub more := by
  unfold ofWords
  rw [h]

variable {word : Option Text}

theorem asked?_help_ofWord_eq_some_iff {name : Text} :
    Answer.asked? (.help (.ofWord word)) = some name ↔ word = some name ∧ name ≠ [] := by
  cases word with
  | none => exact ⟨nofun, fun h => absurd h.1 nofun⟩
  | some word =>
    cases word with
    | nil =>
      refine ⟨nofun, ?_⟩
      rintro ⟨hword, hname⟩
      exact absurd (Option.some.inj hword).symm hname
    | cons c word =>
      constructor
      · intro h
        obtain rfl := Option.some.inj h
        exact ⟨rfl, List.cons_ne_nil c word⟩
      · rintro ⟨hword, -⟩
        exact hword

theorem asked?_help_ofWord_eq_none_iff :
    Answer.asked? (.help (.ofWord word)) = none ↔ word = none ∨ word = some [] := by
  cases word with
  | none => exact ⟨fun _ => Or.inl rfl, fun _ => rfl⟩
  | some word =>
    cases word with
    | nil => exact ⟨fun _ => Or.inr rfl, fun _ => rfl⟩
    | cons c word => exact ⟨nofun, by simp⟩

end Query

namespace CommandLine

/-! ## What the arguments ask -/

namespace QueryArguments

/-- Something that every query needs is missing. -/
def Incomplete (a : QueryArguments) : Prop :=
  a.script = none ∨ a.subcommand = none ∨ a.subcommand = some "lookup".toList ∧ a.words = []

/-- The subcommand is `sub`, and there is none of this name. -/
def Unknown (a : QueryArguments) (sub : Text) : Prop :=
  a.subcommand = some sub ∧ sub ∉ Query.subcommands

/-- The listing of the script is asked for. -/
def AsksListing (a : QueryArguments) : Prop :=
  a.subcommand = some "helpall".toList ∨
    a.subcommand = some "help".toList ∧ (a.words.head? = none ∨ a.words.head? = some [])

/-- The command with the name is asked for. -/
def AsksFor (a : QueryArguments) (name : Text) : Prop :=
  a.words.head? = some name ∧
    (a.subcommand = some "lookup".toList ∨ a.subcommand = some "help".toList ∧ name ≠ [])

/-- The query that the arguments pose. -/
inductive Poses (a : QueryArguments) : Query → Prop where
  | helpall (hsub : a.subcommand = some "helpall".toList) : Poses a (.help .listing)
  | help (hsub : a.subcommand = some "help".toList) (hword : a.words.head? = none) :
    Poses a (.help .unspecified)
  | helpEmpty (hsub : a.subcommand = some "help".toList) (hword : a.words.head? = some []) :
    Poses a (.help .listing)
  | helpFor {name : Text} (hsub : a.subcommand = some "help".toList)
    (hword : a.words.head? = some name) (hne : name ≠ []) : Poses a (.help (.command name))
  | lookup {name : Text} (hsub : a.subcommand = some "lookup".toList)
    (hword : a.words.head? = some name) : Poses a (.lookup name)

/-- The query is asked on the script. -/
def Asks (a : QueryArguments) (script : Text) (query : Query) : Prop :=
  a.script = some script ∧ ∃ sub, a.subcommand = some sub ∧ Query.ofWords sub a.words = .ok query

variable {a : QueryArguments} {script : Text} {query : Query}

/-- Arguments that lack nothing and have a subcommand that exists ask a query. -/
theorem exists_asks (hcomplete : ¬ a.Incomplete) (hknown : ∀ sub, ¬ a.Unknown sub) :
    ∃ script query, a.Asks script query := by
  unfold Incomplete at hcomplete
  rw [not_or, not_or] at hcomplete
  obtain ⟨hscript, hsub, hname⟩ := hcomplete
  obtain ⟨script, hscript⟩ := Option.ne_none_iff_exists'.1 hscript
  obtain ⟨sub, hsub⟩ := Option.ne_none_iff_exists'.1 hsub
  have hmem : sub ∈ Query.subcommands := by
    by_contra hmem
    exact hknown sub ⟨hsub, hmem⟩
  unfold Query.subcommands at hmem
  simp only [List.mem_cons, List.not_mem_nil, or_false] at hmem
  rcases hmem with hhelp | hhelpall | hlookup
  · exact ⟨script, _, hscript, sub, hsub, Query.ofWords_eq_ok_iff.2 (Or.inl ⟨hhelp, rfl⟩)⟩
  · exact ⟨script, _, hscript, sub, hsub,
      Query.ofWords_eq_ok_iff.2 (Or.inr (Or.inl ⟨hhelpall, rfl⟩))⟩
  · cases hwords : a.words with
    | nil =>
      subst hlookup
      exact absurd ⟨hsub, hwords⟩ hname
    | cons name words =>
      refine ⟨script, .lookup name, hscript, sub, hsub, ?_⟩
      rw [hwords]
      exact Query.ofWords_eq_ok_iff.2 (Or.inr (Or.inr ⟨hlookup, name, rfl, rfl⟩))

theorem poses_iff :
    a.Poses query ↔ ∃ sub, a.subcommand = some sub ∧ Query.ofWords sub a.words = .ok query := by
  constructor
  · intro h
    cases h with
    | helpall hsub => exact ⟨_, hsub, Query.ofWords_eq_ok_iff.2 (Or.inr (Or.inl ⟨rfl, rfl⟩))⟩
    | help hsub hword =>
      refine ⟨_, hsub, Query.ofWords_eq_ok_iff.2 (Or.inl ⟨rfl, ?_⟩)⟩
      rw [hword]
      rfl
    | helpEmpty hsub hword =>
      refine ⟨_, hsub, Query.ofWords_eq_ok_iff.2 (Or.inl ⟨rfl, ?_⟩)⟩
      rw [hword]
      rfl
    | @helpFor name hsub hword hne =>
      refine ⟨_, hsub, Query.ofWords_eq_ok_iff.2 (Or.inl ⟨rfl, ?_⟩)⟩
      rw [hword]
      cases name with
      | nil => exact absurd rfl hne
      | cons c name => rfl
    | lookup hsub hword =>
      exact ⟨_, hsub, Query.ofWords_eq_ok_iff.2 (Or.inr (Or.inr ⟨rfl, _, hword, rfl⟩))⟩
  · rintro ⟨sub, hsub, hquery⟩
    rcases Query.ofWords_eq_ok_iff.1 hquery with ⟨rfl, rfl⟩ | ⟨rfl, rfl⟩ | ⟨rfl, name, hword, rfl⟩
    · cases hword : a.words.head? with
      | none => exact .help hsub hword
      | some name =>
        cases name with
        | nil => exact .helpEmpty hsub hword
        | cons c name => exact .helpFor hsub hword (List.cons_ne_nil c name)
    · exact .helpall hsub
    · exact .lookup hsub hword

theorem Asks.poses (h : a.Asks script query) : a.Poses query := poses_iff.2 h.2

/-- No other query is posed than the one asked. -/
theorem Asks.eq_of_poses (h : a.Asks script query) {other : Query} (hposes : a.Poses other) :
    query = other := by
  obtain ⟨-, sub, hsub, hquery⟩ := h
  obtain ⟨sub', hsub', hother⟩ := poses_iff.1 hposes
  obtain rfl := Option.some.inj (hsub.symm.trans hsub')
  exact Except.ok.inj (hquery.symm.trans hother)

theorem Asks.asksFor_iff (h : a.Asks script query) {name : Text} :
    a.AsksFor name ↔ Answer.asked? query = some name := by
  obtain ⟨-, sub, hsub, hquery⟩ := h
  unfold AsksFor
  rw [hsub, Option.some.injEq, Option.some.injEq]
  rcases Query.ofWords_eq_ok_iff.1 hquery with ⟨rfl, rfl⟩ | ⟨rfl, rfl⟩ | ⟨rfl, other, hother, rfl⟩
  · rw [Query.asked?_help_ofWord_eq_some_iff]
    have hne := Query.lookup_ne_help.symm
    simp only [hne, false_or, true_and]
  · have hhelp := Query.helpall_ne_help
    have hlookup := Query.lookup_ne_helpall.symm
    simp only [hhelp, hlookup, false_and, or_false, and_false, false_iff]
    exact nofun
  · rw [hother]
    simp only [true_or, and_true]
    exact Iff.rfl

theorem Asks.asksListing_iff (h : a.Asks script query) :
    a.AsksListing ↔ Answer.asked? query = none := by
  obtain ⟨-, sub, hsub, hquery⟩ := h
  unfold AsksListing
  rw [hsub, Option.some.injEq, Option.some.injEq]
  rcases Query.ofWords_eq_ok_iff.1 hquery with ⟨rfl, rfl⟩ | ⟨rfl, rfl⟩ | ⟨rfl, other, hother, rfl⟩
  · rw [Query.asked?_help_ofWord_eq_none_iff]
    have hne := Query.helpall_ne_help.symm
    simp only [hne, false_or, true_and]
  · simp only [true_or, true_iff]
    rfl
  · have hhelp := Query.lookup_ne_help
    have hhelpall := Query.lookup_ne_helpall
    simp only [hhelp, hhelpall, false_and, or_self, false_iff]
    exact nofun

end QueryArguments

/-! ## What the tool does -/

/-- Answers the query on the script at a path. -/
def answerBody (script : Text) (query : Query) : Program Unit := do
  let commands ← Program.scanFile script
  writeAnswer commands query

/-- What the tool does after it has prepared its log. -/
def queryBody (a : QueryArguments) : Program Unit :=
  match a.script, a.subcommand with
  | none, _ => throw (.usage "Expected a bash file to parse for argument 1.")
  | some _, none => throw (.usage "Expected a subcommand for argument 2.")
  | some script, some subcommand => do
    let query ← readQuery subcommand a.words
    answerBody script query

section Body

variable {a b : QueryArguments}

theorem queryBody_of_asks {script : Text} {query : Query} (h : a.Asks script query) :
    queryBody a = answerBody script query := by
  obtain ⟨hscript, sub, hsub, hquery⟩ := h
  unfold queryBody
  rw [hscript, hsub]
  dsimp only
  unfold readQuery
  rw [hquery]
  rfl

theorem queryBody_of_incomplete (h : a.Incomplete) :
    ∃ message, queryBody a = throw (.usage message) := by
  unfold queryBody
  cases hscript : a.script with
  | none => exact ⟨_, rfl⟩
  | some script =>
    cases hsub : a.subcommand with
    | none => exact ⟨_, rfl⟩
    | some sub =>
      rcases h with hnone | hnone | ⟨hlookup, hwords⟩
      · exact absurd (hscript.symm.trans hnone) nofun
      · exact absurd (hsub.symm.trans hnone) nofun
      · obtain rfl := Option.some.inj (hsub.symm.trans hlookup)
        dsimp only
        unfold readQuery
        rw [hwords, Query.ofWords_lookup_nil]
        exact ⟨_, rfl⟩

theorem queryBody_of_unknown {sub : Text} (h : a.Unknown sub) (ha : a.Ordered) :
    queryBody a =
      (do Program.print (Text.line ("Unknown command " ++ sub ++ ".")); throw .silent) := by
  obtain ⟨hsub, hmem⟩ := h
  have hscript : a.script ≠ none := fun hnone => absurd (hsub.symm.trans (ha hnone)) nofun
  obtain ⟨script, hscript⟩ := Option.ne_none_iff_exists'.1 hscript
  unfold queryBody
  rw [hscript, hsub]
  dsimp only
  unfold readQuery
  rw [Query.ofWords_of_not_mem hmem]
  dsimp only
  rw [bind_assoc]
  rfl

/-- Only the first of the words counts. -/
theorem queryBody_congr (hscript : b.script = a.script) (hsub : b.subcommand = a.subcommand)
    (hwords : b.words.head? = a.words.head?) : queryBody b = queryBody a := by
  unfold queryBody readQuery
  rw [hscript, hsub]
  simp only [Query.ofWords_congr hwords]

end Body

/-! ### Effects -/

section Effects

variable {content : Text → Except File.Failure Bytes} {paths : List Text}

/-- The effect of ending a run after an answer that could not be given. -/
def endEffect : Answer.Error → Effect Stop Unit
  | .lookupMiss name => ⟨[Query.missed name], [], .error .silent⟩
  | .notFound name => ⟨[], Text.line (Answer.Error.notFound name).message, .error .silent⟩
  | .unwritten cause => ⟨[], [], .error (.failed cause.message)⟩
  | .overflow cause => ⟨[], [], .error (.overflow cause)⟩

theorem hasEffect_endWithout (e : Answer.Error) :
    HasEffect content paths (endWithout e) (endEffect e) := by
  cases e with
  | lookupMiss name =>
    exact hasEffect_bind (hasEffect_report (Query.missed name)) fun _ _ => hasEffect_throw Stop.silent
  | notFound name =>
    exact hasEffect_print_throw _ .silent
  | unwritten cause => exact hasEffect_throw _
  | overflow cause => exact hasEffect_throw _

/-- The effect of an answer that writes a text and ends so. -/
def answerEffect (commands : List Command) (query : Query) (t : Text)
    (ending : Except Answer.Error Unit) : Effect Stop Unit :=
  Effect.bind ⟨[query.started commands], [], .ok ()⟩ fun _ =>
    Effect.handle ⟨[], t, ending⟩ endEffect

theorem writeAnswer_eq (commands : List Command) (query : Query) :
    writeAnswer commands query = (do
      Program.log (query.started commands)
      handled (World.onOutput (Answer.write commands query)) endWithout) := by
  unfold writeAnswer handled
  congr 1
  funext u w
  cases World.onOutput (Answer.write commands query) w with
  | ok u w => rfl
  | error e w => rfl

theorem hasEffect_writeAnswer {commands : List Command} {query : Query} {t : Text}
    {ending : Except Answer.Error Unit} (h : Answer.Writes (Answer.write commands query) t ending) :
    HasEffect content paths (writeAnswer commands query) (answerEffect commands query t ending) := by
  rw [writeAnswer_eq]
  exact hasEffect_bind (hasEffect_report (query.started commands)) fun _ _ =>
    hasEffect_handled (hasEffect_onOutput h) fun cause _ => hasEffect_endWithout cause

theorem hasEffect_answerBody (content : Text → Except File.Failure Bytes) {script : Text}
    (hpath : script ∈ paths) (query : Query) {g : List Command → Effect Stop Unit}
    (hg : ∀ commands, Script.commandsOf script (content script) = .ok commands →
      HasEffect content paths (writeAnswer commands query) (g commands)) :
    HasEffect content paths (answerBody script query)
      (Effect.bind ⟨recordsOf script (content script), [],
        (Script.commandsOf script (content script)).mapError fun e => .failed e.message⟩ g) := by
  refine hasEffect_bind (hasEffect_adaptExcept _ (hasEffect_scanFile hpath)) ?_
  intro commands hcommands
  dsimp only at hcommands
  cases hscript : Script.commandsOf script (content script) with
  | error e =>
    rw [hscript] at hcommands
    exact absurd hcommands nofun
  | ok others =>
    rw [hscript] at hcommands
    obtain rfl := Except.ok.inj hcommands
    exact hg others hscript

variable {a : QueryArguments} {script : Text} {query : Query} {commands : List Command}

theorem exists_hasEffect_of_incomplete (h : a.Incomplete) :
    ∃ message, ∀ content, HasEffect content [] (queryBody a) ⟨[], [], .error (.usage message)⟩ := by
  obtain ⟨message, hbody⟩ := queryBody_of_incomplete h
  rw [hbody]
  exact ⟨message, fun content => hasEffect_throw _⟩

theorem hasEffect_of_unknown {sub : Text} (h : a.Unknown sub) (ha : a.Ordered)
    (content : Text → Except File.Failure Bytes) :
    HasEffect content [] (queryBody a)
      ⟨[], Text.line ("Unknown command " ++ sub ++ "."), .error .silent⟩ := by
  rw [queryBody_of_unknown h ha]
  exact hasEffect_print_throw _ .silent

/-- Arguments that ask no query have one effect, whatever the scripts hold. -/
theorem exists_hasEffect_of_refused (h : a.Incomplete ∨ ∃ sub, a.Unknown sub) (ha : a.Ordered) :
    ∃ e, ∀ content, HasEffect content [] (queryBody a) e := by
  rcases h with h | ⟨sub, h⟩
  · obtain ⟨message, heffect⟩ := exists_hasEffect_of_incomplete h
    exact ⟨_, heffect⟩
  · exact ⟨_, hasEffect_of_unknown h ha⟩

theorem hasEffect_query_of_unloaded (hasks : a.Asks script query) {e : Script.ScanError}
    (hload : Script.commandsOf script (content script) = .error e) :
    HasEffect content [script] (queryBody a) ⟨[], [], .error (.failed e.message)⟩ := by
  have heffect := hasEffect_answerBody content (List.mem_singleton_self script) query
    (g := fun _ => ⟨[], [], .ok ()⟩) fun commands hcommands =>
      absurd (hload.symm.trans hcommands) nofun
  unfold recordsOf at heffect
  rw [hload] at heffect
  rw [queryBody_of_asks hasks]
  exact heffect

theorem exists_hasEffect_query_of_writes (hasks : a.Asks script query)
    (hload : Script.commandsOf script (content script) = .ok commands) {t : Text}
    {ending : Except Answer.Error Unit} (h : Answer.Writes (Answer.write commands query) t ending) :
    ∃ records, HasEffect content [script] (queryBody a)
      { Effect.handle ⟨[], t, ending⟩ endEffect with records } := by
  have heffect := hasEffect_answerBody content (List.mem_singleton_self script) query
    (g := fun _ => answerEffect commands query t ending) fun others hothers => by
      obtain rfl := Except.ok.inj (hload.symm.trans hothers)
      exact hasEffect_writeAnswer h
  rw [hload] at heffect
  rw [queryBody_of_asks hasks]
  exact ⟨_, heffect⟩

/-- A listing is shown if it can be aligned, and a name is answered if a command has it. -/
theorem exists_hasEffect_answered (hasks : a.Asks script query)
    (hload : Script.commandsOf script (content script) = .ok commands)
    (halign : Listing.CanAlign commands)
    (h : ∀ name, Answer.asked? query = some name → ∃ c ∈ commands, c.name = name) :
    ∃ records t, HasEffect content [script] (queryBody a) ⟨records, t, .ok ()⟩ ∧
      Answer.Writes (Answer.write commands query) t (.ok ()) := by
  obtain ⟨t, hwrites⟩ : ∃ t, Answer.Writes (Answer.write commands query) t (.ok ()) := by
    cases hasked : Answer.asked? query with
    | none =>
      obtain ⟨t, ending, hwrites, hending⟩ := Answer.exists_writes_of_listing commands hasked
      obtain rfl := hending halign
      exact ⟨t, hwrites⟩
    | some name =>
      obtain ⟨c, hc, hname⟩ := h name hasked
      cases hfind : Answer.find? commands name with
      | none => exact absurd hname (Answer.find?_eq_none_iff.1 hfind c hc)
      | some d => exact Answer.exists_writes_of_known hasked hfind
  obtain ⟨records, heffect⟩ := exists_hasEffect_query_of_writes hasks hload hwrites
  exact ⟨records, t, heffect, hwrites⟩

/-- A name that is unknown is looked up without output. -/
theorem exists_hasEffect_lookupMiss {name : Text} (hasks : a.Asks script (.lookup name))
    (hload : Script.commandsOf script (content script) = .ok commands)
    (h : ∀ c ∈ commands, c.name ≠ name) :
    ∃ records, HasEffect content [script] (queryBody a) ⟨records, [], .error .silent⟩ := by
  obtain ⟨records, heffect⟩ := exists_hasEffect_query_of_writes hasks hload
    (Answer.writes_of_unknown rfl (Answer.find?_eq_none_iff.2 h))
  exact ⟨records, heffect⟩

/-- Help about a name that is unknown says so. -/
theorem exists_hasEffect_notFound {name : Text} (hasks : a.Asks script (.help (.command name)))
    (hload : Script.commandsOf script (content script) = .ok commands)
    (h : ∀ c ∈ commands, c.name ≠ name) :
    ∃ records, HasEffect content [script] (queryBody a)
      ⟨records, name ++ " is not a valid command. Use 'help' to see all commands.\n".toList,
        .error .silent⟩ := by
  obtain ⟨records, heffect⟩ := exists_hasEffect_query_of_writes hasks hload
    (Answer.writes_of_unknown rfl (Answer.find?_eq_none_iff.2 h))
  have hend : " is not a valid command. Use 'help' to see all commands.".toList ++ ['\n'] =
      " is not a valid command. Use 'help' to see all commands.\n".toList := by decide +kernel
  have hreply : Text.line (Answer.Error.notFound name).message =
      name ++ " is not a valid command. Use 'help' to see all commands.\n".toList := by
    rw [← hend]
    exact List.append_assoc name _ ['\n']
  exact ⟨records, hreply ▸ heffect⟩

end Effects

/-! ## Whole runs -/

/-- The run fails with status 1 and this output. -/
def Outcome.FailsWith (o : Outcome) (t : Text) : Prop := o.status = 1 ∧ o.output = Utf8.encode t

/-- Nothing that the runs show tells them apart. -/
def Outcome.LooksLike (o o' : Outcome) : Prop :=
  o.status = o'.status ∧ o.output = o'.output ∧ o.diagnostics = o'.diagnostics

/-- What is left of a run that asked about loaded commands. -/
structure Outcome.Answers (o : Outcome) (a : QueryArguments) (commands : List Command) : Prop where
  /-- Success means that the listing is asked for or a command that there is. -/
  status_eq_zero_iff :
    o.status = 0 ↔ a.AsksListing ∨ ∃ name, a.AsksFor name ∧ ∃ c ∈ commands, c.name = name
  /-- After a success the output is the answer. -/
  output : o.status = 0 → ∃ query sink, a.Poses query ∧
    Answer.write commands query {} = .ok () sink ∧ o.output = sink.taken
  lookupMiss : ∀ name, a.Poses (.lookup name) → (∀ c ∈ commands, c.name ≠ name) → o.FailsWith []
  notFound : ∀ name, a.Poses (.help (.command name)) → (∀ c ∈ commands, c.name ≠ name) →
    o.FailsWith (name ++ " is not a valid command. Use 'help' to see all commands.\n".toList)

section Run

variable {words : List Text} {a : QueryArguments}

theorem run_query_eq (h : QueryArguments.ofWords {} words = .ok (.run a)) (setting : Option Text)
    (files : File.Tree) :
    Tool.run .query words setting files = .ofResult queryUsage
      (withLog a.logFile (.ofSetting setting) (queryBody a) { files }) := by
  show Outcome.ofRequest _ _ _ files (QueryArguments.ofWords {} words) = _
  rw [h]
  rfl

theorem run_query_of_hasEffect (hwords : QueryArguments.ofWords {} words = .ok (.run a))
    (hlog : a.logFile = none) {files : File.Tree} {paths : List Text} {e : Effect Stop Unit}
    (h : HasEffect files.read paths (queryBody a) e) (setting : Option Text) :
    Tool.run .query words setting files =
      e.outcome queryUsage (Log.text ((Log.Threshold.ofSetting setting).select e.records)) files := by
  rw [run_query_eq hwords, hlog]
  exact outcome_withLog_none h queryUsage _

/-- Words that differ only after the first word of the query lead to the same run. -/
theorem run_query_congr {more : List Text} {b : QueryArguments}
    (hwords : QueryArguments.ofWords {} words = .ok (.run a))
    (hmore : QueryArguments.ofWords {} more = .ok (.run b)) (hlog : b.logFile = a.logFile)
    (hscript : b.script = a.script) (hsub : b.subcommand = a.subcommand)
    (hhead : b.words.head? = a.words.head?) (setting : Option Text) (files : File.Tree) :
    Tool.run .query more setting files = Tool.run .query words setting files := by
  rw [run_query_eq hwords, run_query_eq hmore, hlog, queryBody_congr hscript hsub hhead]

theorem failsWith_outcome {usage printed log : Text} {records : List Log.Record} {stop : Stop}
    {files : File.Tree} (h : ∀ cause, stop ≠ .overflow cause) :
    Outcome.FailsWith (Effect.outcome usage ⟨records, printed, .error stop⟩ log files) printed := by
  refine ⟨?_, rfl⟩
  cases stop with
  | overflow cause => exact absurd rfl (h cause)
  | usage message => rfl
  | failed message => rfl
  | silent => rfl

theorem answers_of_loaded {script : Text} {query : Query} {commands : List Command}
    {content : Text → Except File.Failure Bytes} {files : File.Tree} {log : Effect Stop Unit → Text}
    {o : Outcome} (hasks : a.Asks script query)
    (hload : Script.commandsOf script (content script) = .ok commands)
    (halign : Listing.CanAlign commands)
    (ho : ∀ {paths : List Text} {e : Effect Stop Unit}, HasEffect content paths (queryBody a) e →
      o = e.outcome queryUsage (log e) files) : o.Answers a commands := by
  have hmiss : ∀ name, a.Poses (.lookup name) → (∀ c ∈ commands, c.name ≠ name) →
      o.FailsWith [] := by
    intro name hposes hnone
    obtain rfl := hasks.eq_of_poses hposes
    obtain ⟨records, heffect⟩ := exists_hasEffect_lookupMiss hasks hload hnone
    rw [ho heffect]
    exact failsWith_outcome nofun
  have hnotFound : ∀ name, a.Poses (.help (.command name)) → (∀ c ∈ commands, c.name ≠ name) →
      o.FailsWith (name ++ " is not a valid command. Use 'help' to see all commands.\n".toList) := by
    intro name hposes hnone
    obtain rfl := hasks.eq_of_poses hposes
    obtain ⟨records, heffect⟩ := exists_hasEffect_notFound hasks hload hnone
    rw [ho heffect]
    exact failsWith_outcome nofun
  by_cases hfound : ∀ name, Answer.asked? query = some name → ∃ c ∈ commands, c.name = name
  · obtain ⟨records, t, heffect, hwrites⟩ := exists_hasEffect_answered hasks hload halign hfound
    have hstatus : o.status = 0 := by
      rw [ho heffect]
      rfl
    refine ⟨⟨fun _ => ?_, fun _ => hstatus⟩, fun _ => ?_, hmiss, hnotFound⟩
    · cases hasked : Answer.asked? query with
      | none => exact Or.inl (hasks.asksListing_iff.2 hasked)
      | some name => exact Or.inr ⟨name, hasks.asksFor_iff.2 hasked, hfound name hasked⟩
    · refine ⟨query, _, hasks.poses, hwrites [], ?_⟩
      rw [ho heffect]
      rfl
  · push Not at hfound
    obtain ⟨name, hasked, hnone⟩ := hfound
    obtain ⟨t, hfails⟩ : ∃ t, o.FailsWith t := by
      cases query with
      | lookup other =>
        obtain rfl := Option.some.inj hasked
        exact ⟨_, hmiss _ hasks.poses hnone⟩
      | help target =>
        cases target with
        | unspecified => exact absurd hasked nofun
        | listing => exact absurd hasked nofun
        | command other =>
          obtain rfl := Option.some.inj hasked
          exact ⟨_, hnotFound _ hasks.poses hnone⟩
    have hstatus : o.status ≠ 0 := by
      rw [hfails.1]
      decide
    refine ⟨⟨fun h => absurd h hstatus, ?_⟩, fun h => absurd h hstatus, hmiss, hnotFound⟩
    rintro (hlisting | ⟨other, hother, c, hc, hcname⟩)
    · exact absurd ((hasks.asksListing_iff.1 hlisting).symm.trans hasked) nofun
    · obtain rfl := Option.some.inj ((hasks.asksFor_iff.1 hother).symm.trans hasked)
      exact absurd hcname (hnone c hc)

end Run

/-- **Queries.** The arguments decide first: if something is missing the run fails without output, an
unknown subcommand is reported on the output, and both look the same whatever the files are. Then the
script decides, whose error is all that is shown, and then the query. Words after the first of the
query change nothing. -/
theorem run_query {words : List Text} {a : QueryArguments}
    (hwords : QueryArguments.ofWords {} words = .ok (.run a)) (hlog : a.logFile = none)
    (setting : Option Text) (files : File.Tree)
    (hnames : ∀ script commands, a.script = some script →
      Script.loadedFile files.read script = .ok commands → ∀ c ∈ commands, c.name.length ≤ 65535) :
    let o := Tool.run .query words setting files
    (a.Incomplete → o.FailsWith []) ∧
    (∀ sub, a.Unknown sub → o.FailsWith (Text.line ("Unknown command " ++ sub ++ "."))) ∧
    ((a.Incomplete ∨ ∃ sub, a.Unknown sub) →
      ∀ others, o.LooksLike (Tool.run .query words setting others)) ∧
    (¬ a.Incomplete → (∀ sub, ¬ a.Unknown sub) → ∃ script, a.script = some script ∧
      (∀ e, Script.loadedFile files.read script = .error e →
        o.FailsWith [] ∧ o.diagnostics = .text ("Error: ".toList ++ e.message ++ ['\n'])) ∧
      ∀ commands, Script.loadedFile files.read script = .ok commands → o.Answers a commands) ∧
    (∀ more b, QueryArguments.ofWords {} more = .ok (.run b) → b.logFile = none →
      b.script = a.script → b.subcommand = a.subcommand → b.words.head? = a.words.head? →
      Tool.run .query more setting files = o) ∧
    (a.words ≠ [] → ∀ extra, Tool.run .query (words ++ extra) setting files = o) := by
  have hordered := QueryArguments.ordered_of_ofWords hwords
  intro o
  have ho : ∀ {paths : List Text} {e : Effect Stop Unit},
      HasEffect files.read paths (queryBody a) e →
      o = e.outcome queryUsage (Log.text ((Log.Threshold.ofSetting setting).select e.records))
        files :=
    fun heffect => run_query_of_hasEffect hwords hlog heffect setting
  refine ⟨fun h => ?_, fun sub h => ?_, fun h others => ?_, fun hcomplete hknown => ?_,
    fun more b hmore hb hscript hsub hhead => ?_, fun hne extra => ?_⟩
  · obtain ⟨message, heffect⟩ := exists_hasEffect_of_incomplete h
    rw [ho (heffect files.read)]
    exact failsWith_outcome nofun
  · rw [ho (hasEffect_of_unknown h hordered files.read)]
    exact failsWith_outcome nofun
  · obtain ⟨e, heffect⟩ := exists_hasEffect_of_refused h hordered
    rw [ho (heffect files.read), run_query_of_hasEffect hwords hlog (heffect others.read) setting]
    exact ⟨rfl, rfl, rfl⟩
  · obtain ⟨script, query, hasks⟩ := QueryArguments.exists_asks hcomplete hknown
    refine ⟨script, hasks.1, fun e hload => ?_, fun commands hload => ?_⟩
    · rw [Script.loadedFile_eq] at hload
      rw [ho (hasEffect_query_of_unloaded hasks hload)]
      exact ⟨failsWith_outcome nofun, rfl⟩
    · have halign : Listing.CanAlign commands := Or.inl (hnames script commands hasks.1 hload)
      rw [Script.loadedFile_eq] at hload
      exact answers_of_loaded hasks hload halign ho
  · exact run_query_congr hwords hmore (hb.trans hlog.symm) hscript hsub hhead setting files
  · have hhead : (a.addWords extra).words.head? = a.words.head? := List.head?_append_of_ne_nil _ hne
    exact run_query_congr hwords (QueryArguments.ofWords_append hwords hne extra) rfl rfl rfl hhead
      setting files

/-- A good script, a malformed one and one that cannot be read. -/
def threeScripts : File.Tree where
  entries := [(["a".toList], .file (Utf8.encode "function cmd_a(\n# doc\n")),
    (["b".toList], .file (Utf8.encode "\nfunction cmd_b\n")),
    (["c".toList], .closed (.other "Permission denied (os error 13)"))]

theorem loadedFile_threeScripts :
    Script.loadedFile threeScripts.read "a" = .ok [⟨"a", "cmd_a", 1, "doc"⟩] ∧
      Script.loadedFile threeScripts.read "b" = .error (.inFile "b" (.malformedDefinition 2)) ∧
      Script.loadedFile threeScripts.read "c" =
        .error (.inFile "c" (.unreadable (.other "Permission denied (os error 13)"))) := by
  have hreada : threeScripts.read "a" = .ok (Utf8.encode "function cmd_a(\n# doc\n") := by
    decide +kernel
  have hreadb : threeScripts.read "b" = .ok (Utf8.encode "\nfunction cmd_b\n") := by
    decide +kernel
  have hreadc : threeScripts.read "c" = .error (.other "Permission denied (os error 13)") := by
    decide +kernel
  have ha : Script.scanLines (Script.Source.readLines "function cmd_a(\n# doc\n") =
      .ok [⟨"a", "cmd_a", 1, "doc"⟩] := Script.scanLines_eq_ok_iff.2 (by decide +kernel)
  have hb : Script.scanLines (Script.Source.readLines "\nfunction cmd_b\n") =
      .error (.malformedDefinition 2) :=
    Script.scanLines_eq_error_iff.2 ⟨[[]], "function cmd_b", [], by decide +kernel, by decide,
      by decide, rfl⟩
  rw [Script.loadedFile_of_encode hreada, ha, Script.loadedFile_of_encode hreadb, hb,
    Script.loadedFile_eq, hreadc]
  exact ⟨rfl, rfl, rfl⟩

/-- The question of a subcommand about a name. -/
def question (script sub name : Text) : QueryArguments where
  script := some script
  subcommand := some sub
  words := [name]

theorem run_query_of_threeScripts :
    (Tool.run .query ["a".toList, "lookup".toList, "a".toList] none threeScripts).status = 0 ∧
      (Tool.run .query ["a".toList, "lookup".toList, "b".toList] none threeScripts).FailsWith [] ∧
      (Tool.run .query ["a".toList, "help".toList, "b".toList] none threeScripts).FailsWith
        "b is not a valid command. Use 'help' to see all commands.\n".toList ∧
      (Tool.run .query ["b".toList, "help".toList, "b".toList] none threeScripts).diagnostics =
        .text "Error: b: Line 2: missing opening parenthesis in command definition\n".toList ∧
      (Tool.run .query ["c".toList, "help".toList, "b".toList] none threeScripts).diagnostics =
        .text "Error: c: Unable to read script: Permission denied (os error 13)\n".toList := by
  obtain ⟨ha, hb, hc⟩ := loadedFile_threeScripts
  have hnames : ∀ file ∈ ["a".toList, "b".toList, "c".toList], ∀ script commands,
      some file = some script → Script.loadedFile threeScripts.read script = .ok commands →
      ∀ c ∈ commands, c.name.length ≤ 65535 := by
    intro file hfile script commands hscript hload
    obtain rfl := Option.some.inj hscript
    simp only [List.mem_cons, List.not_mem_nil, or_false] at hfile
    rcases hfile with rfl | rfl | rfl
    · obtain rfl := Except.ok.inj (ha.symm.trans hload)
      decide
    · exact absurd (hb.symm.trans hload) nofun
    · exact absurd (hc.symm.trans hload) nofun
  have hrun : ∀ file sub name, file ∈ ["a".toList, "b".toList, "c".toList] →
      sub ∈ Query.subcommands →
      QueryArguments.ofWords {} [file, sub, name] = .ok (.run (question file sub name)) →
      let o := Tool.run .query [file, sub, name] none threeScripts
      (∀ e, Script.loadedFile threeScripts.read file = .error e →
        o.diagnostics = .text ("Error: ".toList ++ e.message ++ ['\n'])) ∧
      ∀ commands, Script.loadedFile threeScripts.read file = .ok commands →
        o.Answers (question file sub name) commands := by
    intro file sub name hfile hsub hwords o
    obtain ⟨-, -, -, hasked, -⟩ := run_query hwords rfl none threeScripts (hnames file hfile)
    have hcomplete : ¬ (question file sub name).Incomplete := by
      rintro (h | h | ⟨-, h⟩) <;> exact absurd h nofun
    have hknown : ∀ other, ¬ (question file sub name).Unknown other := by
      rintro other ⟨hother, hmem⟩
      obtain rfl := Option.some.inj hother
      exact hmem hsub
    obtain ⟨script, hscript, hfails, hloaded⟩ := hasked hcomplete hknown
    obtain rfl := Option.some.inj hscript
    exact ⟨fun e he => (hfails e he).2, hloaded⟩
  have hknown := (hrun "a" "lookup" "a" (by decide) (by decide) (by decide +kernel)).2 _ ha
  have hmissed := (hrun "a" "lookup" "b" (by decide) (by decide) (by decide +kernel)).2 _ ha
  have hunknown := (hrun "a" "help" "b" (by decide) (by decide) (by decide +kernel)).2 _ ha
  have hmalformed := (hrun "b" "help" "b" (by decide) (by decide) (by decide +kernel)).1 _ hb
  have hclosed := (hrun "c" "help" "b" (by decide) (by decide) (by decide +kernel)).1 _ hc
  refine ⟨?_, ?_, ?_, hmalformed.trans ?_, hclosed.trans ?_⟩
  · exact hknown.status_eq_zero_iff.2
      (Or.inr ⟨"a".toList, ⟨rfl, Or.inl rfl⟩, _, List.mem_singleton_self _, rfl⟩)
  · exact hmissed.lookupMiss "b" (.lookup rfl rfl) (by decide)
  · have hreply : "b".toList ++ " is not a valid command. Use 'help' to see all commands.\n".toList =
        "b is not a valid command. Use 'help' to see all commands.\n".toList := by decide +kernel
    rw [← hreply]
    exact hunknown.notFound "b" (.helpFor rfl rfl (by decide)) (by decide)
  · decide +kernel
  · decide +kernel

end CommandLine

end ShellDispatch
