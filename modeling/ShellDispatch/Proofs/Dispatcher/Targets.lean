import Mathlib.Data.List.Induction
import ShellDispatch.Dispatcher.Target
import ShellDispatch.Proofs.Query.Answer

/-!
# One target per name

A dispatcher keeps the commands by going forward and replacing, an answer takes the first from the
end. Both have the last command of a name (`find?_kept`). The place of a command is that of its name,
where the name appears first (`map_name_kept`). So the two choices, of a place and of a command, are
made apart and come together in `kept_onePerName`.
-/

namespace ShellDispatch.Dispatcher

variable {c d : Command} {commands ds : List Command}

theorem find?_name_cons (d : Command) (ds : List Command) (name : Text) :
    (d :: ds).find? (fun c => c.name = name) =
      if d.name = name then some d else ds.find? fun c => c.name = name := by
  by_cases h : d.name = name
  · rw [if_pos h]
    exact List.find?_cons_of_pos (decide_eq_true h)
  · rw [if_neg h]
    exact List.find?_cons_of_neg (by rw [decide_eq_false h]; exact Bool.false_ne_true)

theorem find?_place (c : Command) (ds : List Command) (name : Text) :
    (place c ds).find? (fun d => d.name = name) =
      if c.name = name then some c else ds.find? fun d => d.name = name := by
  induction ds with
  | nil => exact find?_name_cons c [] name
  | cons d ds ih =>
    rw [place]
    by_cases hd : d.name = c.name
    · rw [if_pos hd, find?_name_cons, find?_name_cons, hd]
      split
      · rfl
      · rfl
    · rw [if_neg hd, find?_name_cons, find?_name_cons, ih]
      by_cases h : d.name = name
      · rw [if_pos h, if_pos h, if_neg fun hc => hd (h.trans hc.symm)]
      · rw [if_neg h, if_neg h]

theorem mem_place (h : d ∈ place c ds) : d = c ∨ d ∈ ds := by
  induction ds with
  | nil => exact Or.inl (List.mem_singleton.1 h)
  | cons e ds ih =>
    rw [place] at h
    split at h
    · exact (List.mem_cons.1 h).imp_right (List.mem_cons_of_mem e)
    · rcases List.mem_cons.1 h with rfl | h
      · exact Or.inr List.mem_cons_self
      · exact (ih h).imp_right (List.mem_cons_of_mem e)

/-- Every command that is kept in passing through the list is of the list, or was there before. -/
theorem mem_foldl_place (h : d ∈ commands.foldl (fun ds c => place c ds) ds) :
    d ∈ commands ∨ d ∈ ds := by
  induction commands generalizing ds with
  | nil => exact Or.inr h
  | cons c commands ih =>
    rcases ih h with h | h
    · exact Or.inl (List.mem_cons_of_mem c h)
    · rcases mem_place h with rfl | h
      · exact Or.inl List.mem_cons_self
      · exact Or.inr h

theorem mem_of_mem_kept (h : d ∈ kept commands) : d ∈ commands :=
  (mem_foldl_place h).resolve_right List.not_mem_nil

/-- What holds of all commands holds of the targets. -/
theorem forall_mem_targets {P : Target → Prop} (h : ∀ c ∈ commands, P (.ofCommand c)) :
    ∀ t ∈ targets commands, P t := by
  unfold targets
  rw [List.forall_mem_map]
  exact fun c hc => h c (mem_of_mem_kept hc)

theorem find?_foldl_place (commands ds : List Command) (name : Text) :
    (commands.foldl (fun ds c => place c ds) ds).find? (fun d => d.name = name) =
      (Answer.find? commands name).or (ds.find? fun d => d.name = name) := by
  induction commands generalizing ds with
  | nil => rfl
  | cons c commands ih =>
    unfold Answer.find? at ih ⊢
    rw [List.foldl_cons, ih, find?_place, List.reverse_cons, List.find?_append, Option.or_assoc,
      find?_name_cons]
    congr 1
    split
    · rfl
    · rfl

/-- **The kept command of a name is the last one of that name.** -/
theorem find?_kept (commands : List Command) (name : Text) :
    (kept commands).find? (fun d => d.name = name) = Answer.find? commands name :=
  (find?_foldl_place commands [] name).trans Option.or_none

/-! ## The order of the names -/

/-- One more element at the end of a list is new, or changes nothing. -/
theorem eraseDups_concat {α : Type} [BEq α] [LawfulBEq α] (l : List α) (a : α) :
    (l ++ [a]).eraseDups = if a ∈ l then l.eraseDups else l.eraseDups ++ [a] := by
  rw [List.eraseDups_append]
  split
  · rename_i h
    have hnone : [a].removeAll l = [] := by simp [List.removeAll, h]
    rw [hnone, List.eraseDups_nil, List.append_nil]
  · rename_i h
    have hall : [a].removeAll l = [a] := by simp [List.removeAll, h]
    rw [hall]
    rfl

/-- Without its duplicates a list has its elements in the order in which each first appears. -/
theorem pairwise_idxOf_eraseDups {α : Type} [BEq α] [LawfulBEq α] (l : List α) :
    l.eraseDups.Pairwise fun a b => l.idxOf a < l.idxOf b := by
  induction l using List.reverseRecOn with
  | nil => exact List.Pairwise.nil
  | append_singleton l a ih =>
    have hfirst : ∀ b ∈ l, (l ++ [a]).idxOf b = l.idxOf b := by
      intro b hb
      rw [List.idxOf_append, if_pos hb]
    have hold : l.eraseDups.Pairwise fun x y => (l ++ [a]).idxOf x < (l ++ [a]).idxOf y := by
      refine ih.imp_of_mem ?_
      intro x y hx hy hxy
      rw [hfirst x (List.mem_eraseDups.1 hx), hfirst y (List.mem_eraseDups.1 hy)]
      exact hxy
    rw [eraseDups_concat]
    by_cases ha : a ∈ l
    · rw [if_pos ha]
      exact hold
    · rw [if_neg ha, List.pairwise_append]
      refine ⟨hold, List.pairwise_singleton _ _, ?_⟩
      intro x hx y hy
      obtain rfl := List.mem_singleton.1 hy
      have hx : x ∈ l := List.mem_eraseDups.1 hx
      have hlt : l.idxOf x < l.length := List.idxOf_lt_length_of_mem hx
      rw [hfirst x hx, List.idxOf_append, if_neg ha]
      omega

/-- Placing a command keeps the names, and adds one at the end if it is new. -/
theorem map_name_place (c : Command) (ds : List Command) :
    (place c ds).map (·.name) =
      if c.name ∈ ds.map (·.name) then ds.map (·.name) else ds.map (·.name) ++ [c.name] := by
  induction ds with
  | nil => rfl
  | cons d ds ih =>
    rw [place]
    by_cases h : d.name = c.name
    · rw [if_pos h, if_pos (by simp [h]), List.map_cons, List.map_cons, h]
    · have hmem : c.name ∈ (d :: ds).map (·.name) ↔ c.name ∈ ds.map (·.name) := by
        rw [List.map_cons, List.mem_cons]
        exact or_iff_right (Ne.symm h)
      rw [if_neg h, List.map_cons, ih]
      by_cases hc : c.name ∈ ds.map (·.name)
      · rw [if_pos hc, if_pos (hmem.2 hc), List.map_cons]
      · rw [if_neg hc, if_neg (mt hmem.1 hc), List.map_cons, List.cons_append]

theorem kept_concat (commands : List Command) (c : Command) :
    kept (commands ++ [c]) = place c (kept commands) := List.foldl_concat _ _ _ _

/-- **The names of the kept commands** are those of all commands without the duplicates. -/
theorem map_name_kept (commands : List Command) :
    (kept commands).map (·.name) = (commands.map (·.name)).eraseDups := by
  induction commands using List.reverseRecOn with
  | nil => rfl
  | append_singleton commands c ih =>
    rw [kept_concat, map_name_place, ih, List.map_append, List.map_singleton, eraseDups_concat]
    simp only [List.mem_eraseDups]

/-! ## One command per name -/

/-- Where no two commands share a name, each is found by its name. -/
theorem find?_name_of_mem (hnodup : (ds.map (·.name)).Nodup) (h : d ∈ ds) :
    ds.find? (fun c => c.name = d.name) = some d := by
  induction ds with
  | nil => exact absurd h List.not_mem_nil
  | cons e ds ih =>
    obtain ⟨he, hds⟩ := List.nodup_cons.1 hnodup
    rw [find?_name_cons]
    rcases List.mem_cons.1 h with rfl | h
    · exact if_pos rfl
    · have hne : e.name ≠ d.name := by
        intro heq
        exact he (List.mem_map.2 ⟨d, h, heq.symm⟩)
      rw [if_neg hne, ih hds h]

/-- The second list has one command for each name of the first: the last one, at the place of the
first one. -/
structure OnePerName (commands ds : List Command) : Prop where
  /-- The names are those of all commands, without the duplicates. -/
  names : ds.map (·.name) = (commands.map (·.name)).eraseDups
  nodup : (ds.map (·.name)).Nodup
  mem_iff : ∀ name, (∃ c ∈ ds, c.name = name) ↔ ∃ c ∈ commands, c.name = name
  /-- The names stand in the order in which each first appears. -/
  order : (ds.map (·.name)).Pairwise fun m n =>
    (commands.map (·.name)).idxOf m < (commands.map (·.name)).idxOf n
  /-- Each command is the last of its name. -/
  last : ∀ c ∈ ds, ∃ before after, commands = before ++ c :: after ∧ ∀ d ∈ after, d.name ≠ c.name
  /-- Each command is the answer for its name. -/
  answers : ds.map some = (commands.map (·.name)).eraseDups.map (Answer.find? commands)
  /-- Searching the commands from the front is searching all commands from the back. -/
  search : ∀ name, ds.find? (fun c => c.name = name) = Answer.find? commands name

/-- **A dispatcher keeps the last command of each name**, at the place where the name first appears,
whatever the commands between them are. -/
theorem kept_onePerName (commands : List Command) : OnePerName commands (kept commands) := by
  have hnames := map_name_kept commands
  have horder : ((kept commands).map (·.name)).Pairwise fun m n =>
      (commands.map (·.name)).idxOf m < (commands.map (·.name)).idxOf n := by
    rw [hnames]
    exact pairwise_idxOf_eraseDups _
  have hnodup : ((kept commands).map (·.name)).Nodup := by
    refine horder.imp ?_
    rintro m n hlt rfl
    exact absurd hlt (Nat.lt_irrefl _)
  have hfind : ∀ c ∈ kept commands, Answer.find? commands c.name = some c := by
    intro c hc
    rw [← find?_kept]
    exact find?_name_of_mem hnodup hc
  refine ⟨hnames, hnodup, ?_, horder, ?_, ?_, find?_kept commands⟩
  · intro name
    rw [← List.mem_map, ← List.mem_map, hnames, List.mem_eraseDups]
  · intro c hc
    exact (Answer.find?_eq_some_iff.1 (hfind c hc)).2
  · rw [← hnames, List.map_map]
    exact List.map_congr_left fun c hc => (hfind c hc).symm

example : kept [⟨"a", "cmd_a", 1, "one"⟩, ⟨"b", "cmd_b", 3, []⟩, ⟨"a", "cmd_a", 5, "two"⟩] =
    [⟨"a", "cmd_a", 5, "two"⟩, ⟨"b", "cmd_b", 3, []⟩] := by decide

end ShellDispatch.Dispatcher
