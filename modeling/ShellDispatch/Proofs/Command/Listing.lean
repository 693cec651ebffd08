import ShellDispatch.Command.Listing
import ShellDispatch.Proofs.Text.Pieces
import ShellDispatch.Proofs.Traversal

/-!
# Rows of the listing

A row has one line if the name has: the summary is the first line of the documentation, and the
rest of the row is blanks and a dash. The rows can be laid out unless a row with a summary has to be
aligned with a name that is too long (`exists_rows_eq_ok_iff`). Then the summaries stand in one column,
the first that the names leave free (`rows_aligned`).
-/

namespace ShellDispatch

namespace Listing

theorem exists_row_of_mem_mapM {w : Nat} {commands : List Command} {rows : List Text}
    (h : commands.mapM (row w) = .ok rows) : ∀ t ∈ rows, ∃ c ∈ commands, row w c = .ok t := by
  induction commands generalizing rows with
  | nil =>
    obtain rfl := Except.ok.inj h
    exact fun t ht => absurd ht List.not_mem_nil
  | cons c commands ih =>
    obtain ⟨t, ts, ht, hts, rfl⟩ := mapM_cons_eq_ok_iff.1 h
    rw [List.forall_mem_cons]
    refine ⟨⟨c, List.mem_cons_self, ht⟩, fun u hu => ?_⟩
    obtain ⟨d, hd, hrow⟩ := ih hts u hu
    exact ⟨d, List.mem_cons_of_mem c hd, hrow⟩

theorem newline_not_mem_row {w : Nat} {c : Command} {t : Text} (hname : '\n' ∉ c.name)
    (h : row w c = .ok t) : '\n' ∉ t := by
  have hfill : '\n' ∉ fill w c.name := by
    unfold fill
    rw [List.mem_append, not_or]
    exact ⟨hname, fun hm => absurd (List.eq_of_mem_replicate hm) (by decide)⟩
  unfold row at h
  split at h
  · obtain rfl := Except.ok.inj h
    rw [List.mem_append, not_or]
    exact ⟨by decide, hname⟩
  · split at h
    · exact absurd h (by simp)
    · obtain rfl := Except.ok.inj h
      simp only [List.mem_append, not_or]
      exact ⟨⟨⟨by decide, hfill⟩, by decide⟩, Text.newline_not_mem_firstLine _⟩

theorem newline_not_mem_rows {commands : List Command} {rows : List Text}
    (hnames : ∀ c ∈ commands, '\n' ∉ c.name) (h : Listing.rows commands = .ok rows) :
    ∀ t ∈ rows, '\n' ∉ t := by
  intro t ht
  obtain ⟨c, hc, hrow⟩ := exists_row_of_mem_mapM h t ht
  exact newline_not_mem_row (hnames c hc) hrow

/-- The rows of the commands can be aligned: no name is too long, or there is no summary. -/
def CanAlign (commands : List Command) : Prop :=
  (∀ c ∈ commands, c.name.length ≤ maxWidth) ∨ ∀ c ∈ commands, c.summary = []

theorem width_le_iff {commands : List Command} {n : Nat} :
    width commands ≤ n ↔ ∀ c ∈ commands, c.name.length ≤ n := by
  induction commands with
  | nil => exact ⟨fun _ c hc => absurd hc List.not_mem_nil, fun _ => Nat.zero_le n⟩
  | cons c commands ih => rw [width_cons, Nat.max_le, ih, List.forall_mem_cons]

theorem exists_row_eq_ok_iff {w : Nat} {c : Command} :
    (∃ t, row w c = .ok t) ↔ c.summary = [] ∨ w ≤ maxWidth := by
  unfold row
  by_cases hs : c.summary = []
  · rw [if_pos hs]
    exact ⟨fun _ => Or.inl hs, fun _ => ⟨_, rfl⟩⟩
  · rw [if_neg hs]
    by_cases hw : maxWidth < w
    · rw [if_pos hw]
      constructor
      · rintro ⟨t, ht⟩
        exact absurd ht nofun
      · rintro (h | h)
        · exact absurd h hs
        · exact absurd hw (Nat.not_lt.2 h)
    · rw [if_neg hw]
      exact ⟨fun _ => Or.inr (Nat.not_lt.1 hw), fun _ => ⟨_, rfl⟩⟩

theorem exists_rows_eq_ok_iff {commands : List Command} :
    (∃ rows, Listing.rows commands = .ok rows) ↔ CanAlign commands := by
  unfold Listing.rows CanAlign
  rw [exists_mapM_eq_ok_iff, ← width_le_iff]
  simp only [exists_row_eq_ok_iff]
  by_cases hw : width commands ≤ maxWidth
  · exact ⟨fun _ => Or.inl hw, fun _ c _ => Or.inr hw⟩
  · simp only [hw, or_false, false_or]

theorem exists_rows_eq_error_iff {commands : List Command} :
    (∃ e, Listing.rows commands = .error e) ↔
      maxWidth < width commands ∧ ∃ c ∈ commands, c.summary ≠ [] := by
  have hnot : (∃ e, Listing.rows commands = .error e) ↔ ¬ CanAlign commands := by
    rw [← exists_rows_eq_ok_iff]
    cases Listing.rows commands with
    | error e => simp
    | ok rows => simp
  unfold CanAlign at hnot
  rw [hnot, ← width_le_iff, not_or, Nat.not_le]
  simp only [not_forall, exists_prop]

/-! ## The column of the summaries -/

/-- The width is the greatest number of characters of a name. -/
theorem width_eq_max? (commands : List Command) :
    width commands = (commands.map (·.name.length)).max?.getD 0 := by
  induction commands with
  | nil => rfl
  | cons c commands ih =>
    rw [width_cons, ih, List.map_cons, List.max?_cons, Option.getD_some]
    cases (commands.map (·.name.length)).max? with
    | none => exact Nat.max_zero c.name.length
    | some w => rfl

theorem exists_length_eq_width {commands : List Command} (h : commands ≠ []) :
    ∃ c ∈ commands, c.name.length = width commands := by
  rw [width_eq_max?]
  cases hmax : (commands.map (·.name.length)).max? with
  | none => exact absurd (List.map_eq_nil_iff.1 (List.max?_eq_none_iff.1 hmax)) h
  | some w => exact List.mem_map.1 (List.max?_eq_some_iff.1 hmax).1

theorem length_indent_append (t : Text) : (indent ++ t).length = 4 + t.length := List.length_append

/-- A row shows a command, with the summary in the column after the first `4 + w` characters. -/
structure Aligned (w : Nat) (c : Command) (t : Text) : Prop where
  name : "    ".toList ++ c.name <+: t
  /-- Without summary the row ends with the name. -/
  plain : c.summary = [] → t = "    ".toList ++ c.name
  /-- Between the name and the column there are blanks. -/
  blanks : c.summary ≠ [] → ∀ i, 4 + c.name.length ≤ i → i < 4 + w → t[i]? = some ' '
  summary : c.summary ≠ [] → t.drop (4 + w) = " - ".toList ++ c.summary

theorem aligned_of_row {w : Nat} {c : Command} {t : Text} (hw : c.name.length ≤ w)
    (h : row w c = .ok t) : Aligned w c t := by
  unfold row at h
  split at h
  · rename_i hs
    obtain rfl := Except.ok.inj h
    exact ⟨List.prefix_refl _, fun _ => rfl, fun hne => absurd hs hne, fun hne => absurd hs hne⟩
  rename_i hs
  split at h
  · exact absurd h nofun
  obtain rfl := Except.ok.inj h
  have hblanks : indent ++ fill w c.name ++ separator ++ c.summary =
      (indent ++ c.name) ++
        (List.replicate (w - c.name.length) ' ' ++ (separator ++ c.summary)) := by
    simp only [fill, List.append_assoc]
  have hcolumn : (indent ++ fill w c.name).length = 4 + w := by
    rw [length_indent_append, length_fill hw]
  refine ⟨?_, fun hnil => absurd hnil hs, fun _ i hfirst hlast => ?_, fun _ => ?_⟩
  · rw [hblanks]
    exact List.prefix_append _ _
  · have hname := length_indent_append c.name
    rw [hblanks, List.getElem?_append_right (by omega), List.getElem?_append_left,
      List.getElem?_replicate, if_pos]
    · omega
    · rw [List.length_replicate]
      omega
  · rw [List.append_assoc]
    exact List.drop_left' hcolumn

theorem forall₂_aligned {w : Nat} {commands : List Command} {rows : List Text}
    (hw : ∀ c ∈ commands, c.name.length ≤ w) (h : commands.mapM (row w) = .ok rows) :
    List.Forall₂ (Aligned w) commands rows := by
  have hrows : List.Forall₂ (fun c t => row w c = .ok t) commands rows := mapM_eq_ok_iff.1 h
  clear h
  induction hrows with
  | nil => exact .nil
  | cons hrow _ ih =>
    obtain ⟨hc, hcommands⟩ := List.forall_mem_cons.1 hw
    exact .cons (aligned_of_row hc hrow) (ih hcommands)

/-- **The listing of commands** has a row for each, in order. The summaries stand in one column, behind
the longest name, and no column before it would do. There is no listing exactly if there is a summary
to align and the longest name has more than 65535 characters. -/
theorem rows_aligned (commands : List Command) :
    width commands = (commands.map (·.name.length)).max?.getD 0 ∧
    (commands ≠ [] → ∃ c ∈ commands, c.name.length = width commands) ∧
    ((∃ e, Listing.rows commands = .error e) ↔
      65535 < width commands ∧ ∃ c ∈ commands, c.summary ≠ []) ∧
    (¬ (65535 < width commands ∧ ∃ c ∈ commands, c.summary ≠ []) →
      ∃ rows, Listing.rows commands = .ok rows ∧
        List.Forall₂ (Aligned (width commands)) commands rows) := by
  refine ⟨width_eq_max? commands, exists_length_eq_width, exists_rows_eq_error_iff, ?_⟩
  intro hfits
  cases hrows : Listing.rows commands with
  | error e => exact absurd (exists_rows_eq_error_iff.1 ⟨e, hrows⟩) hfits
  | ok rows => exact ⟨rows, rfl, forall₂_aligned (fun c hc => length_name_le_width hc) hrows⟩

/-- A name of 65535 characters leaves room for a summary, and one more character is too much. -/
theorem rows_aligned_of_long_name :
    (∃ rows, Listing.rows [⟨"b", "cmd_b", 1, "one"⟩, ⟨List.replicate 65535 'a', "cmd_a", 2, []⟩] =
        .ok rows ∧ List.Forall₂ (Aligned 65535)
          [⟨"b", "cmd_b", 1, "one"⟩, ⟨List.replicate 65535 'a', "cmd_a", 2, []⟩] rows) ∧
      ∃ e, Listing.rows [⟨"b", "cmd_b", 1, "one"⟩, ⟨List.replicate 65536 'a', "cmd_a", 2, []⟩] =
        .error e := by
  have hwidth : ∀ n, 1 ≤ n →
      width [⟨"b", "cmd_b", 1, "one"⟩, ⟨List.replicate n 'a', "cmd_a", 2, []⟩] = n := by
    intro n hn
    rw [width_cons, width_cons, width_nil, List.length_replicate, Nat.max_zero]
    exact Nat.max_eq_right hn
  have hsummary : Command.summary ⟨"b", "cmd_b", 1, "one"⟩ ≠ [] := by decide
  constructor
  · have hfits := (rows_aligned [⟨"b", "cmd_b", 1, "one"⟩,
      ⟨List.replicate 65535 'a', "cmd_a", 2, []⟩]).2.2.2
    rw [hwidth 65535 (by decide)] at hfits
    exact hfits fun hwide => absurd hwide.1 (Nat.lt_irrefl 65535)
  · refine (rows_aligned [⟨"b", "cmd_b", 1, "one"⟩,
      ⟨List.replicate 65536 'a', "cmd_a", 2, []⟩]).2.2.1.2 ⟨?_, _, List.mem_cons_self, hsummary⟩
    rw [hwidth 65536 (by decide)]
    decide

end Listing

end ShellDispatch
