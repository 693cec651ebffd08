import Mathlib.Data.List.Forall2

/-!
# Steps one after the other, each of which may fail

What `mapM` gives in `Except`: the results of all steps in order (`mapM_eq_ok_iff`), or the error of
the first step that fails (`mapM_eq_error_iff`). The steps after that one do not matter.
-/

namespace ShellDispatch

variable {α β ε : Type} {f : α → Except ε β}

theorem mapM_cons_eq_ok_iff {a : α} {as : List α} {bs : List β} :
    (a :: as).mapM f = .ok bs ↔ ∃ b cs, f a = .ok b ∧ as.mapM f = .ok cs ∧ bs = b :: cs := by
  rw [List.mapM_cons]
  cases f a with
  | error e => exact ⟨nofun, nofun⟩
  | ok b =>
    cases as.mapM f with
    | error e => exact ⟨nofun, nofun⟩
    | ok cs =>
      constructor
      · intro h
        exact ⟨b, cs, rfl, rfl, (Except.ok.inj h).symm⟩
      · rintro ⟨_, _, hb, hcs, rfl⟩
        obtain rfl := Except.ok.inj hb
        obtain rfl := Except.ok.inj hcs
        rfl

theorem mapM_cons_eq_error_iff {a : α} {as : List α} {e : ε} :
    (a :: as).mapM f = .error e ↔
      f a = .error e ∨ (∃ b, f a = .ok b) ∧ as.mapM f = .error e := by
  rw [List.mapM_cons]
  cases f a with
  | error d =>
    constructor
    · intro h
      obtain rfl := Except.error.inj h
      exact Or.inl rfl
    · rintro (h | ⟨⟨b, hb⟩, -⟩)
      · obtain rfl := Except.error.inj h
        rfl
      · exact absurd hb (by simp)
  | ok b =>
    cases as.mapM f with
    | error d =>
      constructor
      · intro h
        obtain rfl := Except.error.inj h
        exact Or.inr ⟨⟨b, rfl⟩, rfl⟩
      · rintro (h | ⟨-, h⟩)
        · exact absurd h (by simp)
        · obtain rfl := Except.error.inj h
          rfl
    | ok cs => exact ⟨nofun, nofun⟩

theorem bind_eq_ok_iff {x : Except ε α} {g : α → Except ε β} {b : β} :
    (x >>= g) = .ok b ↔ ∃ a, x = .ok a ∧ g a = .ok b := by
  cases x with
  | error e => exact ⟨nofun, nofun⟩
  | ok a =>
    constructor
    · intro h
      exact ⟨a, rfl, h⟩
    · rintro ⟨_, ha, h⟩
      obtain rfl := Except.ok.inj ha
      exact h

theorem map_eq_ok_iff {g : α → β} {x : Except ε α} {b : β} :
    x.map g = .ok b ↔ ∃ a, x = .ok a ∧ b = g a := by
  cases x with
  | error e => exact ⟨nofun, nofun⟩
  | ok a =>
    constructor
    · intro h
      exact ⟨a, rfl, (Except.ok.inj h).symm⟩
    · rintro ⟨_, ha, rfl⟩
      obtain rfl := Except.ok.inj ha
      rfl

theorem map_eq_error_iff {g : α → β} {x : Except ε α} {e : ε} :
    x.map g = .error e ↔ x = .error e := by
  cases x with
  | error d =>
    constructor
    · intro h
      rw [Except.error.inj h]
    · rintro h
      rw [Except.error.inj h]
      rfl
  | ok a => exact ⟨nofun, nofun⟩

/-- All steps succeed, with these results. -/
theorem mapM_eq_ok_iff {as : List α} {bs : List β} :
    as.mapM f = .ok bs ↔ List.Forall₂ (fun a b => f a = .ok b) as bs := by
  induction as generalizing bs with
  | nil =>
    rw [List.forall₂_nil_left_iff]
    constructor
    · intro h
      exact (Except.ok.inj h).symm
    · rintro rfl
      rfl
  | cons a as ih =>
    rw [mapM_cons_eq_ok_iff, List.forall₂_cons_left_iff]
    simp only [ih]

theorem exists_mapM_eq_ok_iff {as : List α} :
    (∃ bs, as.mapM f = .ok bs) ↔ ∀ a ∈ as, ∃ b, f a = .ok b := by
  induction as with
  | nil => exact ⟨fun _ a ha => absurd ha List.not_mem_nil, fun _ => ⟨[], rfl⟩⟩
  | cons a as ih =>
    rw [List.forall_mem_cons, ← ih]
    constructor
    · rintro ⟨bs, hbs⟩
      obtain ⟨b, cs, hb, hcs, -⟩ := mapM_cons_eq_ok_iff.1 hbs
      exact ⟨⟨b, hb⟩, cs, hcs⟩
    · rintro ⟨⟨b, hb⟩, cs, hcs⟩
      exact ⟨b :: cs, mapM_cons_eq_ok_iff.2 ⟨b, cs, hb, hcs, rfl⟩⟩

/-- The first step that fails gives the error. -/
theorem mapM_eq_error_iff {as : List α} {e : ε} :
    as.mapM f = .error e ↔
      ∃ before a after, as = before ++ a :: after ∧ (∀ x ∈ before, ∃ b, f x = .ok b) ∧
        f a = .error e := by
  induction as with
  | nil =>
    constructor
    · intro h
      exact absurd h nofun
    · rintro ⟨before, a, after, h, -, -⟩
      exact absurd h (by simp)
  | cons a as ih =>
    rw [mapM_cons_eq_error_iff, ih]
    constructor
    · rintro (ha | ⟨ha, before, x, after, rfl, hb, hx⟩)
      · exact ⟨[], a, as, rfl, by simp, ha⟩
      · exact ⟨a :: before, x, after, rfl, List.forall_mem_cons.2 ⟨ha, hb⟩, hx⟩
    · rintro ⟨before, x, after, h, hb, hx⟩
      cases before with
      | nil =>
        obtain ⟨rfl, -⟩ := List.cons.inj h
        exact Or.inl hx
      | cons y before =>
        obtain ⟨rfl, rfl⟩ := List.cons.inj h
        obtain ⟨ha, hb⟩ := List.forall_mem_cons.1 hb
        exact Or.inr ⟨ha, before, x, after, rfl, hb, hx⟩

end ShellDispatch
