import ShellDispatch.File.Tree
import ShellDispatch.Proofs.Traversal

/-!
# The way of a path

Following a path looks at some locations and at no other, so what stands elsewhere does not matter:

1. `way` is the list of the locations that a path goes to or through. Nothing has to stand at the
   last of them.
2. Two trees that are `SameExcept` at one location give the same for every path whose way does not
   meet it (`read_of_sameExcept`).
3. Creating a file changes nothing but the file (`sameExcept_of_create`), and what it holds later is
   read at the path that created it (`read_of_create`): every location on the way to it is a
   directory, so none of them is the file.
-/

namespace ShellDispatch.File.Tree

/-- The locations that names lead to, one after the other, up to the first that leads no further. -/
def visits (t : Tree) : Location → List Text → List Location
  | here, [] => [here]
  | here, name :: rest =>
    here :: match t.step here name with
      | .ok next => t.visits next rest
      | .error _ => [follow here name]

/-- The locations that a path goes to or through. -/
def way (t : Tree) (path : Text) : List Location :=
  match checkPath path with
  | .ok () => t.visits (t.origin path) (names path)
  | .error _ => []

/-- The trees differ at most in what stands at the location. -/
structure SameExcept (l : Location) (t t' : Tree) : Prop where
  start : t'.start = t.start
  refusals : t'.refusals = t.refusals
  get? : ∀ m, m ≠ l → t'.get? m = t.get? m

variable {t t' t'' : Tree} {l here there next : Location} {name path : Text} {rest : List Text}
  {content : Bytes}

/-! ## Walks -/

theorem follow_of_not_mem (h : name ∉ [[], ['.'], ['.', '.']]) (here : Location) :
    follow here name = here ++ [name] := by
  simp only [List.mem_cons, List.not_mem_nil, or_false, not_or] at h
  unfold follow
  rw [if_neg (not_or.2 ⟨h.1, h.2.1⟩), if_neg h.2.2]

theorem step_eq_ok_iff :
    t.step here name = .ok next ↔ t.checkDirectory here = .ok () ∧ next = follow here name ∧
      (name ∉ [[], ['.'], ['.', '.']] →
        checkName name = .ok () ∧ (t.get? (here ++ [name])).isSome) := by
  unfold step
  rw [bind_eq_ok_iff]
  by_cases hs : name ∈ [[], ['.'], ['.', '.']]
  · simp only [hs, if_true, not_true_eq_false, false_implies, and_true]
    constructor
    · rintro ⟨⟨⟩, hd, h⟩
      exact ⟨hd, (Except.ok.inj h).symm⟩
    · rintro ⟨hd, rfl⟩
      exact ⟨(), hd, rfl⟩
  · simp only [hs, if_false, not_false_eq_true, true_implies]
    constructor
    · rintro ⟨⟨⟩, hd, h⟩
      obtain ⟨⟨⟩, hn, h⟩ := bind_eq_ok_iff.1 h
      cases hg : t.get? (here ++ [name]) with
      | none =>
        rw [hg] at h
        exact absurd h nofun
      | some entry =>
        rw [hg] at h
        exact ⟨hd, (Except.ok.inj h).symm, hn, rfl⟩
    · rintro ⟨hd, rfl, hn, hg⟩
      obtain ⟨entry, hg⟩ := Option.isSome_iff_exists.1 hg
      refine ⟨(), hd, ?_⟩
      rw [hn, hg]
      rfl

theorem walk_cons_eq_ok_iff :
    t.walk here (name :: rest) = .ok there ↔
      ∃ next, t.step here name = .ok next ∧ t.walk next rest = .ok there := by
  rw [walk, bind_eq_ok_iff]

theorem visits_cons_of_step (h : t.step here name = .ok next) :
    t.visits here (name :: rest) = here :: t.visits next rest := by
  rw [visits, h]

theorem mem_visits_self (here : Location) (rest : List Text) : here ∈ t.visits here rest := by
  cases rest with
  | nil => exact List.mem_singleton_self here
  | cons name rest => exact List.mem_cons_self

theorem follow_mem_visits (here : Location) (name : Text) (rest : List Text) :
    follow here name ∈ t.visits here (name :: rest) := by
  rw [visits]
  cases h : t.step here name with
  | error e => exact List.mem_cons_of_mem here (List.mem_singleton_self _)
  | ok next =>
    obtain ⟨-, rfl, -⟩ := step_eq_ok_iff.1 h
    exact List.mem_cons_of_mem here (mem_visits_self _ rest)

theorem mem_visits_of_walk (h : t.walk here rest = .ok there) : there ∈ t.visits here rest := by
  induction rest generalizing here with
  | nil =>
    obtain rfl := Except.ok.inj h
    exact mem_visits_self here []
  | cons name rest ih =>
    obtain ⟨next, hstep, hwalk⟩ := walk_cons_eq_ok_iff.1 h
    rw [visits_cons_of_step hstep]
    exact List.mem_cons_of_mem here (ih hwalk)

/-! ## Trees that differ at one location -/

theorem SameExcept.refl (l : Location) (t : Tree) : SameExcept l t t := ⟨rfl, rfl, fun _ _ => rfl⟩

theorem SameExcept.trans (h : SameExcept l t t') (h' : SameExcept l t' t'') :
    SameExcept l t t'' where
  start := h'.start.trans h.start
  refusals := h'.refusals.trans h.refusals
  get? m hm := (h'.get? m hm).trans (h.get? m hm)

theorem sameExcept_set (t : Tree) (l : Location) (e : Entry) : SameExcept l t (t.set l e) where
  start := rfl
  refusals := rfl
  get? _ hm := get?_set_of_ne hm e

theorem sameExcept_append (t : Tree) (l : Location) (more : Bytes) :
    SameExcept l t (t.append l more) := by
  unfold append
  split
  · exact sameExcept_set t l _
  · exact .refl l t

theorem get?_append_self {more : Bytes} (hl : l ≠ []) (h : t.get? l = some (.file content)) :
    (t.append l more).get? l = some (.file (content ++ more)) := by
  unfold append
  rw [h]
  exact get?_set_self hl _

section SameExcept

variable (h : SameExcept l t t')

include h

theorem origin_of_sameExcept (path : Text) : t'.origin path = t.origin path := by
  unfold origin
  rw [h.start]

theorem checkDirectory_of_sameExcept (hhere : here ≠ l) :
    t'.checkDirectory here = t.checkDirectory here := by
  unfold checkDirectory
  rw [h.get? here hhere]

theorem step_of_sameExcept (hhere : here ≠ l) (hnext : follow here name ≠ l) :
    t'.step here name = t.step here name := by
  unfold step
  rw [checkDirectory_of_sameExcept h hhere]
  by_cases hs : name ∈ [[], ['.'], ['.', '.']]
  · simp only [if_pos hs]
  · rw [h.get? _ (follow_of_not_mem hs here ▸ hnext)]

theorem walk_of_sameExcept (hl : l ∉ t.visits here rest) :
    t'.walk here rest = t.walk here rest := by
  induction rest generalizing here with
  | nil => rfl
  | cons name rest ih =>
    have hhere : here ≠ l := fun e => hl (e ▸ mem_visits_self here _)
    have hnext : follow here name ≠ l := fun e => hl (e ▸ follow_mem_visits here name rest)
    rw [walk, walk, step_of_sameExcept h hhere hnext]
    cases hstep : t.step here name with
    | error e => rfl
    | ok next =>
      rw [visits_cons_of_step hstep] at hl
      exact ih (List.not_mem_of_not_mem_cons hl)

/-- **A path is read alike** in two trees that differ only beside its way. -/
theorem read_of_sameExcept (hl : l ∉ t.way path) : t'.read path = t.read path := by
  unfold read locate
  unfold way at hl
  cases hpath : checkPath path with
  | error e => rfl
  | ok u =>
    rw [hpath] at hl
    have hwalk := walk_of_sameExcept h hl
    rw [← origin_of_sameExcept h path] at hwalk
    show (t'.walk (t'.origin path) (names path) >>= _) = (t.walk (t.origin path) (names path) >>= _)
    rw [hwalk, origin_of_sameExcept h]
    cases hthere : t.walk (t.origin path) (names path) with
    | error e => rfl
    | ok there =>
      have hne : there ≠ l := fun e => hl (e ▸ mem_visits_of_walk hthere)
      simp only [bind, Except.bind, h.get? there hne]

end SameExcept

/-! ## Created files -/

/-- A file can be created: its path leads through directories to a name where one can be made. -/
structure Creates (t : Tree) (path : Text) (before : List Text) (parent : Location) (name : Text) :
    Prop where
  checkPath : checkPath path = .ok ()
  names : names path = before ++ [name]
  isEntry : name ∉ [[], ['.'], ['.', '.']]
  walk : t.walk (t.origin path) before = .ok parent
  checkDirectory : t.checkDirectory parent = .ok ()
  checkName : checkName name = .ok ()
  checkFile : t.checkFile (parent ++ [name]) = .ok ()

theorem exists_creates_of_create (h : t.create path = .ok (l, t')) :
    ∃ before parent name, Creates t path before parent name ∧ l = parent ++ [name] ∧
      t' = t.set l (.file []) := by
  unfold create at h
  obtain ⟨⟨⟩, hpath, h⟩ := bind_eq_ok_iff.1 h
  dsimp only at h
  generalize hrest : (names path).reverse.dropWhile (· = []) = rest at h
  cases rest with
  | nil => exact absurd h nofun
  | cons name before =>
    obtain ⟨parent, hparent, h⟩ := bind_eq_ok_iff.1 h
    obtain ⟨⟨⟩, hdirectory, h⟩ := bind_eq_ok_iff.1 h
    split at h
    · exact absurd h nofun
    · rename_i hname
      obtain ⟨⟨⟩, hcheck, h⟩ := bind_eq_ok_iff.1 h
      obtain ⟨⟨⟩, hfree, h⟩ := bind_eq_ok_iff.1 h
      obtain ⟨rfl, rfl⟩ := Prod.mk.inj (Except.ok.inj h)
      rw [not_or, not_or] at hname
      have hall : name :: before = (names path).reverse := by
        rw [← hrest]
        refine (List.dropWhile_suffix _).eq_of_length_le ?_
        rw [hrest, List.length_reverse]
        exact Nat.not_lt.1 hname.1
      have hne : name ≠ [] := by
        have := List.head?_dropWhile_not (fun x : Text => decide (x = [])) (names path).reverse
        rw [hrest] at this
        simpa using this
      refine ⟨before.reverse, parent, name, ⟨hpath, ?_, ?_, hparent, hdirectory, hcheck, hfree⟩,
        rfl, rfl⟩
      · rw [← List.reverse_reverse (names path), ← hall, List.reverse_cons]
      · simp only [List.mem_cons, List.not_mem_nil, or_false, not_or]
        exact ⟨hne, hname.2⟩

section Create

variable (h : t.create path = .ok (l, t'))

include h

theorem ne_nil_of_create : l ≠ [] := by
  obtain ⟨before, parent, name, -, rfl, -⟩ := exists_creates_of_create h
  exact List.append_ne_nil_of_right_ne_nil parent (List.cons_ne_nil name [])

/-- Creating a file changes nothing else. -/
theorem sameExcept_of_create : SameExcept l t t' := by
  obtain ⟨before, parent, name, -, -, rfl⟩ := exists_creates_of_create h
  exact sameExcept_set t l _

theorem get?_of_create : t'.get? l = some (.file []) := by
  have hl := ne_nil_of_create h
  obtain ⟨before, parent, name, -, -, rfl⟩ := exists_creates_of_create h
  exact get?_set_self hl _

end Create

end ShellDispatch.File.Tree
