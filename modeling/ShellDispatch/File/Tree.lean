import ShellDispatch.File.Failure
import ShellDispatch.Text.Utf8

/-!
# Files and directories

A `Tree` holds files and directories at locations, the sequences of names that lead to them from
the root, and a directory in which relative paths start. `locate` follows a path name by name. Every
name but the last has to lead to a directory; an empty name stands for the place reached, so a path
that ends in a slash needs a directory too. `create` makes an empty file or empties an existing one.

Whatever else can go wrong is part of the tree, with its cause: an entry may be closed, which can be
neither read nor made nor gone through, and at any location a file may be refused, so that none can be
made and one that is there can only be read.
-/

namespace ShellDispatch.File

/-- The names that lead from the root to an entry. -/
abbrev Location := List Text

/-- What stands at a location. -/
inductive Entry where
  /-- A file with its bytes. -/
  | file (content : Bytes)
  /-- A directory. -/
  | directory
  /-- An entry that cannot be used, for this cause. -/
  | closed (cause : Failure)
deriving DecidableEq, Repr

/-- Files and directories. -/
structure Tree where
  /-- The entries below the root; a later one of a location does not count. -/
  entries : List (Location × Entry) := []
  /-- Where relative paths start. -/
  start : Location := []
  /-- Where no file can be made or emptied, and why. -/
  refusals : List (Location × Failure) := []
deriving DecidableEq, Repr

/-- The greatest number of bytes of a name. -/
def maxNameBytes : Nat := 255

/-- The greatest number of bytes of a path. -/
def maxPathBytes : Nat := 4095

namespace Tree

/-- What stands at a location. -/
def get? (t : Tree) (l : Location) : Option Entry :=
  if l = [] then some .directory else t.entries.lookup l

/-- The tree with this entry at a location. -/
def set (t : Tree) (l : Location) (e : Entry) : Tree :=
  { t with entries := (l, e) :: t.entries.filter fun entry => entry.1 ≠ l }

theorem get?_set_self {t : Tree} {l : Location} (h : l ≠ []) (e : Entry) :
    (t.set l e).get? l = some e := by
  simp [get?, set, h]

theorem lookup_filter_of_ne {l m : Location} (h : m ≠ l) (entries : List (Location × Entry)) :
    (entries.filter fun entry => entry.1 ≠ l).lookup m = entries.lookup m := by
  induction entries with
  | nil => rfl
  | cons a rest ih =>
    obtain ⟨k, v⟩ := a
    by_cases hk : k = l
    · have hm : (m == k) = false := beq_eq_false_iff_ne.2 (fun e => h (e.trans hk))
      rw [List.filter_cons_of_neg (by simp [hk]), ih, List.lookup_cons, hm]
    · rw [List.filter_cons_of_pos (by simp [hk]), List.lookup_cons, List.lookup_cons, ih]

theorem get?_set_of_ne {t : Tree} {l m : Location} (h : m ≠ l) (e : Entry) :
    (t.set l e).get? m = t.get? m := by
  have hm : (m == l) = false := beq_eq_false_iff_ne.2 h
  simp only [get?, set, List.lookup_cons, hm, lookup_filter_of_ne h]

/-- The tree with a directory at a location and at every location on the way. -/
def makeDirectory (t : Tree) (l : Location) : Tree :=
  (List.range l.length).foldl (fun t n =>
    let here := l.take (n + 1)
    if (t.get? here).isSome then t else t.set here .directory) t

/-- The tree with a file at a location. -/
def makeFile (t : Tree) (l : Location) (content : Bytes) : Tree :=
  (t.makeDirectory l.dropLast).set l (.file content)

/-- The names of a path, in order. -/
def names (path : Text) : List Text := path.splitOn '/'

/-- The location that a name stands for, seen from a directory: the directory itself, the one that
holds it, or an entry of it. -/
def follow (l : Location) (name : Text) : Location :=
  if name = [] ∨ name = ['.'] then l
  else if name = ['.', '.'] then l.dropLast
  else l ++ [name]

/-- Where names lead, one after the other, and the tree with a directory at every place on the way. -/
def enter (t : Tree) (l : Location) (path : List Text) : Location × Tree :=
  path.foldl (fun (l, t) name => (follow l name, t.makeDirectory (follow l name))) (l, t)

/-- The tree with a file at a path below a location, and with the directories on the way. -/
def addFile (t : Tree) (l : Location) (path : Text) (content : Bytes) : Tree :=
  let (parent, t) := t.enter l (names path).dropLast
  t.makeFile (follow parent ((names path).getLastD [])) content

/-- The tree in which relative paths start at a location with these directories and files, each
named by a path from there. -/
def populate (start : Location) (directories : List Text) (files : List (Text × Bytes)) : Tree :=
  let bare : Tree := { start }
  let withDirectories := directories.foldl (fun t d => (t.enter start (names d)).2)
    (bare.makeDirectory start)
  files.foldl (fun t f => t.addFile start f.1 f.2) withDirectories

/-! ## Paths -/

/-- Where a path starts. -/
def origin (t : Tree) (path : Text) : Location := if path.head? = some '/' then [] else t.start

/-- Whether a path can be followed at all. -/
def checkPath (path : Text) : Except Failure Unit :=
  if '\x00' ∈ path then .error .nulInName
  else if maxPathBytes < (Utf8.encode path).length then .error .nameTooLong
  else if path = [] then .error .missing
  else .ok ()

/-- Fails unless a directory stands at the location. -/
def checkDirectory (t : Tree) (l : Location) : Except Failure Unit :=
  match t.get? l with
  | none => .error .missing
  | some (.file _) => .error .notDirectory
  | some (.closed cause) => .error cause
  | some .directory => .ok ()

/-- Fails if a name is too long for an entry. -/
def checkName (name : Text) : Except Failure Unit :=
  if maxNameBytes < (Utf8.encode name).length then .error .nameTooLong else .ok ()

/-- Fails unless a file can be made at the location. -/
def checkFile (t : Tree) (l : Location) : Except Failure Unit :=
  match t.get? l, t.refusals.lookup l with
  | some .directory, _ => .error .isDirectory
  | some (.closed cause), _ => .error cause
  | _, some cause => .error cause
  | _, none => .ok ()

/-- The location that a name leads to. -/
def step (t : Tree) (l : Location) (name : Text) : Except Failure Location := do
  t.checkDirectory l
  unless name ∈ [[], ['.'], ['.', '.']] do
    checkName name
    if (t.get? (l ++ [name])).isNone then throw .missing
  return follow l name

/-- The location that names lead to, one after the other. -/
def walk (t : Tree) : Location → List Text → Except Failure Location
  | l, [] => .ok l
  | l, name :: rest => do
    let next ← t.step l name
    t.walk next rest

/-- The location of an existing entry. -/
def locate (t : Tree) (path : Text) : Except Failure Location := do
  checkPath path
  t.walk (t.origin path) (names path)

/-- The bytes of a file. -/
def read (t : Tree) (path : Text) : Except Failure Bytes := do
  match t.get? (← t.locate path) with
  | some (.file content) => return content
  | some .directory => throw .isDirectory
  | some (.closed cause) => throw cause
  | none => throw .missing

/-- Makes an empty file, or empties the file that is there; with it its location. -/
def create (t : Tree) (path : Text) : Except Failure (Location × Tree) := do
  checkPath path
  let rest := (names path).reverse.dropWhile (· = [])
  match rest with
  | [] => throw .isDirectory
  | name :: before =>
    let parent ← t.walk (t.origin path) before.reverse
    t.checkDirectory parent
    if rest.length < (names path).length ∨ name = ['.'] ∨ name = ['.', '.'] then throw .isDirectory
    checkName name
    t.checkFile (parent ++ [name])
    return (parent ++ [name], t.set (parent ++ [name]) (.file []))

/-- The tree with bytes added at the end of a file. -/
def append (t : Tree) (l : Location) (more : Bytes) : Tree :=
  match t.get? l with
  | some (.file content) => t.set l (.file (content ++ more))
  | _ => t

end Tree

end ShellDispatch.File
