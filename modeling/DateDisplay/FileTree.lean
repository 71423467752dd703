import DateDisplay.Path

/-!
# File trees

A file tree holds all files and folders, and says which of them is the working folder.  A location
in it is the list of names on the way there from the root, so the root itself is the empty list.

Paths are looked up name by name: every name but the last has to be that of a folder, and `..`
leads to the folder above, or from the root to the root.  A path with a slash at its front starts
from the root, any other from the working folder.
-/

namespace DateDisplay

open Text

/-- What can be at a place. -/
inductive Entry where
  | file (content : Text)
  | folder
  deriving Repr, DecidableEq

/-- Why a path leads to no file. -/
inductive PathFault where
  | notFound
  | notFolder
  | isFolder
  | nameTooLong
  | badName
  deriving Repr, DecidableEq

namespace PathFault

/-- The fault in words. -/
def message : PathFault → Text
  | .notFound => lit "no such file or directory"
  | .notFolder => lit "not a directory"
  | .isFolder => lit "is a directory"
  | .nameTooLong => lit "file name too long"
  | .badName => lit "invalid argument"

end PathFault

/-- A place in a tree: the names on the way from the root. -/
abbrev Location := List Text

/-- The files and folders, each listed once, and the working folder. -/
structure FileTree where
  entries : List (Location × Entry) := []
  /-- the working folder -/
  here : Location := []
  /-- no location is listed twice -/
  listedOnce : (entries.map Prod.fst).Nodup := by decide
  deriving Repr, DecidableEq

namespace FileTree

/-- What is at a location. -/
def get? (t : FileTree) (l : Location) : Option Entry :=
  if l.isEmpty then some .folder else (t.entries.find? (·.1 == l)).map (·.2)

/-- An entry whose location is `l` has `e` put in its place. -/
def overwrite (l : Location) (e : Entry) (listed : Location × Entry) : Location × Entry :=
  if listed.1 == l then (l, e) else listed

theorem overwrite_fst (l : Location) (e : Entry) (listed : Location × Entry) :
    (overwrite l e listed).1 = listed.1 := by
  rw [overwrite]
  split
  · exact (eq_of_beq ‹_›).symm
  · rfl

theorem map_fst_map_overwrite (l : Location) (e : Entry) (listed : List (Location × Entry)) :
    (listed.map (overwrite l e)).map Prod.fst = listed.map Prod.fst := by
  rw [List.map_map]
  exact List.map_congr_left fun x _ => overwrite_fst l e x

theorem nodup_concat {l : Location} {e : Entry} {listed : List (Location × Entry)}
    (h : (listed.map Prod.fst).Nodup) (hl : l ∉ listed.map Prod.fst) :
    ((listed ++ [(l, e)]).map Prod.fst).Nodup := by
  rw [List.map_append, List.nodup_append]
  refine ⟨h, List.pairwise_singleton _ _, fun a ha b hb he => hl ?_⟩
  obtain rfl : b = l := by simpa using hb
  exact he ▸ ha

theorem any_eq_true_iff_mem {l : Location} {listed : List (Location × Entry)} :
    listed.any (·.1 == l) = true ↔ l ∈ listed.map Prod.fst := by
  simp only [List.any_eq_true, List.mem_map, beq_iff_eq]

theorem notMem_of_get?_eq_none {t : FileTree} {l : Location} (h : t.get? l = none) :
    l ∉ t.entries.map Prod.fst := by
  rw [get?] at h
  split at h
  · cases h
  · rw [Option.map_eq_none_iff, List.find?_eq_none] at h
    rw [← any_eq_true_iff_mem, List.any_eq_true]
    exact fun ⟨x, hx, he⟩ => h x hx he

/-- The tree with a file at a location, in the place of what was there. -/
def setFile (t : FileTree) (l : Location) (content : Text) : FileTree :=
  if h : t.entries.any (·.1 == l) then
    { t with
      entries := t.entries.map (overwrite l (.file content))
      listedOnce := by rw [map_fst_map_overwrite]; exact t.listedOnce }
  else
    { t with
      entries := t.entries ++ [(l, .file content)]
      listedOnce := nodup_concat t.listedOnce fun hl => h (any_eq_true_iff_mem.mpr hl) }

/-! ### Looking up paths -/

/-- The most bytes that a name may have. -/
def maxName : Nat := 255

/-- The number of bytes that a path may not reach. -/
def maxPath : Nat := 4096

/-- One step from a location, which has to be that of a folder. -/
def step (t : FileTree) (l : Location) (name : Text) : Except PathFault Location :=
  match t.get? l with
  | none => .error .notFound
  | some (.file _) => .error .notFolder
  | some .folder =>
    if name.isEmpty || name == Path.dot then .ok l
    else if name == Path.dotdot then .ok l.dropLast
    else if name.length > maxName then .error .nameTooLong
    else .ok (l ++ [name])

/-- The steps along names, the last of which may lead to where nothing is. -/
def walk (t : FileTree) (l : Location) (names : List Text) : Except PathFault Location :=
  names.foldlM (step t) l

/-- Where a path starts from. -/
def origin (t : FileTree) (path : Text) : Location := if Path.isAbsolute path then [] else t.here

/-- Where a path leads, whether something is there or not. -/
def locate (t : FileTree) (path : Text) : Except PathFault Location :=
  if path.contains 0 then .error .badName
  else if path.isEmpty then .error .notFound
  else if path.length ≥ maxPath then .error .nameTooLong
  else t.walk (t.origin path) (Path.components path)

/-- What a path leads to. -/
def lookup (t : FileTree) (path : Text) : Except PathFault Entry := do
  match t.get? (← t.locate path) with
  | some e => return e
  | none => throw .notFound

/-! ### Files -/

/-- A failed call: what was tried on which path, and why it failed. -/
structure CallFault where
  call : String
  path : Text
  fault : PathFault
  deriving Repr, DecidableEq

/-- The fault in words. -/
def CallFault.message (f : CallFault) : Text :=
  lit f.call ++ lit " " ++ f.path ++ lit ": " ++ f.fault.message

/-- What a path leads to, or why it leads nowhere. -/
def stat (t : FileTree) (path : Text) : Except CallFault Entry :=
  match t.lookup path with
  | .ok e => .ok e
  | .error f => .error ⟨"stat", path, f⟩

/-- The content of the file at a path. -/
def read (t : FileTree) (path : Text) : Except CallFault Text :=
  match t.lookup path with
  | .ok (.file content) => .ok content
  | .ok .folder => .error ⟨"read", path, .isFolder⟩
  | .error f => .error ⟨"open", path, f⟩

/-- The tree with the content of the file at a path replaced.  The file is made if it is not
there, but its folder has to be. -/
def write (t : FileTree) (path content : Text) : Except CallFault FileTree :=
  match t.locate path with
  | .error f => .error ⟨"open", path, f⟩
  | .ok l =>
    match t.get? l with
    | some .folder => .error ⟨"open", path, .isFolder⟩
    | _ => .ok (t.setFile l content)

/-! ### Folders -/

/-- The names in a folder, each with whether it is that of a folder. -/
def children (t : FileTree) (l : Location) : List (Text × Bool) :=
  t.entries.filterMap fun (m, e) =>
    match m.getLast? with
    | some name => if m.dropLast == l then some (name, e == .folder) else none
    | none => none

/-- The places strictly below a folder, as seen from it, each with whether a folder is there. -/
def below (t : FileTree) (l : Location) : List (Location × Bool) :=
  t.entries.filterMap fun (m, e) =>
    if l.isPrefixOf m && l.length < m.length then some (m.drop l.length, e == .folder) else none

/-- The tree with a folder at a location, unless something is there. -/
def ensureFolder (t : FileTree) (l : Location) : FileTree :=
  match h : t.get? l with
  | some _ => t
  | none =>
    { t with
      entries := t.entries ++ [(l, .folder)]
      listedOnce := nodup_concat t.listedOnce (notMem_of_get?_eq_none h) }

/-- The tree with a folder at a location and folders on the way to it. -/
def addFolder (t : FileTree) (l : Location) : FileTree :=
  (List.range l.length).foldl (fun t n => t.ensureFolder (l.take (n + 1))) t

/-- The tree with a file at a location and folders on the way to it. -/
def addFile (t : FileTree) (l : Location) (content : Text) : FileTree :=
  (t.addFolder l.dropLast).setFile l content

/-- The names in a path. -/
def namesIn (path : Text) : List Text :=
  (Path.components (Path.clean path)).filter fun c => !c.isEmpty && c != Path.dot

end FileTree

end DateDisplay
