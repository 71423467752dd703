import DateDisplay.FileTree
import DateDisplay.Journal

/-!
# Files below a folder

A file store reads and writes the files of a tree by their paths below a base folder.  A path that
leads nowhere, or to a folder, is that of a file that does not exist; any other reason why a file
cannot be looked up is a fault.

Calls can be made to fail, path by path, with a message of the caller's choice.  A call that fails
leaves the tree as it was.
-/

namespace DateDisplay

open Text

/-- Which calls are made to fail, and with which message. -/
structure Sabotage where
  lookups : Text → Option Text := fun _ => none
  reads : Text → Option Text := fun _ => none
  writes : Text → Option Text := fun _ => none

/-- Why a call on a file store fails. -/
inductive StoreFault where
  | checking (f : FileTree.CallFault)
  | reading (f : FileTree.CallFault)
  | writing (f : FileTree.CallFault)
  /-- the call was made to fail -/
  | imposed (message : Text)
  deriving Repr, DecidableEq

/-- The fault in words. -/
def StoreFault.message : StoreFault → Text
  | .checking f => lit "checking file existence: " ++ f.message
  | .reading f => lit "reading file: " ++ f.message
  | .writing f => lit "writing file: " ++ f.message
  | .imposed m => m

/-- The files below a base folder. -/
structure FileStore where
  /-- the base folder, in its shortest form -/
  base : Text
  sabotage : Sabotage := {}

namespace FileStore

/-- The store below a folder. -/
def below (folder : Text) : FileStore := { base := Path.clean folder }

/-- The path of a file on the disk. -/
def pathOf (s : FileStore) (path : Text) : Text := Path.under s.base path

/-- There is a file at a path. -/
def contains (s : FileStore) (t : FileTree) (path : Text) : Except StoreFault Bool :=
  match s.sabotage.lookups path with
  | some m => .error (.imposed m)
  | none =>
    match t.stat (s.pathOf path) with
    | .ok (.file _) => .ok true
    | .ok .folder => .ok false
    | .error f => if f.fault == .notFound then .ok false else .error (.checking f)

/-- The content of the file at a path. -/
def read (s : FileStore) (t : FileTree) (path : Text) : Except StoreFault Text :=
  match s.sabotage.reads path with
  | some m => .error (.imposed m)
  | none =>
    match t.read (s.pathOf path) with
    | .ok content => .ok content
    | .error f => .error (.reading f)

/-- The tree with the content of the file at a path replaced. -/
def write (s : FileStore) (t : FileTree) (path content : Text) : Except StoreFault FileTree :=
  match s.sabotage.writes path with
  | some m => .error (.imposed m)
  | none =>
    match t.write (s.pathOf path) content with
    | .ok t => .ok t
    | .error f => .error (.writing f)

/-- The event that tells of a write.  A write that was made to fail tells nothing. -/
def writtenEvent (path content : Text) : Event :=
  ⟨.debug, [("path", .text path), ("bytes", .number content.length)], lit "wrote file"⟩

end FileStore

end DateDisplay
