import DateDisplay.FileTree
import DateDisplay.Glob.Pattern
import DateDisplay.Text.Utf8

/-!
# Searching a tree by pattern

`Glob.find` lists the files below a folder that a pattern describes.  The pattern is taken apart from
its end: the last name is compared with what is in the folders that the pattern before it
describes, and a group is replaced by each of its members in turn.

Folders are looked up by clean relative paths only, so that a pattern with `.` or `..` or a double
slash in the part before its first wildcard describes nothing.
-/

namespace DateDisplay

open Text

namespace Glob

/-! ### Taking patterns apart -/

/-- A byte with a meaning of its own in patterns, except for the closing ones. -/
def isMeta (b : UInt8) : Bool :=
  b == '*'.toUInt8 || b == '?'.toUInt8 || b == '['.toUInt8 || b == 0x7B

/-- The offset of the first byte that has its special meaning. -/
def metaIndex? : (offset : Nat) → Text → Option Nat
  | _, [] => none
  | i, b :: t =>
    if isMeta b then some i
    else if b == '\\'.toUInt8 then
      match t with
      | [] => none
      | _ :: u => metaIndex? (i + 2) u
    else metaIndex? (i + 1) t

/-- A backslash before a byte with a special meaning is left out. -/
def unescape : Text → Text
  | 92 :: b :: t =>
    if isMeta b || b == ']'.toUInt8 || b == 0x7D then b :: unescape t else 92 :: unescape (b :: t)
  | b :: t => b :: unescape t
  | [] => []
termination_by s => s.length

/-- The offset of the last byte that satisfies `p` and has no backslash before it. -/
def lastIndex? (p : UInt8 → Bool) (s : Text) : Option Nat :=
  let go (state : Option Nat × Nat × Bool) (b : UInt8) : Option Nat × Nat × Bool :=
    let (found, i, escaped) := state
    (if p b && !escaped then some i else found, i + 1, b == '\\'.toUInt8)
  (s.foldl go (none, 0, false)).1

/-- The offset of the brace that opens the group which is open at the end of the text, found by
going backwards over `reversed` with `depth` groups open. -/
def openingFrom? : (depth : Nat) → (reversed : Text) → Option Nat
  | _, [] => none
  | depth, b :: t =>
    let escaped := t.head? == some '\\'.toUInt8
    if b == 0x7D && !escaped then openingFrom? (depth + 1) t
    else if b == 0x7B && !escaped then
      if depth == 1 then some t.length else openingFrom? (depth - 1) t
    else openingFrom? depth t

/-- The offset of the brace that opens the group which is open at the end of the text. -/
def opening? (s : Text) : Option Nat := openingFrom? 1 s.reverse

/-- The members of a group, cut at the commas that are not in an inner group.  `depth` is one
outside inner groups. -/
def membersFrom : (depth : Int) → (escaped : Bool) → Text → List Text
  | _, _, [] => [[]]
  | depth, escaped, b :: t =>
    let grow (ms : List Text) : List Text :=
      match ms with
      | [] => [[b]]
      | m :: ms => (b :: m) :: ms
    if escaped then grow (membersFrom depth false t)
    else if b == '\\'.toUInt8 then grow (membersFrom depth true t)
    else if b == 0x7B then grow (membersFrom (depth + 1) false t)
    else if b == 0x7D then grow (membersFrom (depth - 1) false t)
    else if b == ','.toUInt8 && depth == 1 then [] :: membersFrom depth false t
    else grow (membersFrom depth false t)

/-- The members of a group.  An empty last member does not count. -/
def members (s : Text) : List Text :=
  let ms := membersFrom 1 false s
  if ms.getLast? == some [] then ms.dropLast else ms

/-- Folders that are crossed by any number of levels stand before the end of the pattern. -/
def crossesInside : Text → Bool
  | 92 :: _ :: t => crossesInside t
  | 42 :: 42 :: _ :: _ :: _ => true
  | _ :: t => crossesInside t
  | [] => false

/-! ### Looking at the tree -/

/-- Where a search takes place. -/
structure Ground where
  tree : FileTree
  /-- the folder that paths start from, if there is one -/
  root : Option Location

namespace Ground

/-- The ground below a folder. -/
def below (t : FileTree) (root : Text) : Ground where
  tree := t
  root :=
    match t.locate root with
    | .ok l => if t.get? l == some .folder then some l else none
    | .error _ => none

/-- The path is a clean relative one. -/
def isClean (path : Text) : Bool :=
  isWellFormed path &&
    (path == Path.dot
      || (Path.components path).all fun c => !c.isEmpty && c != Path.dot && c != Path.dotdot)

/-- The location of a path. -/
def location? (g : Ground) (path : Text) : Option Location :=
  match g.root with
  | none => none
  | some l =>
    if !isClean path then none
    else if path == Path.dot then some l
    else some (l ++ Path.components path)

/-- What is at a path. -/
def get? (g : Ground) (path : Text) : Option Entry := (g.location? path).bind g.tree.get?

/-- The location of the folder at a path. -/
def folder? (g : Ground) (path : Text) : Option Location :=
  match g.location? path with
  | some l => if g.tree.get? l == some .folder then some l else none
  | none => none

/-- The path of a name in a folder. -/
def pathIn (folder name : Text) : Text := Path.clean (folder ++ Path.slash :: name)

/-- What is in a folder and matches a pattern for names: files, or else folders. -/
def named (g : Ground) (files : Bool) (folder pattern : Text) : Except Malformed (List Text) :=
  match g.folder? folder with
  | none => .ok []
  | some l => do
    let hits ← (g.tree.children l).filterM fun (name, _) => nameMatches pattern name
    return (hits.filter fun (_, isFolder) => isFolder != files).map fun (name, _) =>
      pathIn folder name

/-- What is below a folder on any level: files, or else folders, the folder itself included. -/
def anyDepth (g : Ground) (files : Bool) (folder : Text) : List Text :=
  match g.folder? folder with
  | none => []
  | some l =>
    let reached := (g.tree.below l).filter fun (m, isFolder) =>
      (if isFolder then m else m.dropLast).all isWellFormed && isFolder != files
    let inner := reached.map fun (m, _) => pathIn folder (join [Path.slash] m)
    if files then inner else folder :: inner

/-- What a folder contributes for the last name of a pattern. -/
def lastName (g : Ground) (files : Bool) (folder pattern : Text) : Except Malformed (List Text) :=
  if pattern.isEmpty then
    .ok (if !files && (g.folder? folder).isSome then [folder] else [])
  else if pattern == lit "**" then .ok (g.anyDepth files folder)
  else g.named files folder pattern

/-- What a path without special characters contributes: a file, or if folders are wanted
anything. -/
def literal (g : Ground) (files : Bool) (path : Text) : List Text :=
  let name := if path.length > 1 && path.getLast? == some Path.slash then path.dropLast else path
  match g.get? name with
  | none => []
  | some e => if files && e == .folder then [] else [path]

/-- The pattern for one member of a group, below `folder`. -/
def memberPattern (folder before member after : Text) : Text :=
  (if folder.isEmpty || folder == Path.dot then [] else folder ++ [Path.slash])
    ++ before ++ member ++ after

/-- What a pattern describes: files, or else folders.  `once` says that a path is listed once for
all members of a group and all folders before it, and not once for each folder. -/
def search (g : Ground) (once : Bool) :
    (fuel : Nat) → (files : Bool) → (pattern : Text) → Except Malformed (List Text)
  | 0, _, _ => .ok []
  | fuel + 1, files, pattern =>
    match metaIndex? 0 pattern with
    | none => .ok (g.literal files (unescape pattern))
    | some first =>
      let isSlash (b : UInt8) : Bool := b == Path.slash
      let split (i : Option Nat) : Except Malformed (List Text) :=
        match i with
        | none => g.lastName files Path.dot pattern
        | some i =>
          let folder := pattern.take i
          let name := pattern.drop (i + 1)
          if i ≤ first then g.lastName files folder name
          else do
            let folders ← g.search once fuel false folder
            return (← folders.mapM fun f => g.lastName files f name).flatten
      match lastIndex? (fun b => isSlash b || b == 0x7D) pattern with
      | none => split none
      | some i =>
        if pattern[i]? == some Path.slash then split (some i)
        else
          match opening? (pattern.take i) with
          | none =>
            match lastIndex? isSlash (pattern.take i) with
            | none => split none
            | some j => split (some j)
          | some o => do
            let head := pattern.take o
            let prior := lastIndex? (fun b => isSlash b || b == 0x7D) head
            let slashed := prior.filter fun j => pattern[j]? == some Path.slash
            let folders ← match slashed with
              | none => pure [[]]
              | some j => g.search once fuel false (pattern.take j)
            let before := match slashed with
              | none => head
              | some j => head.drop (j + 1)
            let group := members ((pattern.drop (o + 1)).take (i - o - 1))
            let each ← folders.mapM fun f => do
              let found ← group.mapM fun m =>
                g.search once fuel files (memberPattern f before m (pattern.drop (i + 1)))
              return distinct found.flatten
            return if once then distinct each.flatten else each.flatten

end Ground

/-- The files below `root` that a pattern describes, in bytewise order.  Every step leaves out a slash
or a brace, of the pattern or of a name that took its place, which bounds the number of steps. -/
def find (t : FileTree) (root pattern : Text) : Except Malformed (List Text) :=
  let names := (t.entries.flatMap fun e => e.1.flatten).length
  let g := Ground.below t root
  (g.search (crossesInside pattern) (2 * (pattern.length + names) + 2) true pattern).map sorted

end Glob

end DateDisplay
