import DateDisplay.Glob.Search
import DateDisplay.Journal
import DateDisplay.Plan

/-!
# The files of a plan

The entries of a plan's file list are taken in order.  A path stands for itself, whether there is a
file or not; a pattern stands for the files that it describes, in bytewise order.  A file is listed
once, where it comes first.
-/

namespace DateDisplay

open Text

/-- Why a file list cannot be expanded. -/
inductive ExpansionFault where
  /-- the entry is no valid pattern -/
  | invalid (entry : Text)
  /-- a class of the pattern does not end before a slash -/
  | malformed (entry : Text)
  deriving Repr, DecidableEq

/-- The fault in words. -/
def ExpansionFault.message : ExpansionFault → Text
  | .invalid e => lit "invalid glob pattern " ++ quoted e
  | .malformed e => lit "expanding " ++ quoted e ++ lit ": syntax error in pattern"

namespace Plan

/-- The event that tells of a pattern. -/
def expandedEvent (entry : Text) (paths : List Text) : List Event :=
  if Glob.isPattern entry then
    [⟨.debug, [("pattern", .text entry), ("matches", .number paths.length)],
      lit "expanded glob entry"⟩]
  else []

/-- The paths that an entry stands for, where `find` lists what a pattern describes. -/
def entryPaths (find : Text → Except Glob.Malformed (List Text)) (entry : Text) :
    Except ExpansionFault (List Text) :=
  if !Glob.isPattern entry then .ok [entry]
  else if !Glob.isValid entry then .error (.invalid entry)
  else
    match find entry with
    | .ok paths => .ok paths
    | .error _ => .error (.malformed entry)

/-- The paths of every entry, and the events up to the first fault. -/
def expandEntries (find : Text → Except Glob.Malformed (List Text)) :
    List Text → List Event × Except ExpansionFault (List (List Text))
  | [] => ([], .ok [])
  | e :: es =>
    match entryPaths find e with
    | .error f => ([], .error f)
    | .ok paths =>
      let (events, rest) := expandEntries find es
      (expandedEvent e paths ++ events, rest.map (paths :: ·))

/-- The files of a plan below `root`, and the events on the way. -/
def expand (p : Plan) (t : FileTree) (root : Text) :
    List Event × Except ExpansionFault (List Text) :=
  let (events, paths) := expandEntries (Glob.find t root) p.entries
  (events, paths.map fun ps => distinct ps.flatten)

end Plan

end DateDisplay
