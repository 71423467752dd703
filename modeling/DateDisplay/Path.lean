import DateDisplay.Text

/-!
# Paths

Paths are texts whose components are separated by slashes.  `clean` gives the shortest path that
means the same without looking at any file: empty and `.` components go, and `..` takes the
component before it along.
-/

namespace DateDisplay

open Text

namespace Path

/-- The separator of components. -/
def slash : UInt8 := '/'.toUInt8

/-- The component for the folder itself. -/
def dot : Text := lit "."

/-- The component for the folder above. -/
def dotdot : Text := lit ".."

/-- The components of a path, with the empty ones. -/
def components (p : Text) : List Text := splitOn [slash] p

/-- The path starts at the root of all files. -/
def isAbsolute (p : Text) : Bool := p.head? == some slash

/-- One component put on a stack of components, whose top is the head.  Above the root there is
nothing but the root. -/
def push (rooted : Bool) (stack : List Text) (c : Text) : List Text :=
  if c.isEmpty || c == dot then stack
  else if c == dotdot then
    match stack with
    | [] => if rooted then [] else [dotdot]
    | top :: below => if top == dotdot then dotdot :: stack else below
  else c :: stack

/-- The shortest path that means the same. -/
def clean (p : Text) : Text :=
  let rooted := isAbsolute p
  let body := join [slash] ((components p).foldl (push rooted) []).reverse
  if rooted then slash :: body else if body.isEmpty then dot else body

/-- The path of `p` below the folder `base`, in its shortest form. -/
def under (base p : Text) : Text := clean (base ++ slash :: p)

/-- The last component of a path. -/
def base (p : Text) : Text :=
  if p.isEmpty then dot
  else
    let trimmed := trimEnd (· == slash) p
    if trimmed.isEmpty then [slash]
    else (trimmed.reverse.takeWhile (· != slash)).reverse

end Path

end DateDisplay
