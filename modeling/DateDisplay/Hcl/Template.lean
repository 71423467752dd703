import DateDisplay.Hcl.Expression
import DateDisplay.Text.Blank

/-!
# HCL templates

A template is a text with holes, in each of which an expression stands.  A hole may ask for the
white space before or behind it to be taken away.  The lines of a template may be moved to the left
by the indentation that they have in common.

A template that is one hole and nothing else is the expression in it; any other is the text of
its parts.
-/

namespace DateDisplay

open Text

namespace Hcl

/-- A part of a template. -/
inductive Part where
  | text (t : Text)
  | hole (trimBefore : Bool) (e : Expression) (trimAfter : Bool)
  deriving Repr

namespace Part

/-- Takes away the white space that holes ask to be taken away.  `before` says that the part
before is such a hole. -/
def trim : (before : Bool) → List Part → List Part
  | _, [] => []
  | before, .text t :: ps =>
    let t := if before then trimStartFrom 0 t else t
    let t := match ps with
      | .hole true _ _ :: _ => trimBlankEnd t
      | _ => t
    .text t :: trim false ps
  | _, .hole l e r :: ps => .hole l e r :: trim r ps

/-- The number of white space characters at the front of a text. -/
def leading (t : Text) : Nat := size t - size (trimStartFrom 0 t)

/-- A line with nothing but white space on it. -/
def isBlankLine (t : Text) : Bool := isBlank t && t.getLast? == some 10

/-- A part that ends its line. -/
def endsLine : Part → Bool
  | .text t => t.getLast? == some 10
  | .hole _ _ _ => false

/-- The least indentation of the lines that are not blank.  `fresh` says that a line starts. -/
def indentation : (fresh : Bool) → List Part → Option Nat
  | _, [] => none
  | fresh, p :: ps =>
    let rest := indentation p.endsLine ps
    if !fresh then rest
    else
      match p with
      | .hole _ _ _ => some 0
      | .text t =>
        if isBlankLine t then rest
        else
          match rest with
          | some n => some (min n (leading t))
          | none => some (leading t)

/-- The text without its first `n` characters. -/
def dropCharacters (n : Nat) (t : Text) : Text :=
  ((characters t).drop n).flatMap fun | .point p => encodePoint p | .stray b => [b]

/-- Moves the lines that are not blank to the left by `n` characters. -/
def outdent (n : Nat) : (fresh : Bool) → List Part → List Part
  | _, [] => []
  | fresh, p :: ps =>
    let q := match p with
      | .text t => if fresh && !isBlankLine t then .text (dropCharacters n t) else p
      | .hole _ _ _ => p
    q :: outdent n p.endsLine ps

/-- The part as an expression. -/
def expression : Part → Expression
  | .text t => .literal (.string t)
  | .hole _ e _ => e

/-- The template of the given parts. -/
def assemble (ps : List Part) : Expression :=
  match trim false ps with
  | [.hole _ e _] => e
  | ps => .template (ps.map expression)

/-- The template of the given lines, without the indentation that they have in common if
`outdented`. -/
def assembleLines (outdented : Bool) (ps : List Part) : Expression :=
  let ps := trim false ps
  let ps := if outdented then outdent ((indentation true ps).getD 0) true ps else ps
  .template (ps.map expression)

end Part

end Hcl

end DateDisplay
