import DateDisplay.Text.Utf8

/-!
# Reading YAML, one character at a time

A YAML text is read as code points.  A cursor is a place in the text: what is still to be read,
and where that is.  Line breaks are those of YAML 1.1, which besides line feed and carriage
return knows U+0085, U+2028 and U+2029.
-/

namespace DateDisplay

open Text

namespace Yaml

/-- The code point may stand in a YAML text. -/
def isAllowed (n : Nat) : Bool :=
  n == 9 || n == 10 || n == 13 || (0x20 ≤ n && n ≤ 0x7E) || n == 0x85 || (0xA0 ≤ n && n ≤ 0xD7FF)
    || (0xE000 ≤ n && n ≤ 0xFFFD) || 0x10000 ≤ n

/-- The mark that may stand at the start of a text. -/
def byteOrderMark : Nat := 0xFEFF

/-- The code points of a text, without the mark at its start, if all of them are allowed. -/
def points? (s : Text) : Option (List Nat) := do
  let ps ← Text.points? s
  if !ps.all isAllowed then none
  else if ps.head? == some byteOrderMark then return ps.drop 1
  else return ps

/-- A space or a tab. -/
def isBlank (n : Nat) : Bool := n == 32 || n == 9

/-- A line break. -/
def isBreak (n : Nat) : Bool :=
  n == 10 || n == 13 || n == 0x85 || n == 0x2028 || n == 0x2029

/-- The next character is a line break, or there is none. -/
def startsBreakOrEnd : List Nat → Bool
  | [] => true
  | n :: _ => isBreak n

/-- The next character is a blank or a line break, or there is none. -/
def startsGapOrEnd : List Nat → Bool
  | [] => true
  | n :: _ => isBlank n || isBreak n

/-- A place in a YAML text. -/
structure Cursor where
  rest : List Nat
  index : Nat := 0
  line : Nat := 0
  column : Nat := 0
  deriving Repr

namespace Cursor

/-- The next character. -/
def head? (c : Cursor) : Option Nat := c.rest.head?

/-- The next character is `ch`. -/
def at? (c : Cursor) (ch : Char) : Bool := c.rest.head? == some ch.toNat

/-- The text is at its end. -/
def atEnd (c : Cursor) : Bool := c.rest.isEmpty

/-- The place behind the next character, which is no line break. -/
def next (c : Cursor) : Cursor :=
  { c with rest := c.rest.drop 1, index := c.index + 1, column := c.column + 1 }

/-- The place behind the next `n` characters. -/
def advance (c : Cursor) (n : Nat) : Cursor :=
  { c with rest := c.rest.drop n, index := c.index + n, column := c.column + n }

/-- The line break at a place, as it is kept in a scalar, and the place behind it. -/
def lineBreak (c : Cursor) : List Nat × Cursor :=
  let after (n : Nat) : Cursor := ⟨c.rest.drop n, c.index + n, c.line + 1, 0⟩
  match c.rest with
  | 13 :: 10 :: _ => ([10], after 2)
  | n :: _ =>
    if n == 0x2028 || n == 0x2029 then ([n], after 1)
    else if isBreak n then ([10], after 1)
    else ([], c)
  | [] => ([], c)

/-- The place behind the characters that satisfy `p`. -/
def skipWhile (p : Nat → Bool) (c : Cursor) : Cursor :=
  c.advance (c.rest.takeWhile p).length

/-- The end of the line. -/
def toBreak (c : Cursor) : Cursor := c.skipWhile fun n => !isBreak n

/-- The line starts with three times `ch` and nothing joined to them: a boundary of documents. -/
def atBoundary (c : Cursor) (ch : Char) : Bool :=
  c.column == 0 && (List.replicate 3 ch.toNat).isPrefixOf c.rest && startsGapOrEnd (c.rest.drop 3)

/-- The line starts with a boundary of documents. -/
def atAnyBoundary (c : Cursor) : Bool := c.atBoundary '-' || c.atBoundary '.'

end Cursor

end Yaml

end DateDisplay
