import DateDisplay.Diff.Script

/-!
# Line diffs

The lines of both texts are numbered, equal lines alike, in the order in which they first
appear.  Each text becomes the list of its line numbers, written in decimal with commas between
them, and the edit script is made for these two texts of digits and commas.

A script may cut a number in two.  Each piece of an edit is then read as a number again, and
stands for the line of that number, so with ten lines or more a diff may show a line that was
not touched.
-/

namespace DateDisplay

open Text

namespace LineDiff

/-- The lines of a text, each with the line feed that ends it. -/
def linesOf : Text → List Text
  | [] => []
  | b :: t =>
    if b == 10 then [b] :: linesOf t
    else
      match linesOf t with
      | [] => [[b]]
      | l :: ls => (b :: l) :: ls

/-- The different lines of both texts, in the order in which they first appear. -/
def table (before after : Text) : List Text := distinct (linesOf before ++ linesOf after)

/-- The number of a line: one more than its place in the table. -/
def numberOf (table : List Text) (line : Text) : Nat := table.idxOf line + 1

/-- The line numbers of a text, with commas between them. -/
def numerals (table : List Text) (s : Text) : Text :=
  join [','.toUInt8] ((linesOf s).map fun l => decimal (numberOf table l))

/-- The line that a piece of a numeral text stands for.  The number zero stands for nothing. -/
def lineOf (table : List Text) (piece : Text) : Text :=
  if piece.isEmpty || !piece.all isDigit then []
  else
    match ofDigits piece with
    | 0 => []
    | n + 1 => table.getD n []

/-- The lines that a numeral text stands for, one after the other. -/
def readNumerals (table : List Text) (s : Text) : Text :=
  (splitOn [','.toUInt8] s).flatMap (lineOf table)

/-- The edit script between two texts, in whole lines. -/
def edits (before after : Text) : List Edit :=
  let t := table before after
  (Edit.script (numerals t before) (numerals t after)).map
    fun e => { e with text := readNumerals t e.text }

/-- The lines of a text, without the line feeds. -/
def bareLines (s : Text) : List Text :=
  (linesOf s).map fun l => if l.getLast? == some 10 then l.dropLast else l

/-- A number, right-aligned in four columns. -/
def column (n : Nat) : Text :=
  let digits := decimal n
  spaces (4 - digits.length) ++ digits

/-- A line of a diff: the sign, the number of the line, and the line. -/
def entry (sign : Char) (number : Nat) (line : Text) : Text :=
  sign.toUInt8 :: column number ++ lit " | " ++ line

/-- The lines that an edit shows, where `old` and `new` number the next line of either text. -/
def entries (old new : Nat) (e : Edit) : List Text :=
  match e.kind with
  | .keep => []
  | .delete => (bareLines e.text).mapIdx fun i l => entry '-' (old + i) l
  | .insert => (bareLines e.text).mapIdx fun i l => entry '+' (new + i) l

/-- The lines that a script shows, where `old` and `new` number the next line of either text. -/
def render (old new : Nat) : List Edit → List Text
  | [] => []
  | e :: es =>
    let n := (bareLines e.text).length
    entries old new e ++
      render (if e.kind = .insert then old else old + n) (if e.kind = .delete then new else new + n)
        es

/-- The changed lines between two texts: deleted ones with the number they have in the first,
inserted ones with the number they have in the second. -/
def changes (before after : Text) : List Text :=
  if before == after then [] else render 1 1 (edits before after)

/-- The changed lines under a heading that names the file, or nothing if there are none. -/
def unified (path before after : Text) : Text :=
  match changes before after with
  | [] => []
  | ls => lit "--- " ++ path ++ lit "\n+++ " ++ path ++ lit "\n" ++ join [10] ls ++ [10]

end LineDiff

end DateDisplay
