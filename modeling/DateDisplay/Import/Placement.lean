import DateDisplay.Text.Blank

/-!
# Where a new import goes

A new import statement stands on a line of its own, directly after the last import at the top
level of the file, or on the first line if there is none.  Only the lines of the file are
looked at.  An import is recognised by its first line, from column zero, and ends on that line
unless the line opens a brace that it does not close.

The file's line ending is kept: it is CRLF as soon as the file has one CRLF.
-/

namespace DateDisplay

open Text

namespace Placement

/-- The line starts a top-level import. -/
def startsImport (line : Text) : Bool :=
  match strip? (lit "import") line with
  | some (b :: _) =>
    isGap b || b == '{'.toUInt8 || b == '*'.toUInt8 || isQuote b
  | _ => false

/-- After some blanks the text has a quote. -/
def quoteAhead (s : Text) : Bool :=
  match s.dropWhile isGap with
  | b :: _ => isQuote b
  | [] => false

/-- `word`, blanks and a quote stand at the front of the text. -/
def wordThenQuote (word s : Text) : Bool :=
  match strip? word s with
  | some rest => quoteAhead rest
  | none => false

/-- `from`, blanks and a quote stand somewhere in the text, and `from` starts a word there.
The flag says that a letter, a digit or an underscore comes before the text. -/
def fromQuoteWithin : Bool → Text → Bool
  | _, [] => false
  | inWord, b :: t =>
    (!inWord && wordThenQuote (lit "from") (b :: t)) || fromQuoteWithin (isWord b) t

/-- An import statement ends on this line: the line imports a module for its effects, or has a
`from` clause. -/
def endsImport (line : Text) : Bool :=
  wordThenQuote (lit "import") line || fromQuoteWithin false line

/-- The line begins with a `from` clause. -/
def startsFromClause (line : Text) : Bool :=
  wordThenQuote (lit "from") (line.dropWhile isGap)

/-- The line opens more braces than it closes. -/
def opensBrace (line : Text) : Bool :=
  line.count '}'.toUInt8 < line.count '{'.toUInt8

/-- How many of the lines that follow belong to an import whose list is still open.  `behind`
of them have been passed.  A list that runs into a blank line, into another import or into the
end of the file was never closed, and the import is taken to be its first line alone. -/
def openListSpan (behind : Nat) : List Text → Nat
  | [] => 0
  | line :: rest =>
    if isBlank line || startsImport line then 0
    else if !line.contains '}'.toUInt8 then openListSpan (behind + 1) rest
    else if !endsImport line && (rest.head?.map startsFromClause).getD false then behind + 2
    else behind + 1

/-- How many of the lines that follow belong to the import that starts on `line`. -/
def span (line : Text) (rest : List Text) : Nat :=
  if endsImport line || !opensBrace line then 0 else openListSpan 0 rest

/-- The number of lines up to the end of the last import, for lines that are numbered from
`number`, of which the first `skip` belong to an import.  `last` is the answer for the lines
before. -/
def importsEndFrom (last number skip : Nat) : List Text → Nat
  | [] => last
  | line :: rest =>
    match skip with
    | skip + 1 => importsEndFrom last (number + 1) skip rest
    | 0 =>
      if startsImport line then
        let more := span line rest
        importsEndFrom (number + more + 1) (number + 1) more rest
      else importsEndFrom last (number + 1) 0 rest

/-- The number of lines up to the end of the last import. -/
def importsEnd (lines : List Text) : Nat := importsEndFrom 0 0 0 lines

/-- The line ending of a file. -/
def lineEnding (content : Text) : Text := if occurs [13, 10] content then [13, 10] else [10]

/-- The file with `statement` on a line of its own after its imports. -/
def insert (content statement : Text) : Text :=
  let eol := lineEnding content
  let lines := splitOn eol content
  let place := importsEnd lines
  join eol (lines.take place ++ statement :: lines.drop place)

end Placement

end DateDisplay
