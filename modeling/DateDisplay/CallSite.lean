import DateDisplay.Text.Search
import DateDisplay.Text.Utf8

/-!
# Call sites

A call site is a place where a date is formatted for display with a fixed locale,

    new Date(EXPR).toLocaleDateString('LOCALE')

`EXPR` is a name, or a name and one property of it.  The locale stands between quotes, single
or double, and the two quotes need not be equal.  Nothing else may stand between the pieces, not
even a blank.

`callSite?` recognises a call site at the front of a text, and `scan` lists those of a whole
text, leftmost first and without overlaps.
-/

namespace DateDisplay

open Text

/-- The two forms of a date expression. -/
inductive Shape where
  /-- a bare name such as `date` -/
  | identifier
  /-- one property of a name, such as `record.createdAt` -/
  | property
  deriving Repr, DecidableEq

/-- The name of a shape in answers and in the log. -/
def Shape.name : Shape → String
  | .identifier => "identifier"
  | .property => "property"

/-- A date expression: its shape and its text. -/
structure DateExpression where
  shape : Shape
  text : Text
  deriving Repr, DecidableEq

/-- A call site found in a text. -/
abbrev CallSite := Occurrence DateExpression

namespace CallSite

/-- What comes before the expression. -/
def opening : Text := lit "new Date("

/-- What comes between the expression and the locale's first quote. -/
def middle : Text := lit ").toLocaleDateString("

/-- The expression at the front of a text, and the rest of the text. -/
def expression? (s : Text) : Option (DateExpression × Text) :=
  let name := s.takeWhile isWord
  let rest := s.dropWhile isWord
  if name.isEmpty then none
  else
    match rest with
    | b :: t =>
      if b == '.'.toUInt8 then
        let field := t.takeWhile isWord
        if field.isEmpty then none
        else some (⟨.property, name ++ b :: field⟩, t.dropWhile isWord)
      else some (⟨.identifier, name⟩, rest)
    | [] => some (⟨.identifier, name⟩, rest)

/-- What follows a quote, if the text starts with one. -/
def afterQuote? : Text → Option Text
  | b :: t => if isQuote b then some t else none
  | [] => none

/-- The text starts with a byte that belongs to no character. -/
def startsStray (s : Text) : Bool :=
  match decodeHead s with
  | some (.stray _, _) => true
  | _ => false

/-- What follows the locale, if the text starts with it.  A replacement character in the locale
also stands for one stray byte of the text, since that is how such a byte reads. -/
def afterLocale? : Text → Text → Option Text
  | [], s => some s
  | 0xEF :: 0xBF :: 0xBD :: locale, s =>
    match strip? replacement s with
    | some rest => afterLocale? locale rest
    | none => if startsStray s then afterLocale? locale (s.drop 1) else none
  | _ :: _, [] => none
  | a :: locale, b :: s => if a == b then afterLocale? locale s else none

/-- The call site for `locale` at the front of a text: its expression, and the text behind
it. -/
def parse? (locale s : Text) : Option (DateExpression × Text) := do
  let s ← strip? opening s
  let (e, s) ← expression? s
  let s ← strip? middle s
  let s ← afterQuote? s
  let s ← afterLocale? locale s
  let s ← afterQuote? s
  let s ← strip? [')'.toUInt8] s
  return (e, s)

/-- The call site for `locale` at the front of a text: its expression and its length. -/
def recognise (locale s : Text) : Option (DateExpression × Nat) :=
  (parse? locale s).map fun (e, rest) => (e, s.length - rest.length)

/-- The call sites of a text, in order. -/
def scan (locale content : Text) : List CallSite := occurrences (recognise locale) content

end CallSite

end DateDisplay
