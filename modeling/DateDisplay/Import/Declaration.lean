import DateDisplay.Text.Search
import DateDisplay.Text.Blank

/-!
# Import declarations

A named import such as `import { a, b as c } from 'path'` is read as its parts: the blanks, the list
between the braces, the two quotes and the path.  The text of a declaration is always what its
parts spell, so that a change of the list is a change of the text and of nothing else in it.  Where
the text is kept at hand, with the offsets of the list in it, the two have to be changed together.

The symbols of a declaration are the comma-separated pieces of its list, with white space
collapsed, without blank pieces and without repetitions.
-/

namespace DateDisplay

open Text

/-- A named import statement of a file. -/
structure Declaration where
  /-- the offset of the statement in its file -/
  start : Nat
  /-- the imported symbols, as written and in that order -/
  symbols : List Text
  /-- the blanks between `import` and the opening brace -/
  beforeList : Text
  /-- all that stands between the braces -/
  list : Text
  /-- the blanks between the closing brace and `from` -/
  beforeFrom : Text
  /-- the blanks between `from` and the path -/
  afterFrom : Text
  /-- the quote before the path -/
  quote : UInt8
  /-- the module path -/
  path : Text
  /-- the quote behind the path -/
  endQuote : UInt8
  deriving Repr, DecidableEq

namespace Declaration

/-- The word that opens a declaration. -/
def keyword : Text := lit "import"

/-- The word before the module path. -/
def fromWord : Text := lit "from"

/-- The part of the statement up to and with the opening brace. -/
def head (d : Declaration) : Text := keyword ++ d.beforeList ++ ['{'.toUInt8]

/-- The part of the statement from the closing brace on. -/
def tail (d : Declaration) : Text :=
  '}'.toUInt8 :: d.beforeFrom ++ fromWord ++ d.afterFrom ++ d.quote :: d.path ++ [d.endQuote]

/-- The statement as it stands in the file. -/
def text (d : Declaration) : Text := d.head ++ d.list ++ d.tail

/-- The offset behind the statement. -/
def stop (d : Declaration) : Nat := d.start + d.text.length

/-! ### Symbols -/

/-- The symbols of a brace list. -/
def symbolsOf (list : Text) : List Text :=
  distinct (((splitOn [','.toUInt8] list).map collapse).filter (!·.isEmpty))

/-- The name that a symbol binds in the file: `a as b` binds `b`, and `type a` binds `a`. -/
def localName (symbol : Text) : Text :=
  match fields symbol with
  | [_, word, name] => if word == lit "as" then name else symbol
  | [word, name] => if word == lit "type" then name else symbol
  | _ => symbol

/-- The declaration binds `name`. -/
def binds (d : Declaration) (name : Text) : Bool := d.symbols.any (localName · == name)

/-! ### Reading -/

/-- At least one blank: the blanks at the front of a text and the rest. -/
def gap? (s : Text) : Option (Text × Text) :=
  let blanks := s.takeWhile isGap
  if blanks.isEmpty then none else some (blanks, s.dropWhile isGap)

/-- The byte at the front of a text, if it is a quote, and the rest. -/
def quote? : Text → Option (UInt8 × Text)
  | b :: t => if isQuote b then some (b, t) else none
  | [] => none

/-- The declaration at the front of a text, taken to start at offset zero, and the text behind
it. -/
def parse? (s : Text) : Option (Declaration × Text) := do
  let s ← strip? keyword s
  let (beforeList, s) ← gap? s
  let s ← strip? ['{'.toUInt8] s
  let list := s.takeWhile (· != '}'.toUInt8)
  if list.isEmpty then none
  let s ← strip? ['}'.toUInt8] (s.dropWhile (· != '}'.toUInt8))
  let (beforeFrom, s) ← gap? s
  let s ← strip? fromWord s
  let (afterFrom, s) ← gap? s
  let (quote, s) ← quote? s
  let path := s.takeWhile (!isQuote ·)
  let (endQuote, s) ← quote? (s.dropWhile (!isQuote ·))
  return ({ start := 0, symbols := symbolsOf list, beforeList, list, beforeFrom, afterFrom,
            quote, path, endQuote }, s)

/-- The declaration at the front of a text and its length. -/
def recognise (s : Text) : Option (Declaration × Nat) :=
  (parse? s).map fun (d, rest) => (d, s.length - rest.length)

/-- The declarations of a file, in order. -/
def declarations (content : Text) : List Declaration :=
  (occurrences recognise content).map fun o => { o.value with start := o.start }

/-- The first declaration whose path ends with `module`. -/
def findFrom? (content module : Text) : Option Declaration :=
  (declarations content).find? (fun d => module.isSuffixOf d.path)

/-! ### Writing -/

/-- The blanks that may stand between the last symbol of a list and the closing brace. -/
def isListBlank (b : UInt8) : Bool := b == 32 || b == 9 || b == 13 || b == 10

/-- A brace list with `name` behind its last symbol.  A comma after the last symbol is kept as a
comma after the new one, and the blanks before the closing brace stay there. -/
def extendList (list name : Text) : Text :=
  let body := trimEnd isListBlank list
  let blanks := list.drop body.length
  if body.isEmpty then 32 :: name ++ [32]
  else if [','.toUInt8].isSuffixOf body then body ++ 32 :: name ++ ','.toUInt8 :: blanks
  else body ++ ','.toUInt8 :: 32 :: name ++ blanks

/-- The declaration that also binds `name`.  It is the same one if it does so already. -/
def withSymbol (d : Declaration) (name : Text) : Declaration :=
  if d.binds name then d
  else { d with symbols := d.symbols ++ [name], list := extendList d.list name }

/-- The statement that imports one symbol from a path. -/
def statement (symbol path : Text) : Text :=
  lit "import \x7b " ++ symbol ++ lit " \x7d from '" ++ path ++ lit "';"

end Declaration

/-! ### With the text at hand -/

/-- A declaration with its text kept at hand. -/
structure CachedDeclaration where
  symbols : List Text
  path : Text
  quote : UInt8
  text : Text
  /-- the offsets of the text in its file -/
  start : Nat
  stop : Nat
  /-- all that stands between the braces -/
  list : Text
  /-- the offsets of the list in the text -/
  listStart : Nat
  listStop : Nat
  deriving Repr, DecidableEq

/-- The declaration with its text at hand. -/
def Declaration.cached (d : Declaration) : CachedDeclaration where
  symbols := d.symbols
  path := d.path
  quote := d.quote
  text := d.text
  start := d.start
  stop := d.stop
  list := d.list
  listStart := d.head.length
  listStop := d.head.length + d.list.length

/-- The declaration that also binds `name`: the new list is put into the text in the place of the
old one. -/
def CachedDeclaration.withSymbol (d : CachedDeclaration) (name : Text) : CachedDeclaration :=
  if d.symbols.any (Declaration.localName · == name) then d
  else
    let list := Declaration.extendList d.list name
    let text := d.text.take d.listStart ++ list ++ d.text.drop d.listStop
    { d with
      symbols := d.symbols ++ [name], text, list
      listStop := d.listStart + list.length
      stop := d.start + text.length }

end DateDisplay
