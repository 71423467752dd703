import DateDisplay.Yaml.Scalar

/-!
# YAML tokens

A YAML text is cut into tokens.  Indentation becomes tokens of its own: a collection that is
written by indentation has a start and an end like one in brackets.

Whether a scalar is a key is known only at the colon behind it.  So the reader remembers, for
each level of brackets, the last place where a key may have started, and when it meets a colon
puts the token for the key, and for the start of a mapping if there is none yet, at that place.
A key has to end on the line where it starts, within 1024 characters.
-/

namespace DateDisplay

namespace Yaml

/-- A token of a YAML text. -/
inductive Token where
  | streamEnd
  /-- the version of the format -/
  | version (major minor : Nat)
  /-- a shorthand for tags -/
  | tagDirective
  | documentStart
  | documentEnd
  | blockSequenceStart
  | blockMappingStart
  | blockEnd
  | flowSequenceStart
  | flowSequenceEnd
  | flowMappingStart
  | flowMappingEnd
  | blockEntry
  | flowEntry
  | key
  | value
  | alias (name : List Nat)
  | anchor (name : List Nat)
  | tag (name : List Nat)
  | scalar (plain : Bool) (content : List Nat)
  deriving Repr, DecidableEq

/-- A place where a key may have started. -/
structure KeyPlace where
  /-- only a key can stand there -/
  required : Bool
  /-- the number of the token that starts the key -/
  token : Nat
  index : Nat
  line : Nat
  column : Nat
  deriving Repr

/-- The state of the reader. -/
structure Reader where
  cursor : Cursor
  /-- the tokens read so far -/
  tokens : List Token := []
  /-- the column of the innermost collection that is written by indentation, -1 outside all -/
  indent : Int := -1
  /-- the columns of the collections around it -/
  outer : List Int := []
  /-- where a key may have started, for each level of brackets, innermost first -/
  places : List (Option KeyPlace) := [none]
  /-- a key may start here -/
  keyAllowed : Bool := true
  deriving Repr

namespace Reader

/-- Inside brackets. -/
def inFlow (r : Reader) : Bool := r.places.length > 1

/-- The reader with one more token. -/
def emit (r : Reader) (t : Token) : Reader := { r with tokens := r.tokens ++ [t] }

/-- The reader with a token put before token number `n`. -/
def emitAt (r : Reader) (n : Nat) (t : Token) : Reader :=
  { r with tokens := r.tokens.take n ++ t :: r.tokens.drop n }

/-- The reader at another place. -/
def goto (r : Reader) (c : Cursor) : Reader := { r with cursor := c }

/-! ### Indentation -/

/-- Ends the collections that are indented deeper than `column`. -/
def unroll (column : Int) : (fuel : Nat) → Reader → Reader
  | 0, r => r
  | fuel + 1, r =>
    if r.indent > column then
      unroll column fuel
        { r.emit .blockEnd with indent := r.outer.headD (-1), outer := r.outer.drop 1 }
    else r

/-- Ends the collections that are indented deeper than `column`, unless inside brackets. -/
def unindent (r : Reader) (column : Int) : Reader :=
  if r.inFlow then r else unroll column (r.outer.length + 1) r

/-- Starts a collection at `column` with the token `t`, before token number `n`, unless there is
one at this column already. -/
def indentAt (r : Reader) (column : Nat) (n : Nat) (t : Token) : Reader :=
  if r.inFlow || r.indent ≥ column then r
  else { r.emitAt n t with indent := column, outer := r.indent :: r.outer }

/-! ### Places of keys -/

/-- Forgets the place on the innermost level.  It is a fault if a key was required there. -/
def dropPlace? (r : Reader) : Option Reader :=
  match r.places with
  | some p :: ps => if p.required then none else some { r with places := none :: ps }
  | _ => some r

/-- Remembers that a key may start here. -/
def savePlace? (r : Reader) : Option Reader :=
  if !r.keyAllowed then some r
  else do
    let r ← r.dropPlace?
    let c := r.cursor
    let required := !r.inFlow && r.indent == (c.column : Int)
    return { r with
      places := some ⟨required, r.tokens.length, c.index, c.line, c.column⟩ :: r.places.drop 1 }

/-- The place can no longer be that of a key that ends here. -/
def isStale (r : Reader) (p : KeyPlace) : Bool :=
  p.line < r.cursor.line || p.index + 1024 < r.cursor.index

/-! ### From token to token -/

/-- Goes on to the next token, over blanks, comments and line breaks.  Tabs are blanks only where
no key may start. -/
def toToken : (fuel : Nat) → Reader → Reader
  | 0, r => r
  | fuel + 1, r =>
    let c := r.cursor
    let c := if c.column == 0 && c.head? == some byteOrderMark then c.next else c
    let c := c.skipWhile fun n => n == 32 || ((r.inFlow || !r.keyAllowed) && n == 9)
    let c := if c.at? '#' then c.toBreak else c
    match c.head? with
    | some n =>
      if isBreak n then
        toToken fuel { r with cursor := c.lineBreak.2, keyAllowed := r.keyAllowed || !r.inFlow }
      else r.goto c
    | none => r.goto c

/-- Goes over a comment behind a token on the same line. -/
def overComment (r : Reader) : Reader :=
  let c := r.cursor.skipWhile isBlank
  if c.at? '#' && r.tokens.getLast? != some .blockEntry then r.goto c.toBreak else r

/-- A token that ends all that is open and stands alone on its line. -/
def boundary? (r : Reader) : Option Reader :=
  ((r.unindent (-1)).dropPlace?).map ({ · with keyAllowed := false })

/-- The digits at a place, and the place behind them. -/
def digits? (c : Cursor) : Option (Nat × Cursor) :=
  let ds := c.rest.takeWhile fun n => 48 ≤ n && n ≤ 57
  if ds.isEmpty || ds.length > 9 then none
  else some (ds.foldl (fun v d => v * 10 + (d - 48)) 0, c.advance ds.length)

/-- A character of a name. -/
def isNamePoint (n : Nat) : Bool := n < 128 && (Text.isWord n.toUInt8 || n == '-'.toNat)

/-- Reads a directive behind its percent sign. -/
def directive? (c : Cursor) : Option (Token × Cursor) := do
  let name := c.rest.takeWhile isNamePoint
  let c := c.advance name.length
  if !startsGapOrEnd c.rest then none
  else
    let blanks := c.skipWhile isBlank
    let (t, c) ←
      if name == "YAML".toList.map Char.toNat then do
        let (major, c) ← digits? blanks
        if !c.at? '.' then none
        else
          let (minor, c) ← digits? c.next
          return (Token.version major minor, c)
      else if name == "TAG".toList.map Char.toNat then
        let handle := blanks.skipWhile fun n => !isBlank n && !isBreak n
        let shorthand := handle.skipWhile isBlank
        if handle.index == blanks.index || !blanks.at? '!' || startsGapOrEnd shorthand.rest then none
        else some (Token.tagDirective, shorthand.skipWhile fun n => !isBlank n && !isBreak n)
      else none
    let c := c.skipWhile isBlank
    let c := if c.at? '#' then c.toBreak else c
    if startsBreakOrEnd c.rest then return (t, c.lineBreak.2) else none

/-- Reads the name of an anchor or an alias. -/
def anchorName? (c : Cursor) : Option (List Nat × Cursor) :=
  let name := c.rest.takeWhile isNamePoint
  let c := c.advance name.length
  let ends := startsGapOrEnd c.rest || "?:,]%@`".toList.any c.at? || c.head? == some 0x7D
  if name.isEmpty || !ends then none else some (name, c)

/-- Reads the name of a tag. -/
def tagName? (flow : Bool) (c : Cursor) : Option (List Nat × Cursor) :=
  let name := c.rest.takeWhile fun n =>
    !isBlank n && !isBreak n && !(flow && endsFlowPlain n && n != '?'.toNat)
  let c := c.advance name.length
  if startsGapOrEnd c.rest || flow then some (name, c) else none

/-- The indicators that cannot start a plain scalar. -/
def isIndicator (n : Nat) : Bool :=
  n == 0x7B || n == 0x7D || ("-?:,[]#&*!|>'\"%@`".toList.map Char.toNat).contains n

/-- A plain scalar starts here. -/
def startsPlain (flow : Bool) : List Nat → Bool
  | [] => false
  | n :: t =>
    !(isBlank n || isBreak n || isIndicator n)
      || (n == '-'.toNat && !(match t with | m :: _ => isBlank m | [] => false))
      || (!flow && (n == '?'.toNat || n == ':'.toNat) && !startsGapOrEnd t)

/-- Reads a token that a key may start with. -/
def keyStart? (r : Reader) (read? : Reader → Option (Token × Reader)) : Option Reader := do
  let r ← r.savePlace?
  let (t, r) ← read? { r with keyAllowed := false }
  return r.emit t

/-- Reads the colon behind a key. -/
def colon? (r : Reader) : Option Reader :=
  let c := r.cursor
  let complex : Option Reader :=
    if r.inFlow then some { r with keyAllowed := false }
    else if !r.keyAllowed then none
    else some { r.indentAt c.column r.tokens.length .blockMappingStart with keyAllowed := true }
  let read? : Option Reader :=
    match r.places with
    | some p :: ps =>
      if r.isStale p then
        if p.required then none
        else complex.map ({ · with places := none :: ps })
      else
        let r := (r.emitAt p.token .key).indentAt p.column p.token .blockMappingStart
        some { r with places := none :: ps, keyAllowed := false }
    | _ => complex
  read?.map fun r => (r.emit .value).goto c.next

/-- Reads the token at the cursor, which is neither at the end nor at a boundary. -/
def token? (r : Reader) : Option Reader :=
  let c := r.cursor
  let spaced := startsGapOrEnd (c.rest.drop 1)
  match c.head? with
  | none => none
  | some n =>
    let opening (t : Token) : Option Reader := do
      let r ← r.savePlace?
      return { r.emit t with places := none :: r.places, keyAllowed := true, cursor := c.next }
    let closing (t : Token) : Option Reader := do
      let r ← r.dropPlace?
      let places := if r.inFlow then r.places.drop 1 else r.places
      return { r.emit t with places, keyAllowed := false, cursor := c.next }
    if n == '['.toNat then opening .flowSequenceStart
    else if n == 0x7B then opening .flowMappingStart
    else if n == ']'.toNat then closing .flowSequenceEnd
    else if n == 0x7D then closing .flowMappingEnd
    else if n == ','.toNat then do
      let r ← r.dropPlace?
      return { r.emit .flowEntry with keyAllowed := true, cursor := c.next }
    else if n == '-'.toNat && spaced then
      if !r.inFlow && !r.keyAllowed then none
      else do
        let r ← (r.indentAt c.column r.tokens.length .blockSequenceStart).dropPlace?
        return { r.emit .blockEntry with keyAllowed := true, cursor := c.next }
    else if n == '?'.toNat && (r.inFlow || spaced) then
      if !r.inFlow && !r.keyAllowed then none
      else do
        let r ← (r.indentAt c.column r.tokens.length .blockMappingStart).dropPlace?
        return { r.emit .key with keyAllowed := !r.inFlow, cursor := c.next }
    else if n == ':'.toNat && (r.inFlow || spaced) then r.colon?
    else if n == '*'.toNat then
      r.keyStart? fun r => (anchorName? c.next).map fun (a, c) => (.alias a, r.goto c)
    else if n == '&'.toNat then
      r.keyStart? fun r => (anchorName? c.next).map fun (a, c) => (.anchor a, r.goto c)
    else if n == '!'.toNat then
      r.keyStart? fun r => (tagName? r.inFlow c).map fun (a, c) => (.tag a, r.goto c)
    else if (n == '|'.toNat || n == '>'.toNat) && !r.inFlow then do
      let r ← r.dropPlace?
      let (content, c) ← block? (n == '|'.toNat) r.indent c.next
      return { r.emit (.scalar false content) with keyAllowed := true, cursor := c }
    else if n == 39 || n == 34 then
      r.keyStart? fun r =>
        (quoted? (n == 34) c.rest.length c.next []).map fun (s, c) => (.scalar false s, r.goto c)
    else if startsPlain r.inFlow c.rest then
      r.keyStart? fun r =>
        (plain? r.inFlow (r.indent + 1) c.rest.length c [] {}).map fun (s, broken, c) =>
          (.scalar true s, { r with cursor := c, keyAllowed := broken })
    else none

/-- One step of the reader: the next token, with the ends of collections before it. -/
def step? (r : Reader) : Option Reader :=
  let r := toToken (r.cursor.rest.length + 1) r
  let r := r.unindent r.cursor.column
  let c := r.cursor
  if c.atEnd then
    -- the end of the text ends the line it is on
    let line := if c.column == 0 then c.line else c.line + 1
    ((r.goto { c with column := 0, line }).boundary?).map (·.emit .streamEnd)
  else if c.column == 0 && c.at? '%' then do
    let r ← r.boundary?
    let (t, c) ← directive? c.next
    return (r.emit t).goto c
  else if c.atBoundary '-' then r.boundary?.map fun r => (r.emit .documentStart).goto (c.advance 3)
  else if c.atBoundary '.' then r.boundary?.map fun r => (r.emit .documentEnd).goto (c.advance 3)
  else r.token?.map overComment

/-- The number of tokens that can be taken when the reader has come to a fault: two tokens are
kept back, and so is all from the first place on where a key may have started. -/
def settled (r : Reader) : Nat :=
  (r.places.filterMap id).foldl (fun n p => min n p.token) (r.tokens.length - 2)

/-- Reads on to the end of the text, or to a fault. -/
def run : (fuel : Nat) → Reader → List Token
  | 0, r => r.tokens.take r.settled
  | fuel + 1, r =>
    if r.tokens.getLast? == some .streamEnd then r.tokens
    else
      match r.step? with
      | some r => run fuel r
      | none => r.tokens.take r.settled

end Reader

/-- The tokens of a text, up to a fault if there is one.  Every step reads a character but for the
last, which reads the end. -/
def tokens (points : List Nat) : List Token :=
  Reader.run (points.length + 2) { cursor := { rest := points } }

end Yaml

end DateDisplay
