import DateDisplay.Json
import DateDisplay.Yaml.Cursor

/-!
# YAML scalars

The four ways to write a scalar that are read here: plain, in single or double quotes, and as a
block.  In the first three a line break between words is folded: a single one reads as a space,
and of several all but the first remain.

Every reader takes a bound on its steps, which is the number of characters left.
-/

namespace DateDisplay

namespace Yaml

/-! ### Gaps between words -/

/-- The blanks and line breaks between two words of a scalar. -/
structure Gap where
  /-- blanks before the first line break -/
  blanks : List Nat := []
  /-- the first line break -/
  first : List Nat := []
  /-- the line breaks behind the first -/
  more : List Nat := []
  /-- there is a line break -/
  broken : Bool := false

/-- What a gap reads as. -/
def Gap.text (g : Gap) : List Nat :=
  if !g.broken then g.blanks
  else if g.first == [10] then if g.more.isEmpty then [32] else g.more
  else g.first ++ g.more

/-- Reads a gap.  Behind a line break a tab is refused in the columns before `indent`. -/
def gap? (indent : Int) : (fuel : Nat) → Cursor → Gap → Option (Gap × Cursor)
  | 0, c, g => some (g, c)
  | fuel + 1, c, g =>
    match c.head? with
    | none => some (g, c)
    | some n =>
      if isBlank n then
        if g.broken then
          if n == 9 && (c.column : Int) < indent then none else gap? indent fuel c.next g
        else gap? indent fuel c.next { g with blanks := g.blanks ++ [n] }
      else if isBreak n then
        let (b, c) := c.lineBreak
        if g.broken then gap? indent fuel c { g with more := g.more ++ b }
        else gap? indent fuel c { g with blanks := [], first := b, broken := true }
      else some (g, c)

/-! ### Plain scalars -/

/-- A character that ends a plain scalar inside brackets. -/
def endsFlowPlain (n : Nat) : Bool :=
  n == ','.toNat || n == '?'.toNat || n == '['.toNat || n == ']'.toNat || n == 0x7B || n == 0x7D

/-- The word at the front of a text that is written plainly. -/
def plainWord (flow : Bool) : List Nat → List Nat
  | [] => []
  | n :: t =>
    if isBlank n || isBreak n then []
    else if (n == ':'.toNat && startsGapOrEnd t) || (flow && endsFlowPlain n) then []
    else n :: plainWord flow t

/-- Reads a plain scalar, whose lines stand at column `indent` or behind it unless it is inside
brackets.  The flag of the answer says that the last gap had a line break in it. -/
def plain? (flow : Bool) (indent : Int) :
    (fuel : Nat) → Cursor → (read : List Nat) → Gap → Option (List Nat × Bool × Cursor)
  | 0, c, read, g => some (read, g.broken, c)
  | fuel + 1, c, read, g =>
    if c.atAnyBoundary || c.at? '#' then some (read, g.broken, c)
    else
      let word := plainWord flow c.rest
      if word.isEmpty then some (read, g.broken, c)
      else
        let read := read ++ g.text ++ word
        let c := c.advance word.length
        if c.atEnd || !startsGapOrEnd c.rest then some (read, false, c)
        else
          match gap? indent c.rest.length c {} with
          | none => none
          | some (g, c) =>
            if !flow && (c.column : Int) < indent then some (read, g.broken, c)
            else plain? flow indent fuel c read g

/-! ### Quoted scalars -/

/-- The code point that a one-letter escape stands for. -/
def escaped? (n : Nat) : Option Nat :=
  match Char.ofNat n with
  | '0' => some 0
  | 'a' => some 7
  | 'b' => some 8
  | 't' => some 9
  | '\t' => some 9
  | 'n' => some 10
  | 'v' => some 11
  | 'f' => some 12
  | 'r' => some 13
  | 'e' => some 27
  | ' ' => some 32
  | '"' => some 34
  | '\'' => some 39
  | '\\' => some 92
  | 'N' => some 0x85
  | '_' => some 0xA0
  | 'L' => some 0x2028
  | 'P' => some 0x2029
  | _ => none

/-- The number of hexadecimal digits behind the letter of an escape by code. -/
def codeLength? (n : Nat) : Option Nat :=
  match Char.ofNat n with
  | 'x' => some 2
  | 'u' => some 4
  | 'U' => some 8
  | _ => none

/-- The number that hexadecimal digits write. -/
def hexNumber? (ds : List Nat) : Option Nat :=
  ds.foldlM (fun v d => if d < 128 then (Json.hexValue? d.toUInt8).map (v * 16 + ·) else none) 0

/-- The code point that an escape stands for, and the number of characters it takes, without the
backslash. -/
def escape? : List Nat → Option (Nat × Nat)
  | [] => none
  | n :: t =>
    match escaped? n with
    | some p => some (p, 1)
    | none => do
      let len ← codeLength? n
      if t.length < len then none
      else
        let p ← hexNumber? (t.take len)
        if (0xD800 ≤ p && p ≤ 0xDFFF) || p > 0x10FFFF then none else return (p, len + 1)

/-- Reads a word inside quotes.  The flag of the answer says that an escaped line break ended
it. -/
def quotedWord? (double : Bool) :
    (fuel : Nat) → Cursor → (read : List Nat) → Option (List Nat × Bool × Cursor)
  | 0, c, read => some (read, false, c)
  | fuel + 1, c, read =>
    match c.rest with
    | [] => some (read, false, c)
    | n :: t =>
      if isBlank n || isBreak n then some (read, false, c)
      else if !double && n == 39 then
        if t.head? == some 39 then quotedWord? double fuel (c.advance 2) (read ++ [39])
        else some (read, false, c)
      else if double && n == 34 then some (read, false, c)
      else if double && n == 92 then
        if !t.isEmpty && startsBreakOrEnd t then some (read, true, c.next.lineBreak.2)
        else
          match escape? t with
          | none => none
          | some (p, len) => quotedWord? double fuel (c.advance (len + 1)) (read ++ [p])
      else quotedWord? double fuel c.next (read ++ [n])

/-- Reads a quoted scalar behind its opening quote, up to and with the closing one. -/
def quoted? (double : Bool) :
    (fuel : Nat) → Cursor → (read : List Nat) → Option (List Nat × Cursor)
  | 0, _, _ => none
  | fuel + 1, c, read =>
    if c.atAnyBoundary || c.atEnd then none
    else
      match quotedWord? double c.rest.length c read with
      | none => none
      | some (read, broken, c) =>
        if c.at? (if double then '"' else '\'') then some (read, c.next)
        else
          match gap? 0 c.rest.length c { broken } with
          | none => none
          | some (g, c) => quoted? double fuel c (read ++ g.text)

/-! ### Block scalars -/

/-- What happens to the line breaks at the end of a block. -/
inductive Chomping where
  | strip
  | clip
  | keep
  deriving Repr, DecidableEq

/-- The marks behind the indicator of a block: a sign for the chomping, a digit for the
indentation, in either order. -/
def blockHeader? (c : Cursor) : Option (Chomping × Nat × Cursor) :=
  let sign? (c : Cursor) : Option Chomping :=
    if c.at? '+' then some .keep else if c.at? '-' then some .strip else none
  let digit? (c : Cursor) : Option Nat :=
    match c.head? with
    | some n => if 48 ≤ n && n ≤ 57 then some (n - 48) else none
    | none => none
  match sign? c with
  | some ch =>
    match digit? c.next with
    | some 0 => none
    | some d => some (ch, d, c.next.next)
    | none => some (ch, 0, c.next)
  | none =>
    match digit? c with
    | some 0 => none
    | some d =>
      match sign? c.next with
      | some ch => some (ch, d, c.next.next)
      | none => some (.clip, d, c.next)
    | none => some (.clip, 0, c)

/-- Reads the empty lines before a line of a block.  `indent` is zero while the indentation is not
known; the answer has the deepest column that was seen. -/
def emptyLines? (indent : Nat) :
    (fuel : Nat) → Cursor → (deepest : Nat) → (breaks : List Nat) →
      Option (List Nat × Nat × Cursor)
  | 0, c, deepest, breaks => some (breaks, deepest, c)
  | fuel + 1, c, deepest, breaks =>
    match c.head? with
    | none => some (breaks, max deepest c.column, c)
    | some n =>
      let inside := indent == 0 || c.column < indent
      if inside && n == 32 then emptyLines? indent fuel c.next deepest breaks
      else if inside && n == 9 then none
      else
        let deepest := max deepest c.column
        if isBreak n then
          let (b, c) := c.lineBreak
          emptyLines? indent fuel c deepest (breaks ++ b)
        else some (breaks, deepest, c)

/-- The lines of a block that have been read. -/
structure BlockLines where
  read : List Nat := []
  /-- the line break of the last line -/
  last : List Nat := []
  /-- the empty lines behind it -/
  empty : List Nat := []
  /-- the last line starts with a blank -/
  blankStart : Bool := false

/-- Reads the lines of a block that stand at column `indent`. -/
def blockLines? (literal : Bool) (indent : Nat) :
    (fuel : Nat) → Cursor → BlockLines → Option (BlockLines × Cursor)
  | 0, c, b => some (b, c)
  | fuel + 1, c, b =>
    if c.column != indent || c.atEnd then some (b, c)
    else
      let blank := match c.head? with
        | some n => isBlank n
        | none => false
      let joint :=
        if !literal && !b.blankStart && !blank && b.last == [10] then
          if b.empty.isEmpty then [32] else []
        else b.last
      let line := c.rest.takeWhile fun n => !isBreak n
      let read := b.read ++ joint ++ b.empty ++ line
      let (last, c) := (c.advance line.length).lineBreak
      match emptyLines? indent c.rest.length c 0 [] with
      | none => none
      | some (empty, _, c) => blockLines? literal indent fuel c ⟨read, last, empty, blank⟩

/-- Reads a block scalar behind its indicator, in a collection indented by `parent`. -/
def block? (literal : Bool) (parent : Int) (c : Cursor) : Option (List Nat × Cursor) := do
  let (chomping, step, c) ← blockHeader? c
  let c := c.skipWhile isBlank
  let c := if c.at? '#' then c.toBreak else c
  if !startsBreakOrEnd c.rest then none
  else
    let c := c.lineBreak.2
    let given := if step == 0 then 0 else (max parent 0).toNat + step
    let (empty, deepest, c) ← emptyLines? given c.rest.length c 0 []
    let indent := if given == 0 then max (max deepest (parent + 1).toNat) 1 else given
    let (b, c) ← blockLines? literal indent (c.rest.length + 1) c { empty }
    let tail := match chomping with
      | .strip => []
      | .clip => b.last
      | .keep => b.last ++ b.empty
    return (b.read ++ tail, c)

end Yaml

end DateDisplay
