import DateDisplay.Text.Utf8

/-!
# JSON

`Json.read?` reads the value at the front of a text and leaves alone what comes behind it.  It is
strict about the grammar: no comments, no control characters in strings, no escapes but those of
the standard.  Characters that cannot be, stray bytes and halves of surrogate pairs, become the
replacement character.
-/

namespace DateDisplay

open Text

namespace Json

/-- A JSON value.  A number keeps its spelling, and an object its members in the order in which
they were written, repetitions included. -/
inductive Value where
  | null
  | boolean (b : Bool)
  | number (spelling : Text)
  | string (t : Text)
  | array (elements : List Value)
  | object (members : List (Text × Value))
  deriving Repr, Inhabited

/-- A blank between tokens. -/
def isSpace (b : UInt8) : Bool := b == 32 || b == 9 || b == 10 || b == 13

/-- The text behind its leading blanks. -/
def skip (s : Text) : Text := s.dropWhile isSpace

/-! ### Strings -/

/-- The value of a hexadecimal digit. -/
def hexValue? (b : UInt8) : Option Nat :=
  if isDigit b then some (b.toNat - 48)
  else
    let l := lowerByte b
    if 'a'.toUInt8 ≤ l && l ≤ 'f'.toUInt8 then some (l.toNat - 87) else none

/-- A piece of a string: a character, or one UTF-16 unit given by an escape. -/
inductive Piece where
  | byte (b : UInt8)
  | unit (n : Nat)
  deriving Repr, DecidableEq

/-- The character that a one-letter escape stands for. -/
def escaped? (b : UInt8) : Option UInt8 :=
  if b == '"'.toUInt8 || b == '\\'.toUInt8 || b == '/'.toUInt8 then some b
  else if b == 'b'.toUInt8 then some 8
  else if b == 'f'.toUInt8 then some 12
  else if b == 'n'.toUInt8 then some 10
  else if b == 'r'.toUInt8 then some 13
  else if b == 't'.toUInt8 then some 9
  else none

/-- The pieces of a string behind its opening quote, and the text behind the closing one. -/
def pieces? : Text → Option (List Piece × Text)
  | [] => none
  | 92 :: 117 :: a :: b :: c :: d :: t => do
    let n := (((← hexValue? a) * 16 + (← hexValue? b)) * 16 + (← hexValue? c)) * 16 + (← hexValue? d)
    let (ps, rest) ← pieces? t
    return (.unit n :: ps, rest)
  | 92 :: b :: t => do
    let e ← escaped? b
    let (ps, rest) ← pieces? t
    return (.byte e :: ps, rest)
  | b :: t =>
    if b == 34 then some ([], t)
    else if b < 32 || b == 92 then none
    else do
      let (ps, rest) ← pieces? t
      return (.byte b :: ps, rest)

/-- A UTF-16 unit that is the first half of a pair. -/
def isHigh (n : Nat) : Bool := 0xD800 ≤ n && n < 0xDC00

/-- A UTF-16 unit that is the second half of a pair. -/
def isLow (n : Nat) : Bool := 0xDC00 ≤ n && n < 0xE000

/-- The text of a unit that stands alone, where a half of a pair becomes the replacement
character. -/
def spellUnit (n : Nat) : Text := if isHigh n || isLow n then replacement else encodePoint n

/-- The text that pieces spell.  Two units that form a pair are one character. -/
def spell : List Piece → Text
  | [] => []
  | .byte b :: ps => b :: spell ps
  | .unit n :: .unit m :: ps =>
    if isHigh n && isLow m then
      encodePoint (0x10000 + (n - 0xD800) * 1024 + (m - 0xDC00)) ++ spell ps
    else spellUnit n ++ spell (.unit m :: ps)
  | .unit n :: ps => spellUnit n ++ spell ps

/-- The string behind an opening quote, and the text behind the closing one. -/
def string? (s : Text) : Option (Text × Text) :=
  (pieces? s).map fun (ps, rest) => (scrub (spell ps), rest)

/-! ### Numbers -/

/-- The digits at the front of a text, at least one, and what follows. -/
def digits? (s : Text) : Option (Text × Text) :=
  let ds := s.takeWhile isDigit
  if ds.isEmpty then none else some (ds, s.dropWhile isDigit)

/-- The whole part of a number: a zero, or digits that do not start with one. -/
def whole? (s : Text) : Option (Text × Text) :=
  match s with
  | 48 :: t => some ([48], t)
  | _ => digits? s

/-- The decimal places, if there is a point. -/
def places? (s : Text) : Option (Text × Text) :=
  match s with
  | 46 :: t => (digits? t).map fun (ds, rest) => (46 :: ds, rest)
  | _ => some ([], s)

/-- The exponent, if there is one. -/
def exponent? (s : Text) : Option (Text × Text) :=
  match s with
  | e :: t =>
    if lowerByte e == 'e'.toUInt8 then
      match t with
      | sign :: u =>
        if sign == '+'.toUInt8 || sign == '-'.toUInt8 then
          (digits? u).map fun (ds, rest) => (e :: sign :: ds, rest)
        else (digits? t).map fun (ds, rest) => (e :: ds, rest)
      | [] => none
    else some ([], s)
  | [] => some ([], s)

/-- The number at the front of a text. -/
def number? (s : Text) : Option (Text × Text) := do
  let sign := s.takeWhile (· == 45) |>.take 1
  let s := s.drop sign.length
  let (w, s) ← whole? s
  let (p, s) ← places? s
  let (e, s) ← exponent? s
  return (sign ++ w ++ p ++ e, s)

/-! ### Values -/

mutual

/-- The value at the front of a text, nested at most `fuel` deep. -/
def value? : (fuel : Nat) → Text → Option (Value × Text)
  | 0, _ => none
  | fuel + 1, s =>
    let s := skip s
    match s with
    | [] => none
    | b :: t =>
      if b == 0x7B then
        match skip t with
        | 0x7D :: rest => some (.object [], rest)
        | t => (members? fuel t).map fun (ms, rest) => (.object ms, rest)
      else if b == 0x5B then
        match skip t with
        | 0x5D :: rest => some (.array [], rest)
        | t => (elements? fuel t).map fun (vs, rest) => (.array vs, rest)
      else if b == 34 then (string? t).map fun (u, rest) => (.string u, rest)
      else if b == 45 || isDigit b then
        (number? s).map fun (u, rest) => (.number u, rest)
      else
        match strip? (lit "null") s, strip? (lit "true") s, strip? (lit "false") s with
        | some rest, _, _ => some (.null, rest)
        | _, some rest, _ => some (.boolean true, rest)
        | _, _, some rest => some (.boolean false, rest)
        | _, _, _ => none

/-- The elements of an array, at least one, and the text behind the closing bracket. -/
def elements? : (fuel : Nat) → Text → Option (List Value × Text)
  | 0, _ => none
  | fuel + 1, s => do
    let (v, s) ← value? fuel s
    match skip s with
    | 0x5D :: rest => return ([v], rest)
    | 0x2C :: rest =>
      let (vs, rest) ← elements? fuel rest
      return (v :: vs, rest)
    | _ => none

/-- The members of an object, at least one, and the text behind the closing brace. -/
def members? : (fuel : Nat) → Text → Option (List (Text × Value) × Text)
  | 0, _ => none
  | fuel + 1, s =>
    match skip s with
    | 34 :: t => do
      let (key, s) ← string? t
      match skip s with
      | 58 :: s =>
        let (v, s) ← value? fuel s
        match skip s with
        | 0x7D :: rest => return ([(key, v)], rest)
        | 0x2C :: rest =>
          let (ms, rest) ← members? fuel rest
          return ((key, v) :: ms, rest)
        | _ => none
      | _ => none
    | _ => none

end

/-- The value at the front of a text.  Every byte of the text opens at most one level, and takes
at most two steps, so the bound is never reached. -/
def read? (s : Text) : Option Value := (value? (2 * s.length + 2) s).map (·.1)

end Json

end DateDisplay
