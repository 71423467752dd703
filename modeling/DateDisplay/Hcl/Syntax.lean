import DateDisplay.Hcl.Template
import DateDisplay.Json
import DateDisplay.Text.Letter

/-!
# The syntax of HCL

A file is a list of attributes, `name = expression`, and blocks, which have a kind, labels and a
body in braces.  Each stands on a line of its own; a block with a single attribute may be written
on one line.  Line breaks mean nothing inside parentheses and brackets.

`Block.read?` reads a whole file.  It fails on any fault of syntax, an attribute that is given twice
included.
-/

namespace DateDisplay

open Text

namespace Hcl

/-- The content of a file or of a block in it.  A file has no kind and no labels. -/
inductive Block where
  | mk (kind : Text) (labels : List Text) (attributes : List (Text × Expression))
    (blocks : List Block)
  deriving Repr, Inhabited

/-! ### Blanks, comments and names -/

/-- The text behind the end of a comment. -/
def afterComment? : Text → Option Text
  | [] => none
  | 42 :: 47 :: t => some t
  | _ :: t => afterComment? t

/-- The text behind the end of the line. -/
def afterLine (s : Text) : Text := (s.dropWhile (· != 10)).drop 1

/-- The text behind a line break, or behind a comment that ends the line. -/
def afterBreak? : Text → Option Text
  | 10 :: t => some t
  | 13 :: 10 :: t => some t
  | 35 :: t => some (afterLine t)
  | 47 :: 47 :: t => some (afterLine t)
  | _ => none

/-- The text behind spaces, tabs and comments, and behind line breaks too if `lines`. -/
def skipFrom (lines : Bool) : (fuel : Nat) → Text → Text
  | 0, s => s
  | fuel + 1, s =>
    match s with
    | 32 :: t => skipFrom lines fuel t
    | 9 :: t => skipFrom lines fuel t
    | 47 :: 42 :: t =>
      match afterComment? t with
      | some rest => skipFrom lines fuel rest
      | none => s
    | _ =>
      if lines then
        match afterBreak? s with
        | some rest => skipFrom lines fuel rest
        | none => s
      else s

/-- The text at the next thing that means something. -/
def skip (lines : Bool) (s : Text) : Text := skipFrom lines s.length s

/-- The line ends here. -/
def atLineEnd (s : Text) : Bool := s.isEmpty || (afterBreak? s).isSome

/-- The rest of a name. -/
def nameRest : (fuel : Nat) → Text → Text × Text
  | 0, s => ([], s)
  | fuel + 1, s =>
    match decodeHead s with
    | some (.point p, n) =>
      if continuesWord p || p == '-'.toNat then
        let (name, rest) := nameRest fuel (s.drop n)
        (s.take n ++ name, rest)
      else ([], s)
    | _ => ([], s)

/-- The name at the front of a text.  A name may have hyphens in it. -/
def name? (s : Text) : Option (Text × Text) :=
  match decodeHead s with
  | some (.point p, n) =>
    if startsWord p then
      let (name, rest) := nameRest s.length (s.drop n)
      some (s.take n ++ name, rest)
    else none
  | _ => none

/-! ### Numbers and escapes -/

/-- The digits at the front of a text. -/
def digits (s : Text) : Text × Text := (s.takeWhile isDigit, s.dropWhile isDigit)

/-- The decimal places at the front of a text, none if there is no point with digits behind it. -/
def places (s : Text) : Text × Text :=
  match s with
  | 46 :: t => if (t.head?.map isDigit).getD false then digits t else ([], s)
  | _ => ([], s)

/-- The exponent at the front of a text, zero if there is none. -/
def exponent (s : Text) : Int × Text :=
  match s with
  | e :: t =>
    if lowerByte e != 'e'.toUInt8 then (0, s)
    else
      let sign := t.take 1
      let u := if sign == lit "+" || sign == lit "-" then t.drop 1 else t
      let (ds, rest) := digits u
      if ds.isEmpty then (0, s)
      else (if sign == lit "-" then -(ofDigits ds : Int) else ofDigits ds, rest)
  | [] => (0, s)

/-- The number at the front of a text that starts with a digit. -/
def number (s : Text) : Decimal × Text :=
  let (whole, s) := digits s
  let (fraction, s) := places s
  let (e, s) := exponent s
  (⟨false, ofDigits (whole ++ fraction), e - fraction.length⟩, s)

/-- The number that hexadecimal digits write. -/
def hexNumber? (ds : Text) : Option Nat :=
  ds.foldlM (fun v d => (Json.hexValue? d).map (v * 16 + ·)) 0

/-- The text that an escape stands for, behind its backslash, and the text that follows. -/
def escape? : Text → Option (Text × Text)
  | [] => none
  | b :: t =>
    let code (len : Nat) : Option (Text × Text) := do
      if t.length < len then none
      else
        let p ← hexNumber? (t.take len)
        let valid := p < 0x110000 && !(0xD800 ≤ p && p < 0xE000)
        return (if valid then encodePoint p else replacement, t.drop len)
    if b == 'n'.toUInt8 then some ([10], t)
    else if b == 'r'.toUInt8 then some ([13], t)
    else if b == 't'.toUInt8 then some ([9], t)
    else if b == 34 || b == 92 then some ([b], t)
    else if b == 'u'.toUInt8 then code 4
    else if b == 'U'.toUInt8 then code 8
    else none

/-- A text part, left out if it is empty. -/
def textPart (t : Text) : List Part := if t.isEmpty then [] else [.text t]

/-- The text behind one of two openings: of a hole, or of a hole that is meant as text. -/
inductive Opening where
  /-- a hole starts -/
  | hole (rest : Text)
  /-- a hole's opening stands here as text -/
  | quoted (t rest : Text)
  /-- control sequences of templates are not read -/
  | control
  | none

/-- The opening at the front of a text. -/
def opening (s : Text) : Opening :=
  match s with
  | 36 :: 36 :: 0x7B :: t => .quoted [36, 0x7B] t
  | 37 :: 37 :: 0x7B :: t => .quoted [37, 0x7B] t
  | 36 :: 0x7B :: t => .hole t
  | 37 :: 0x7B :: _ => .control
  | _ => .none

/-- The mark that ends a block of lines, whether the lines lose their indentation, and the text
from the first line on.  The text starts behind the two angle brackets. -/
def linesMark? (s : Text) : Option (Bool × Text × Text) := do
  let outdented := s.head? == some 45
  let (mark, s) ← name? (if outdented then s.drop 1 else s)
  match s with
  | 10 :: t => return (outdented, mark, t)
  | 13 :: 10 :: t => return (outdented, mark, t)
  | _ => none

/-- A single byte is taken off the front, if it is `b`. -/
def take? (b : UInt8) : Text → Option Text
  | [] => none
  | c :: t => if c == b then some t else none

/-! ### Expressions -/

mutual

/-- Reads an expression.  Line breaks mean nothing in it if `lines`. -/
def expression? (lines : Bool) : (fuel : Nat) → Text → Option (Expression × Text)
  | 0, _ => none
  | fuel + 1, s => do
    let (e, s) ← term? lines fuel (skip lines s)
    access? lines fuel e s

/-- Reads what is taken of an expression: members and elements. -/
def access? (lines : Bool) : (fuel : Nat) → Expression → Text → Option (Expression × Text)
  | 0, _, _ => none
  | fuel + 1, e, s =>
    match skip lines s with
    | 46 :: 46 :: _ => some (e, s)
    | 46 :: t =>
      let t := skip lines t
      match name? t with
      | some (name, t) => access? lines fuel (.member e name) t
      | none =>
        match t with
        | 42 :: t => do
          let (names, t) := members lines fuel t
          access? lines fuel (.splat e names) t
        | _ =>
          let (ds, t) := digits t
          if ds.isEmpty then none
          else access? lines fuel (.index e (.literal (.number { digits := ofDigits ds }))) t
    | 0x5B :: t =>
      match skip true t with
      | 42 :: u => do
        let t ← take? 0x5D (skip true u)
        let (names, t) := members lines fuel t
        access? lines fuel (.splat e names) t
      | t => do
        let (k, t) ← expression? true fuel t
        let t ← take? 0x5D (skip true t)
        access? lines fuel (.index e k) t
    | _ => some (e, s)

/-- Reads the members that are taken of each element. -/
def members (lines : Bool) : (fuel : Nat) → Text → List Text × Text
  | 0, s => ([], s)
  | fuel + 1, s =>
    match skip lines s with
    | 46 :: t =>
      match name? (skip lines t) with
      | some (name, t) =>
        let (names, t) := members lines fuel t
        (name :: names, t)
      | none => ([], s)
    | _ => ([], s)

/-- Reads an expression of which nothing is taken yet. -/
def term? (lines : Bool) : (fuel : Nat) → Text → Option (Expression × Text)
  | 0, _ => none
  | fuel + 1, s =>
    match s with
    | [] => none
    | 40 :: t => do
      let (e, t) ← expression? true fuel t
      let t ← take? 41 (skip true t)
      return (e, t)
    | 34 :: t => do
      let (ps, t) ← quoted? fuel [] t
      return (Part.assemble ps, t)
    | 60 :: 60 :: t => do
      let (outdented, mark, t) ← linesMark? t
      let (ps, t) ← lines? mark fuel true [] t
      return (Part.assembleLines outdented ps, t)
    | 0x5B :: t => do
      let (es, t) ← list? 0x5D fuel t
      return (.tuple es, t)
    | 0x7B :: t => do
      let (ks, vs, t) ← entries? fuel t
      return (.object ks vs, t)
    | 45 :: t => (expression? lines fuel t).map fun (e, t) => (.negative e, t)
    | 33 :: t => (expression? lines fuel t).map fun (e, t) => (.negation e, t)
    | b :: _ =>
      if isDigit b then
        let (d, t) := number s
        some (.literal (.number d), t)
      else do
        let (name, t) ← name? s
        match skip lines t with
        | 40 :: u =>
          let (es, u) ← list? 41 fuel u
          return (.call name es, u)
        | _ =>
          if name == lit "true" then return (.literal (.boolean true), t)
          else if name == lit "false" then return (.literal (.boolean false), t)
          else if name == lit "null" then return (.literal .null, t)
          else return (.variable name, t)

/-- Reads expressions with commas between them, up to and with the closing byte. -/
def list? (close : UInt8) : (fuel : Nat) → Text → Option (List Expression × Text)
  | 0, _ => none
  | fuel + 1, s =>
    let s := skip true s
    match take? close s with
    | some t => some ([], t)
    | none => do
      let (e, s) ← expression? true fuel s
      let s := skip true s
      match take? 44 s with
      | some t =>
        let (es, t) ← list? close fuel t
        return (e :: es, t)
      | none =>
        let s := if close == 41 then (strip? (lit "...") s).getD s else s
        let t ← take? close (skip true s)
        return ([e], t)

/-- Reads the entries of an object, up to and with the closing brace. -/
def entries? : (fuel : Nat) → Text → Option (List Expression × List Expression × Text)
  | 0, _ => none
  | fuel + 1, s =>
    let s := skip false s
    match afterBreak? s, take? 0x7D s with
    | some t, _ => entries? fuel t
    | none, some t => some ([], [], t)
    | none, none => do
      let (k, s) ← key? fuel s
      let s := skip false s
      let s ← (take? 61 s) <|> (take? 58 s)
      let (v, s) ← expression? false fuel s
      let s := skip false s
      match take? 0x7D s with
      | some t => return ([k], [v], t)
      | none =>
        let s ← (take? 44 s) <|> (afterBreak? s)
        let (ks, vs, t) ← entries? fuel s
        return (k :: ks, v :: vs, t)

/-- Reads the key of an entry, which may be a bare name. -/
def key? : (fuel : Nat) → Text → Option (Expression × Text)
  | 0, _ => none
  | fuel + 1, s =>
    match name? s with
    | some (name, t) =>
      let u := skip false t
      if (take? 61 u).isSome || (take? 58 u).isSome then some (.literal (.string name), t)
      else expression? false fuel s
    | none => expression? false fuel s

/-- Reads a hole behind its opening. -/
def hole? : (fuel : Nat) → Text → Option (Part × Text)
  | 0, _ => none
  | fuel + 1, s => do
    let before := s.head? == some 126
    let (e, s) ← expression? true fuel (if before then s.drop 1 else s)
    let s := skip true s
    let after := s.head? == some 126
    let t ← take? 0x7D (if after then s.drop 1 else s)
    return (.hole before e after, t)

/-- Reads the parts of a quoted template, up to and with the closing quote.  `read` is the text
since the last part. -/
def quoted? : (fuel : Nat) → (read : Text) → Text → Option (List Part × Text)
  | 0, _, _ => none
  | fuel + 1, read, s =>
    match opening s with
    | .quoted t rest => quoted? fuel (read ++ t) rest
    | .control => none
    | .hole rest => do
      let (h, t) ← hole? fuel rest
      let (ps, t) ← quoted? fuel [] t
      return (textPart read ++ h :: ps, t)
    | .none =>
      match s with
      | 34 :: t => some (textPart read, t)
      | 92 :: t => do
        let (u, t) ← escape? t
        quoted? fuel (read ++ u) t
      | _ =>
        match decodeHead s with
        | some (.point p, n) =>
          if p == 10 || p == 13 then none else quoted? fuel (read ++ s.take n) (s.drop n)
        | _ => none

/-- Reads the parts of a template written in lines, up to and with the mark that ends it.
`fresh` says that a line starts. -/
def lines? (mark : Text) :
    (fuel : Nat) → (fresh : Bool) → (read : Text) → Text → Option (List Part × Text)
  | 0, _, _, _ => none
  | fuel + 1, fresh, read, s =>
    let line := s.takeWhile (· != 10)
    if fresh && line.length < s.length && trimBlank line == mark then
      some ([], s.drop line.length)
    else
      match opening s with
      | .quoted t rest => lines? mark fuel false (read ++ t) rest
      | .control => none
      | .hole rest => do
        let (h, t) ← hole? fuel rest
        let (ps, t) ← lines? mark fuel false [] t
        return (textPart read ++ h :: ps, t)
      | .none =>
        match decodeHead s with
        | some (.point p, n) =>
          let read := read ++ s.take n
          if p == 10 then do
            let (ps, t) ← lines? mark fuel true [] (s.drop n)
            return (.text read :: ps, t)
          else lines? mark fuel false read (s.drop n)
        | _ => none

end

/-! ### Bodies -/

/-- The label at the front of a text that starts with a quote: a template without holes. -/
def label? (fuel : Nat) (s : Text) : Option (Text × Text) := do
  match ← quoted? fuel [] s with
  | ([], t) => return ([], t)
  | ([.text u], t) => return (u, t)
  | _ => none

/-- The labels of a block, and the text behind its opening brace. -/
def labels? : (fuel : Nat) → Text → Option (List Text × Text)
  | 0, _ => none
  | fuel + 1, s =>
    match skip false s with
    | 0x7B :: t => some ([], t)
    | 34 :: t => do
      let (l, t) ← label? fuel t
      let (ls, t) ← labels? fuel t
      return (l :: ls, t)
    | s => do
      let (l, t) ← name? s
      let (ls, t) ← labels? fuel t
      return (l :: ls, t)

/-- What a body holds. -/
structure Items where
  attributes : List (Text × Expression) := []
  blocks : List Block := []

/-- The attribute in a block on one line, and the text behind the closing brace. -/
def single? (fuel : Nat) (s : Text) : Option (Items × Text) := do
  let (name, s) ← name? s
  let s ← take? 61 (skip false s)
  let (e, s) ← expression? false fuel s
  let t ← take? 0x7D (skip false s)
  return ({ attributes := [(name, e)] }, t)

/-- Reads a body: a nested one up to and with its closing brace, else to the end of the text. -/
def body? : (fuel : Nat) → (nested : Bool) → Items → Text → Option (Items × Text)
  | 0, _, _, _ => none
  | fuel + 1, nested, items, s =>
    let s := skip false s
    match afterBreak? s, s with
    | some t, _ => body? fuel nested items t
    | none, [] => if nested then none else some (items, [])
    | none, 0x7D :: t => if nested then some (items, t) else none
    | none, _ => do
      let (name, s) ← name? s
      let s := skip false s
      match take? 61 s with
      | some t =>
        let (e, t) ← expression? false fuel t
        let t := skip false t
        if !atLineEnd t || items.attributes.any (·.1 == name) then none
        else body? fuel nested { items with attributes := items.attributes ++ [(name, e)] } t
      | none =>
        let (labels, t) ← labels? fuel s
        let t := skip false t
        let (inner, t) ←
          if atLineEnd t || t.head? == some 0x7D then body? fuel true {} t else single? fuel t
        let t := skip false t
        if !atLineEnd t then none
        else
          let block := Block.mk name labels inner.attributes inner.blocks
          body? fuel nested { items with blocks := items.blocks ++ [block] } t

/-- Reads a whole file.  Every step reads a character or goes one of a few levels down, so the
bound is never reached. -/
def Block.read? (s : Text) : Option Block := do
  let s := (strip? [0xEF, 0xBB, 0xBF] s).getD s
  let (items, _) ← body? (4 * s.length + 8) false {} s
  return .mk [] [] items.attributes items.blocks

end Hcl

end DateDisplay
