/-!
# Texts

A text is a list of bytes.  File contents, names and messages are all texts, because a file
may hold bytes that are no well-formed UTF-8, and every offset and every size that is reported
counts bytes.

The operations here are the plain ones: does one text occur in another, cut a text at a
separator, take a leading piece off, write a number.
-/

namespace DateDisplay

/-- The bytes of a file, of a name or of a message, well-formed UTF-8 or not. -/
abbrev Text := List UInt8

namespace Text

/-- The bytes of a string. -/
def lit (s : String) : Text := s.toUTF8.data.toList

/-- `b` is a decimal digit. -/
def isDigit (b : UInt8) : Bool := '0'.toUInt8 ≤ b && b ≤ '9'.toUInt8

/-- `b` is an ASCII letter. -/
def isLetter (b : UInt8) : Bool :=
  ('a'.toUInt8 ≤ b && b ≤ 'z'.toUInt8) || ('A'.toUInt8 ≤ b && b ≤ 'Z'.toUInt8)

/-- `b` is an ASCII letter, a digit or an underscore. -/
def isWord (b : UInt8) : Bool := isLetter b || isDigit b || b == '_'.toUInt8

/-- `b` is one of the five blanks of source code: tab, line feed, form feed, carriage return
and space. -/
def isGap (b : UInt8) : Bool := b == 9 || b == 10 || b == 12 || b == 13 || b == 32

/-- `b` is a single or a double quote. -/
def isQuote (b : UInt8) : Bool := b == '\''.toUInt8 || b == '"'.toUInt8

/-! ### Occurrences -/

/-- `p` occurs somewhere in the text. -/
def occurs (p : Text) : Text → Bool
  | [] => p.isEmpty
  | b :: t => p.isPrefixOf (b :: t) || occurs p t

theorem occurs_nil (p : Text) : occurs p [] = p.isEmpty := rfl

theorem occurs_cons (p : Text) (b : UInt8) (t : Text) :
    occurs p (b :: t) = (p.isPrefixOf (b :: t) || occurs p t) := rfl

/-- What follows `p`, if the text starts with `p`. -/
def strip? : Text → Text → Option Text
  | [], s => some s
  | _ :: _, [] => none
  | a :: p, b :: s => if a == b then strip? p s else none

theorem strip?_nil (s : Text) : strip? [] s = some s := by cases s <;> rfl

/-! ### Cutting and joining -/

/-- Cuts a text at every occurrence of `sep`, from left to right, after leaving out the first
`skip` bytes. -/
def splitFrom (sep : Text) : Nat → Text → List Text
  | _, [] => [[]]
  | skip + 1, _ :: t => splitFrom sep skip t
  | 0, b :: t =>
    if sep.isPrefixOf (b :: t) then [] :: splitFrom sep (sep.length - 1) t
    else
      match splitFrom sep 0 t with
      | [] => [[b]]
      | p :: ps => (b :: p) :: ps

/-- The pieces of a text between the occurrences of `sep`.  There is always at least one. -/
def splitOn (sep s : Text) : List Text := splitFrom sep 0 s

/-- The pieces, one after the other, with `sep` between neighbours. -/
def join (sep : Text) : List Text → Text
  | [] => []
  | [p] => p
  | p :: q :: ps => p ++ sep ++ join sep (q :: ps)

@[simp] theorem join_singleton (sep p : Text) : join sep [p] = p := rfl

/-- Takes off the longest tail whose bytes all satisfy `drop`. -/
def trimEnd (drop : UInt8 → Bool) (s : Text) : Text := (s.reverse.dropWhile drop).reverse

/-- Only the first of equal members is kept. -/
def distinct : List Text → List Text
  | [] => []
  | t :: ts => t :: (distinct ts).filter (· != t)

/-! ### Numbers and padding -/

/-- A natural number in decimal. -/
def decimal (n : Nat) : Text := (Nat.toDigits 10 n).map Char.toUInt8

/-- An integer in decimal, with a minus sign if it is negative. -/
def decimalInt : Int → Text
  | .ofNat n => decimal n
  | .negSucc n => '-'.toUInt8 :: decimal (n + 1)

/-- The number that a run of decimal digits writes. -/
def ofDigits (s : Text) : Nat := s.foldl (fun n b => n * 10 + (b.toNat - 48)) 0

/-- `n` spaces. -/
def spaces (n : Nat) : Text := List.replicate n 32

/-- The bytewise order of texts. -/
def lt : Text → Text → Bool
  | _, [] => false
  | [], _ :: _ => true
  | a :: s, b :: t => a < b || (a == b && lt s t)

/-- The texts in bytewise order. -/
def sorted (ts : List Text) : List Text := ts.mergeSort (fun a b => !lt b a)

/-- An ASCII capital in lower case. -/
def lowerByte (b : UInt8) : UInt8 :=
  if 'A'.toUInt8 ≤ b && b ≤ 'Z'.toUInt8 then b + 32 else b

end Text

end DateDisplay
