import DateDisplay.Text

/-!
# Characters of a text

A text is read as UTF-8 one character at a time.  A byte that starts no well-formed character
counts as a character of its own, so that every text, ill-formed or not, is a sequence of
characters, and nothing of it is lost.

Well-formed means: shortest form, no surrogates, at most U+10FFFF.
-/

namespace DateDisplay

namespace Text

/-- A character of a text: a code point, or a byte that belongs to none. -/
inductive Character where
  | point (n : Nat)
  | stray (b : UInt8)
  deriving Repr, DecidableEq

/-- `b` continues a character. -/
def isContinuation (b : UInt8) : Bool := 0x80 ≤ b && b ≤ 0xBF

/-- The bounds that the second byte keeps for a given first byte, so that no character has two
spellings, none is a surrogate and none is too large. -/
def secondOk (a b : UInt8) : Bool :=
  if a == 0xE0 then 0xA0 ≤ b && b ≤ 0xBF
  else if a == 0xED then 0x80 ≤ b && b ≤ 0x9F
  else if a == 0xF0 then 0x90 ≤ b && b ≤ 0xBF
  else if a == 0xF4 then 0x80 ≤ b && b ≤ 0x8F
  else isContinuation b

/-- The low six bits of a byte. -/
def payload (b : UInt8) : Nat := b.toNat % 64

/-- The character at the front of a text and the number of its bytes. -/
def decodeHead : Text → Option (Character × Nat)
  | [] => none
  | a :: t =>
    if a < 0x80 then some (.point a.toNat, 1)
    else if 0xC2 ≤ a && a ≤ 0xDF then
      match t with
      | b :: _ =>
        if isContinuation b then some (.point (a.toNat % 32 * 64 + payload b), 2)
        else some (.stray a, 1)
      | _ => some (.stray a, 1)
    else if 0xE0 ≤ a && a ≤ 0xEF then
      match t with
      | b :: c :: _ =>
        if secondOk a b && isContinuation c then
          some (.point ((a.toNat % 16 * 64 + payload b) * 64 + payload c), 3)
        else some (.stray a, 1)
      | _ => some (.stray a, 1)
    else if 0xF0 ≤ a && a ≤ 0xF4 then
      match t with
      | b :: c :: d :: _ =>
        if secondOk a b && isContinuation c && isContinuation d then
          some (.point (((a.toNat % 8 * 64 + payload b) * 64 + payload c) * 64 + payload d), 4)
        else some (.stray a, 1)
      | _ => some (.stray a, 1)
    else some (.stray a, 1)

/-- The characters of a text after its first `skip` bytes. -/
def charactersFrom : Nat → Text → List Character
  | _, [] => []
  | skip + 1, _ :: t => charactersFrom skip t
  | 0, b :: t =>
    match decodeHead (b :: t) with
    | some (c, n) => c :: charactersFrom (n - 1) t
    | none => []

/-- The characters of a text. -/
def characters (s : Text) : List Character := charactersFrom 0 s

/-- The text is well-formed UTF-8. -/
def isWellFormed (s : Text) : Bool :=
  (characters s).all fun | .point _ => true | .stray _ => false

/-- The bytes of a code point. -/
def encodePoint (n : Nat) : Text :=
  if n < 0x80 then [n.toUInt8]
  else if n < 0x800 then [(0xC0 + n / 64).toUInt8, (0x80 + n % 64).toUInt8]
  else if n < 0x10000 then
    [(0xE0 + n / 4096).toUInt8, (0x80 + n / 64 % 64).toUInt8, (0x80 + n % 64).toUInt8]
  else
    [(0xF0 + n / 262144).toUInt8, (0x80 + n / 4096 % 64).toUInt8,
      (0x80 + n / 64 % 64).toUInt8, (0x80 + n % 64).toUInt8]

/-- The replacement character, U+FFFD, which stands for what cannot be read. -/
def replacement : Text := [0xEF, 0xBF, 0xBD]

/-- The text with the replacement character in the place of each stray byte. -/
def scrub (s : Text) : Text :=
  (characters s).flatMap fun | .point n => encodePoint n | .stray _ => replacement

/-- The number of characters. -/
def size (s : Text) : Nat := (characters s).length

/-- The text with spaces behind it, at least `width` characters wide. -/
def padEnd (width : Nat) (s : Text) : Text := s ++ spaces (width - size s)

/-- The code points of a text, if it is well-formed. -/
def points? (s : Text) : Option (List Nat) :=
  (characters s).mapM fun | .point n => some n | .stray _ => none

/-- The text of a list of code points. -/
def ofPoints (ps : List Nat) : Text := ps.flatMap encodePoint

end Text

end DateDisplay
