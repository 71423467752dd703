import DateDisplay.Text.Printable
import DateDisplay.Text.Utf8

/-!
# Quoted texts

Messages show a text that may hold anything between quotes.  Printable characters stand for
themselves; the quote and the backslash take a backslash; all else becomes an escape, by letter
if it has one, else by its code.  A stray byte is shown by its value.
-/

namespace DateDisplay

namespace Text

/-- The last `digits` hexadecimal digits of a number. -/
def hex : (digits : Nat) → Nat → Text
  | 0, _ => []
  | d + 1, n => hex d (n / 16) ++ [(Nat.digitChar (n % 16)).toUInt8]

/-- The letter that escapes a control character, if it has one. -/
def escapeLetter (n : Nat) : Option UInt8 :=
  match n with
  | 7 => some 'a'.toUInt8
  | 8 => some 'b'.toUInt8
  | 9 => some 't'.toUInt8
  | 10 => some 'n'.toUInt8
  | 11 => some 'v'.toUInt8
  | 12 => some 'f'.toUInt8
  | 13 => some 'r'.toUInt8
  | _ => none

/-- A character as it is shown between quotes `q`. -/
def quotedCharacter (q : UInt8) : Character → Text
  | .stray b => lit "\\x" ++ hex 2 b.toNat
  | .point n =>
    if n == q.toNat || n == 92 then [92, n.toUInt8]
    else if isPrintable n then encodePoint n
    else
      match escapeLetter n with
      | some l => [92, l]
      | none =>
        if n < 0x80 then lit "\\x" ++ hex 2 n
        else if n < 0x10000 then lit "\\u" ++ hex 4 n
        else lit "\\U" ++ hex 8 n

/-- The text between quotes `q`. -/
def quotedBy (q : UInt8) (s : Text) : Text :=
  q :: (characters s).flatMap (quotedCharacter q) ++ [q]

/-- The text between double quotes. -/
def quoted (s : Text) : Text := quotedBy '"'.toUInt8 s

end Text

end DateDisplay
