import DateDisplay.Text

/-!
# Values of HCL expressions

A number is a decimal fraction, kept exactly.  Numbers and truth values can stand for texts: a
number reads as its shortest decimal spelling without an exponent.
-/

namespace DateDisplay

open Text

namespace Hcl

/-- The number `(-1) ^ negative * digits * 10 ^ exponent`. -/
structure Decimal where
  negative : Bool := false
  digits : Nat
  exponent : Int := 0
  deriving Repr, DecidableEq

namespace Decimal

/-- Divides by ten as often as it comes out even, at most `places` times.  The answer has the
places that are left. -/
def reduce : (places : Nat) → Nat → Nat × Nat
  | 0, m => (m, 0)
  | p + 1, m => if m % 10 == 0 then reduce p (m / 10) else (m, p + 1)

/-- The digits and the number of places behind the point, in lowest terms. -/
def lowest (d : Decimal) : Nat × Nat :=
  match d.exponent with
  | .ofNat e => (d.digits * Nat.pow 10 e, 0)
  | .negSucc e => reduce (e + 1) d.digits

/-- The shortest decimal spelling. -/
def spelling (d : Decimal) : Text :=
  let (m, places) := d.lowest
  let body :=
    if places == 0 then decimal m
    else
      let fraction := decimal (m % Nat.pow 10 places)
      decimal (m / Nat.pow 10 places) ++ lit "."
        ++ List.replicate (places - fraction.length) 48 ++ fraction
  if d.negative then '-'.toUInt8 :: body else body

/-- The number, if it is a natural one. -/
def toNat? (d : Decimal) : Option Nat :=
  let (m, places) := d.lowest
  if places == 0 && (!d.negative || m == 0) then some m else none

end Decimal

/-- A value. -/
inductive Value where
  | null
  | boolean (b : Bool)
  | number (d : Decimal)
  | string (t : Text)
  | list (elements : List Value)
  | object (members : List (Text × Value))
  deriving Repr, Inhabited

namespace Value

/-- The text that a value stands for. -/
def text? : Value → Option Text
  | .boolean true => some (lit "true")
  | .boolean false => some (lit "false")
  | .number d => some d.spelling
  | .string t => some t
  | _ => none

/-- The natural number that a value stands for, as an index. -/
def index? : Value → Option Nat
  | .number d => d.toNat?
  | .string t => if !t.isEmpty && t.all isDigit then some (ofDigits t) else none
  | _ => none

/-- The member of an object, the latest if the name was given more than once. -/
def member? (v : Value) (name : Text) : Option Value :=
  match v with
  | .object ms => (ms.reverse.find? (·.1 == name)).map (·.2)
  | _ => none

/-- The element of a list or the member of an object at `key`. -/
def at? (v key : Value) : Option Value :=
  match v with
  | .list es => key.index?.bind (es[·]?)
  | .object _ => key.text?.bind v.member?
  | _ => none

/-- The value as a list: a list is itself, null is empty, and all else stands alone. -/
def elements : Value → List Value
  | .list es => es
  | .null => []
  | v => [v]

end Value

end Hcl

end DateDisplay
