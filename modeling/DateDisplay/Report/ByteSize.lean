import DateDisplay.Text

/-!
# Sizes for people

A number of bytes is shown in the largest unit that it reaches, a thousand of one unit making the
next, with one decimal place below ten and none from ten on.  The first rounding, to one place, sends
a half up; the second, to none, sends a half to the even neighbour.
-/

namespace DateDisplay

open Text

namespace ByteSize

/-- The units, each a thousand of the one before. -/
def units : List String := ["B", "kB", "MB", "GB", "TB", "PB", "EB"]

/-- A unit counts as reached by numbers that fall short of it by less than this part in
`10 ^ 18`. -/
def slack : Nat := 4928

/-- The unit number `e` is reached. -/
def reaches (n e : Nat) : Bool :=
  Nat.pow 1000 e * (Nat.pow 10 18 - slack) ≤ n * Nat.pow 10 18

/-- The number of the largest unit that is reached. -/
def unit (n : Nat) : Nat :=
  (List.range units.length).foldl (fun best e => if reaches n e then e else best) 0

/-- The quotient by ten, where a half goes to the even neighbour. -/
def tenthsToEven (t : Nat) : Nat :=
  let q := t / 10
  if t % 10 < 5 then q
  else if t % 10 > 5 then q + 1
  else if q % 2 == 0 then q
  else q + 1

/-- A natural number of bytes. -/
def showNat (n : Nat) : Text :=
  if n < 10 then decimal n ++ lit " B"
  else
    let e := unit n
    let tenths := (20 * n + Nat.pow 1000 e) / (2 * Nat.pow 1000 e)
    let value :=
      if tenths < 100 then decimal (tenths / 10) ++ lit "." ++ decimal (tenths % 10)
      else decimal (tenthsToEven tenths)
    value ++ lit " " ++ lit (units.getD e "")

/-- A number of bytes, as a word of 64 bits without a sign. -/
def display (n : Int) : Text := showNat (n % Nat.pow 2 64).toNat

end ByteSize

end DateDisplay
