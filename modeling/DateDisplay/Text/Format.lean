import DateDisplay.Text

/-!
# Message templates

A template is a text with places for arguments: `%s` for a text, `%d` for a number, `%v` for either,
and `%%` for a percent sign.  What does not fit is shown in the message itself: an argument of the
wrong kind, one that is missing, and those that are left over.
-/

namespace DateDisplay

namespace Text

/-- An argument of a template. -/
inductive Argument where
  | text (t : Text)
  | number (n : Int)
  deriving Repr, DecidableEq

namespace Argument

/-- The argument as it is shown. -/
def shown : Argument → Text
  | .text t => t
  | .number n => decimalInt n

/-- The kind of an argument, and the argument. -/
def described : Argument → Text
  | .text t => lit "string=" ++ t
  | .number n => lit "int=" ++ decimalInt n

/-- The argument fits a place with the given letter. -/
def fits (verb : UInt8) : Argument → Bool
  | .text _ => verb == 's'.toUInt8 || verb == 'v'.toUInt8
  | .number _ => verb == 'd'.toUInt8 || verb == 'v'.toUInt8

end Argument

/-- The arguments that were left over. -/
def leftOver (args : List Argument) : Text :=
  if args.isEmpty then []
  else lit "%!(EXTRA " ++ join (lit ", ") (args.map (·.described)) ++ lit ")"

/-- The template with the arguments in their places. -/
def format : (template : Text) → List Argument → Text
  | [], args => leftOver args
  | b :: t, args =>
    if b != '%'.toUInt8 then b :: format t args
    else
      match t with
      | [] => lit "%!(NOVERB)" ++ leftOver args
      | verb :: rest =>
        if verb == '%'.toUInt8 then verb :: format rest args
        else
          match args with
          | [] => lit "%!" ++ [verb] ++ lit "(MISSING)" ++ format rest []
          | a :: args =>
            (if a.fits verb then a.shown else lit "%!" ++ [verb] ++ lit "(" ++ a.described ++ lit ")")
              ++ format rest args

/-! ### Templates that fit their arguments -/

theorem format_append {s : Text} (hs : '%'.toUInt8 ∉ s) (t : Text) (args : List Argument) :
    format (s ++ t) args = s ++ format t args := by
  induction s with
  | nil => rfl
  | cons b s ih =>
    rw [List.mem_cons, not_or] at hs
    rw [List.cons_append, format.eq_def]
    dsimp only
    rw [if_pos (by simpa using Ne.symm hs.1), ih hs.2, List.cons_append]

theorem format_of_notMem {s : Text} (hs : '%'.toUInt8 ∉ s) : format s [] = s := by
  have h := format_append hs [] []
  rwa [List.append_nil, show format [] [] = [] from rfl, List.append_nil] at h

theorem format_number (n : Int) (t : Text) (args : List Argument) :
    format (lit "%d" ++ t) (.number n :: args) = decimalInt n ++ format t args := rfl

end Text

end DateDisplay
