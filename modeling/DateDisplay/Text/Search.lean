import DateDisplay.Text

/-!
# Leftmost search

A recogniser looks at the front of a text and says what it has found there and how many bytes
that takes.  `occurrences` runs a recogniser over a whole text from left to right: where it
finds something the search goes on behind it, everywhere else one byte further.  `replace`
does the same walk and writes something else in the place of what is found.

Both walks go byte by byte and carry the number of bytes that still belong to the last
finding, so that they recurse on the text itself.
-/

namespace DateDisplay

namespace Text

/-- Something found in a text: where it starts, the bytes it takes, and what it is. -/
structure Occurrence (α : Type) where
  start : Nat
  text : Text
  value : α
  deriving Repr, DecidableEq

/-- The offset behind an occurrence. -/
def Occurrence.stop {α : Type} (o : Occurrence α) : Nat := o.start + o.text.length

/-- The occurrences in a text that begins at `offset`, after the first `skip` bytes. -/
def occurrencesFrom {α : Type} (find : Text → Option (α × Nat)) :
    (offset skip : Nat) → Text → List (Occurrence α)
  | _, _, [] => []
  | offset, skip + 1, _ :: t => occurrencesFrom find (offset + 1) skip t
  | offset, 0, b :: t =>
    match find (b :: t) with
    | some (a, n) =>
      ⟨offset, (b :: t).take n, a⟩ :: occurrencesFrom find (offset + 1) (n - 1) t
    | none => occurrencesFrom find (offset + 1) 0 t

/-- All that `find` recognises in a text, leftmost first, no two of them overlapping. -/
def occurrences {α : Type} (find : Text → Option (α × Nat)) (s : Text) :
    List (Occurrence α) :=
  occurrencesFrom find 0 0 s

/-- `replace` after the first `skip` bytes, which are left out. -/
def replaceFrom {α : Type} (find : Text → Option (α × Nat)) (write : α → Text) :
    (skip : Nat) → Text → Text
  | _, [] => []
  | skip + 1, _ :: t => replaceFrom find write skip t
  | 0, b :: t =>
    match find (b :: t) with
    | some (a, n) => write a ++ replaceFrom find write (n - 1) t
    | none => b :: replaceFrom find write 0 t

/-- The text with `write a` in the place of every occurrence of an `a`. -/
def replace {α : Type} (find : Text → Option (α × Nat)) (write : α → Text) (s : Text) : Text :=
  replaceFrom find write 0 s

/-! ### One step of the walks -/

@[simp] theorem occurrencesFrom_nil {α : Type} (find : Text → Option (α × Nat))
    (offset skip : Nat) : occurrencesFrom find offset skip [] = [] := by
  cases skip <;> rfl

@[simp] theorem occurrencesFrom_succ {α : Type} (find : Text → Option (α × Nat))
    (offset skip : Nat) (b : UInt8) (t : Text) :
    occurrencesFrom find offset (skip + 1) (b :: t)
      = occurrencesFrom find (offset + 1) skip t := rfl

@[simp] theorem replaceFrom_nil {α : Type} (find : Text → Option (α × Nat)) (write : α → Text)
    (skip : Nat) : replaceFrom find write skip [] = [] := by
  cases skip <;> rfl

@[simp] theorem replaceFrom_succ {α : Type} (find : Text → Option (α × Nat))
    (write : α → Text) (skip : Nat) (b : UInt8) (t : Text) :
    replaceFrom find write (skip + 1) (b :: t) = replaceFrom find write skip t := rfl

end Text

end DateDisplay
