import DateDisplay.Diff.Edit
import DateDisplay.Diff.Snake

/-!
# From two texts to an edit script

What two texts have in common at the front and at the end is kept.  What is left in the middle
is either plain (one text is empty, or occurs in the other, or is a single byte), or is cut in
two: at a long piece that both have in common if there is one, and else in the middle of a
shortest edit path.  The two halves are then treated alike.

A program that makes such scripts may give up the search for a path after a second, and then take
all of one text out and put all of the other in.  This limit is not modelled: here the search goes
on to its end.
-/

namespace DateDisplay

open Text

namespace Edit

/-- The first place, counted from `offset`, where `p` occurs. -/
def placeFrom? (p : Text) (offset : Nat) : Text → Option Nat
  | [] => if p.isEmpty then some offset else none
  | b :: t => if p.isPrefixOf (b :: t) then some offset else placeFrom? p (offset + 1) t

/-- The first place where `p` occurs. -/
def place? (p s : Text) : Option Nat := placeFrom? p 0 s

/-! ### A long common piece -/

/-- Two texts that have a piece in common: what is before and behind it in each. -/
structure Overlap where
  longBefore : Text
  longBehind : Text
  shortBefore : Text
  shortBehind : Text
  common : Text
  deriving Repr

/-- The longest common piece that grows from an occurrence of `seed` in the shorter text, where
`seed` stands at place `i` of the longer one.  The first of equally long ones wins. -/
def growSeed (long short seed : Text) (i : Nat) : Nat → List Text → Option Overlap → Option Overlap
  | _, [], best => best
  | j, rest :: more, best =>
    if seed.isPrefixOf rest then
      let p := commonPrefix (long.drop i) rest
      let s := commonSuffix (long.take i) (short.take j)
      let size := (best.map (·.common.length)).getD 0
      if size < s + p then
        growSeed long short seed i (j + 1) more
          (some ⟨long.take (i - s), long.drop (i + p), short.take (j - s), short.drop (j + p),
            (short.drop (j - s)).take (s + p)⟩)
      else growSeed long short seed i (j + 1) more best
    else growSeed long short seed i (j + 1) more best

/-- A text and everything that is left of it after one byte, two bytes and so on. -/
def tails : Text → List Text
  | [] => [[]]
  | b :: t => (b :: t) :: tails t

/-- A common piece, at least half as long as the longer text, around the quarter of the longer
text that starts at place `i`. -/
def overlapAt? (long short : Text) (i : Nat) : Option Overlap :=
  match growSeed long short ((long.drop i).take (long.length / 4)) i 0 (tails short) none with
  | some o => if long.length ≤ 2 * o.common.length then some o else none
  | none => none

/-- A common piece, at least half as long as the longer text. -/
def overlap? (long short : Text) : Option Overlap :=
  if long.length < 4 || 2 * short.length < long.length then none
  else
    match overlapAt? long short ((long.length + 3) / 4),
        overlapAt? long short ((long.length + 1) / 2) with
    | none, second => second
    | some first, none => some first
    | some first, some second =>
      if second.common.length < first.common.length then some first else some second

/-! ### The script -/

/-- The script between two texts that differ at the front and at the end.  `halves` gives the
script between smaller texts. -/
def middle (halves : Text → Text → List Edit) (a b : Text) : List Edit :=
  if a.isEmpty then [insert b]
  else if b.isEmpty then [delete a]
  else
    let aLonger := b.length < a.length
    let long := if aLonger then a else b
    let short := if aLonger then b else a
    let kind : EditKind := if aLonger then .delete else .insert
    match place? short long with
    | some i => [⟨kind, long.take i⟩, keep short, ⟨kind, long.drop (i + short.length)⟩]
    | none =>
      if short.length = 1 then [delete a, insert b]
      else
        match overlap? long short with
        | some o =>
          if aLonger then
            halves o.longBefore o.shortBefore ++ keep o.common
              :: halves o.longBehind o.shortBehind
          else
            halves o.shortBefore o.longBefore ++ keep o.common
              :: halves o.shortBehind o.longBehind
        | none =>
          match Snake.cut? a b with
          | some (x, y) => halves (a.take x) (b.take y) ++ halves (a.drop x) (b.drop y)
          | none => [delete a, insert b]

/-- The script from `a` to `b`, cut in two at most `depth` times in a row. -/
def scriptTo (depth : Nat) (a b : Text) : List Edit :=
  match depth with
  | 0 => [delete a, insert b]
  | depth + 1 =>
    if a == b then (if a.isEmpty then [] else [keep a])
    else
      let p := commonPrefix a b
      let a' := a.drop p
      let b' := b.drop p
      let s := commonSuffix a' b'
      let core := middle (scriptTo depth) (a'.take (a'.length - s)) (b'.take (b'.length - s))
      tidy ((if p = 0 then [] else [keep (a.take p)]) ++ core
        ++ (if s = 0 then [] else [keep (a'.drop (a'.length - s))]))

/-- The script from `a` to `b`.  Every cut leaves less of the two texts. -/
def script (a b : Text) : List Edit := scriptTo (a.length + b.length + 1) a b

end Edit

end DateDisplay
