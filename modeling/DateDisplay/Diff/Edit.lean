import DateDisplay.Text

/-!
# Edit scripts

An edit script turns one text into another: it keeps, deletes and inserts pieces, from left to
right.  `source` is the text a script starts from and `target` the one it ends at.

`tidy` brings a script into order and changes neither.  It gathers neighbouring deletions and
insertions into one of each, takes what both have in common at either end into the kept text
around them, and slides a single edit sideways over kept text where that joins two kept pieces.
-/

namespace DateDisplay

open Text

/-- What an edit does with its text. -/
inductive EditKind where
  | keep
  | delete
  | insert
  deriving Repr, DecidableEq

/-- One step of an edit script. -/
structure Edit where
  kind : EditKind
  text : Text
  deriving Repr, DecidableEq

namespace Edit

/-- Keeps a piece. -/
abbrev keep (t : Text) : Edit := ⟨.keep, t⟩

/-- Deletes a piece. -/
abbrev delete (t : Text) : Edit := ⟨.delete, t⟩

/-- Inserts a piece. -/
abbrev insert (t : Text) : Edit := ⟨.insert, t⟩

/-- The text a script starts from. -/
def source (es : List Edit) : Text :=
  es.flatMap fun e => if e.kind = .insert then [] else e.text

/-- The text a script ends at. -/
def target (es : List Edit) : Text :=
  es.flatMap fun e => if e.kind = .delete then [] else e.text

/-! ### Common ends -/

/-- How many bytes two texts have in common at the front. -/
def commonPrefix : Text → Text → Nat
  | a :: s, b :: t => if a == b then commonPrefix s t + 1 else 0
  | _, _ => 0

/-- How many bytes two texts have in common at the end. -/
def commonSuffix (s t : Text) : Nat := commonPrefix s.reverse t.reverse

/-! ### Gathering -/

/-- Deletions and insertions in a row: how many of each, and their texts one after the other. -/
structure Run where
  deletions : Nat := 0
  insertions : Nat := 0
  deleted : Text := []
  inserted : Text := []
  deriving Repr, DecidableEq

namespace Run

/-- The number of edits in a run. -/
def size (r : Run) : Nat := r.deletions + r.insertions

/-- A run as one deletion and one insertion, as far as it has any. -/
def edits (r : Run) : List Edit :=
  (if r.deletions = 0 then [] else [delete r.deleted])
    ++ (if r.insertions = 0 then [] else [insert r.inserted])

end Run

/-- Puts kept text behind the script `done`, which is in reverse: into its last edit if that
keeps, and else in front of everything. -/
def keepBehind (done : List Edit) (t : Text) : List Edit :=
  match done with
  | ⟨.keep, u⟩ :: rest => keep (u ++ t) :: rest
  | _ => done ++ [keep t]

/-- A run of two edits or more and the kept text `t` after it are put behind `done`, which is in
reverse.  What deleted and inserted text have in common at the front goes into the kept text
before the run, and what they have in common at the end into the kept text after it. -/
def closeRun (done : List Edit) (r : Run) (t : Text) : List Edit :=
  if r.deletions = 0 || r.insertions = 0 then keep t :: r.edits.reverse ++ done
  else
    let p := commonPrefix r.inserted r.deleted
    let done := if p = 0 then done else keepBehind done (r.inserted.take p)
    let inserted := r.inserted.drop p
    let deleted := r.deleted.drop p
    let s := commonSuffix inserted deleted
    keep (inserted.drop (inserted.length - s) ++ t)
      :: insert (inserted.take (inserted.length - s))
      :: delete (deleted.take (deleted.length - s)) :: done

/-- Gathers the edits that follow the script `done`, which is in reverse, and the run `r`. -/
def gatherFrom (done : List Edit) (r : Run) : List Edit → List Edit
  | [] => r.edits.reverse ++ done
  | ⟨.insert, t⟩ :: es =>
    gatherFrom done
      { r with insertions := r.insertions + 1, inserted := r.inserted ++ t } es
  | ⟨.delete, t⟩ :: es =>
    gatherFrom done { r with deletions := r.deletions + 1, deleted := r.deleted ++ t } es
  | ⟨.keep, t⟩ :: es =>
    if 1 < r.size then gatherFrom (closeRun done r t) {} es
    else if r.size = 0 then
      match done with
      | ⟨.keep, u⟩ :: rest => gatherFrom (keep (u ++ t) :: rest) {} es
      | _ => gatherFrom (keep t :: done) {} es
    else gatherFrom (keep t :: r.edits.reverse ++ done) {} es

/-- One gathering pass.  An empty last edit is dropped. -/
def gather (es : List Edit) : List Edit :=
  match gatherFrom [] {} (es ++ [keep []]) with
  | e :: rest => if e.text.isEmpty then rest.reverse else (e :: rest).reverse
  | [] => []

/-! ### Sliding -/

/-- One sliding pass over the edits after `last`, and whether anything slid. -/
def slideFrom (last : Edit) : List Edit → List Edit × Bool
  | e :: next :: es =>
    if last.kind = .keep && next.kind = .keep then
      if last.text.isSuffixOf e.text then
        -- over the kept text before it
        let e' : Edit :=
          ⟨e.kind, last.text ++ e.text.take (e.text.length - last.text.length)⟩
        (e' :: (slideFrom (keep (last.text ++ next.text)) es).1, true)
      else if next.text.isPrefixOf e.text then
        -- over the kept text behind it
        let e' : Edit := ⟨e.kind, e.text.drop next.text.length ++ next.text⟩
        (keep (last.text ++ next.text) :: (slideFrom e' es).1, true)
      else
        let (rest, slid) := slideFrom e (next :: es)
        (last :: rest, slid)
    else
      let (rest, slid) := slideFrom e (next :: es)
      (last :: rest, slid)
  | es => (last :: es, false)

/-- One sliding pass, and whether anything slid. -/
def slide : List Edit → List Edit × Bool
  | [] => ([], false)
  | e :: es => slideFrom e es

/-- Gathers and slides until nothing slides any more, at most `rounds` times. -/
def tidyRounds : Nat → List Edit → List Edit
  | 0, es => es
  | rounds + 1, es =>
    let (es, slid) := slide (gather es)
    if slid then tidyRounds rounds es else es

/-- The script in order.  Every round that slides joins two kept pieces, so twice as many rounds
as there are edits are more than enough. -/
def tidy (es : List Edit) : List Edit := tidyRounds (2 * es.length + 2) es

end Edit

end DateDisplay
