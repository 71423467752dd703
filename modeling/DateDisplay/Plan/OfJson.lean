import DateDisplay.Json
import DateDisplay.Plan

/-!
# Plans in JSON

A plan is one object.  Its keys may be written in any case; a key that means nothing is refused.
A key may come more than once: a later text takes the place of an earlier one, and a later helper
or list is read over the earlier one, so that `null` in it leaves what was there.
-/

namespace DateDisplay

open Text

namespace Plan

/-- The text with the letters of a key in lower case.  The long s and the Kelvin sign count as
the letters they fold to. -/
def foldKey : Text → Text
  | 0xC5 :: 0xBF :: t => 's'.toUInt8 :: foldKey t
  | 0xE2 :: 0x84 :: 0xAA :: t => 'k'.toUInt8 :: foldKey t
  | b :: t => lowerByte b :: foldKey t
  | [] => []

/-- Reads a text over `old`. -/
def readText? (old : Text) : Json.Value → Option Text
  | .null => some old
  | .string t => some t
  | _ => none

/-- A list under construction: its members, and those of an earlier and longer reading, which come
back when a later reading reaches them. -/
structure Slots (α : Type) where
  members : List α
  spare : List α

/-- Reads each element over the member in its place, or over `blank` where there is none. -/
def readMembers? {α : Type} (read? : α → Json.Value → Option α) (blank : α) :
    List α → List Json.Value → Option (List α)
  | _, [] => some []
  | [], v :: vs => do return (← read? blank v) :: (← readMembers? read? blank [] vs)
  | a :: as, v :: vs => do return (← read? a v) :: (← readMembers? read? blank as vs)

/-- Reads a list over an earlier one. -/
def readList? {α : Type} (read? : α → Json.Value → Option α) (blank : α) (old : Option (Slots α)) :
    Json.Value → Option (Option (Slots α))
  | .null => some none
  | .array [] => some (some ⟨[], []⟩)
  | .array vs => do
    let before := match old with
      | some s => s.members ++ s.spare
      | none => []
    let now ← readMembers? read? blank before vs
    return some ⟨now, before.drop now.length⟩
  | _ => none

/-- Reads one member of a path rule. -/
def readRuleMember? (r : PathRule) (m : Text × Json.Value) : Option PathRule :=
  let key := foldKey m.1
  if key == lit "segment" then (readText? r.segment m.2).map ({ r with segment := · })
  else if key == lit "path" then (readText? r.path m.2).map ({ r with path := · })
  else none

/-- Reads a path rule over `old`. -/
def readRule? (old : PathRule) : Json.Value → Option PathRule
  | .null => some old
  | .object ms => ms.foldlM readRuleMember? old
  | _ => none

/-- A helper under construction. -/
structure HelperDraft where
  helper : Helper := {}
  rules : Option (Slots PathRule) := none

/-- The helper as it stands. -/
def HelperDraft.finish (d : HelperDraft) : Helper :=
  { d.helper with pathRules := d.rules.map (·.members) }

/-- Reads one member of a helper. -/
def readHelperMember? (d : HelperDraft) (m : Text × Json.Value) : Option HelperDraft :=
  let key := foldKey m.1
  if key == lit "name" then
    (readText? d.helper.name m.2).map fun t => { d with helper := { d.helper with name := t } }
  else if key == lit "module" then
    (readText? d.helper.module m.2).map fun t => { d with helper := { d.helper with module := t } }
  else if key == lit "default_path" then
    (readText? d.helper.defaultPath m.2).map fun t =>
      { d with helper := { d.helper with defaultPath := t } }
  else if key == lit "path_rules" then
    (readList? readRule? ⟨[], []⟩ d.rules m.2).map ({ d with rules := · })
  else none

/-- Reads a helper over an earlier one. -/
def readHelper? (old : Option HelperDraft) : Json.Value → Option (Option HelperDraft)
  | .null => some none
  | .object ms => (ms.foldlM readHelperMember? (old.getD {})).map some
  | _ => none

/-- A plan under construction. -/
structure Draft where
  locale : Text := []
  helper : Option HelperDraft := none
  files : Option (Slots Text) := none

/-- The plan as it stands. -/
def Draft.finish (d : Draft) : Plan where
  locale := d.locale
  helper := d.helper.map (·.finish)
  files := d.files.map (·.members)

/-- Reads one member of a plan. -/
def readMember? (d : Draft) (m : Text × Json.Value) : Option Draft :=
  let key := foldKey m.1
  if key == lit "locale" then (readText? d.locale m.2).map ({ d with locale := · })
  else if key == lit "helper" then (readHelper? d.helper m.2).map ({ d with helper := · })
  else if key == lit "files" then (readList? readText? [] d.files m.2).map ({ d with files := · })
  else none

/-- The plan that a JSON text holds. -/
def ofJson? (s : Text) : Option Plan :=
  match Json.read? s with
  | some .null => some {}
  | some (.object ms) => (ms.foldlM readMember? {}).map (·.finish)
  | _ => none

end Plan

end DateDisplay
