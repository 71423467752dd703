import DateDisplay.Text

/-!
# Path tables

The helper lives in one module, and the path by which a file imports it depends on the folder
the file is in.  A path table gives that path: its rules are tried in order, and a rule applies
to every file below a folder of the rule's name.
-/

namespace DateDisplay

open Text

/-- Files below a folder named `segment` import the helper from `path`. -/
structure PathRule where
  segment : Text
  path : Text
  deriving Repr, DecidableEq, Inhabited

/-- The import path of the helper, by the location of the importing file. -/
structure PathTable where
  rules : List PathRule
  /-- the path where no rule applies -/
  fallback : Text
  deriving Repr, DecidableEq

namespace PathTable

/-- The rule applies to a file: a folder on the way to it is the rule's segment, and is not the
first thing in the path. -/
def appliesTo (r : PathRule) (file : Text) : Bool :=
  occurs ('/'.toUInt8 :: r.segment ++ ['/'.toUInt8]) file

/-- The import path to use in a file. -/
def resolve (t : PathTable) (file : Text) : Text :=
  match t.rules.find? (appliesTo · file) with
  | some r => r.path
  | none => t.fallback

/-- The table for a helper module that lives in `src/utils`. -/
def builtin : PathTable where
  rules := [⟨lit "forms", lit "../../utils/dateUtils"⟩, ⟨lit "reports", lit "../../utils/dateUtils"⟩]
  fallback := lit "../utils/dateUtils"

end PathTable

end DateDisplay
