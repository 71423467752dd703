import DateDisplay.Text.Blank

/-!
# Formats of plan files

Plans are written in one of three formats, and the name of a file tells which.  The ending of a
JSON file may be in any case and may have white space behind it.
-/

namespace DateDisplay

open Text

/-- The formats in which a plan can be written. -/
inductive PlanFormat where
  | hcl
  | json
  | yaml
  deriving Repr, DecidableEq

namespace PlanFormat

/-- The text ends with `ending`. -/
def endsWith (s : Text) (ending : String) : Bool := (lit ending).isSuffixOf s

/-- The format of a file, by its name. -/
def ofName? (name : Text) : Option PlanFormat :=
  if endsWith name ".hcl" then some .hcl
  else if endsWith ((trimBlank name).map lowerByte) ".json" then some .json
  else if endsWith name ".yaml" || endsWith name ".yml" then some .yaml
  else none

end PlanFormat

end DateDisplay
