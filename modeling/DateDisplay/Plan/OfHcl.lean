import DateDisplay.Hcl.Syntax
import DateDisplay.Plan

/-!
# Plans in HCL

A plan has the attributes `locale` and `files` and at most one block `helper`, which has the
attributes `name`, `module` and `default_path` and any number of blocks `path_rule`, and these have
both a `segment` and a `path`.  Nothing else is accepted.  The one variable is `default_files`, the
files of the built-in plan.

A file that cannot be read is told apart from one that does not say a plan.
-/

namespace DateDisplay

open Text

namespace Plan

open Hcl

/-- What can be wrong with a plan in HCL. -/
inductive HclFault where
  /-- the file is not written as HCL -/
  | syntaxError
  /-- what is written is no plan -/
  | content
  deriving Repr, DecidableEq

/-- The values of variables. -/
def hclVariable (name : Text) : Option Value :=
  if name == lit "default_files" then some (.list (builtinFiles.map .string)) else none

/-- The value of an attribute. -/
def hclValue? (e : Expression) : Option Value := e.value? hclVariable

/-- The names are all among `known`. -/
def onlyKnown (known : List String) (names : List Text) : Bool :=
  names.all fun n => known.any (lit · == n)

/-- The text of an attribute, empty if it is not given. -/
def hclText? (attributes : List (Text × Expression)) (name : String) : Option Text :=
  match attributes.find? (·.1 == lit name) with
  | none => some []
  | some (_, e) => (hclValue? e).bind Value.text?

/-- The attribute is given. -/
def isGiven (attributes : List (Text × Expression)) (name : String) : Bool :=
  attributes.any (·.1 == lit name)

/-- The file list of an attribute: null is no list, and no member may be null. -/
def hclFiles? (attributes : List (Text × Expression)) : Option (Option (List Text)) :=
  match attributes.find? (·.1 == lit "files") with
  | none => some none
  | some (_, e) => do
    match ← hclValue? e with
    | .null => return none
    | .list vs => return some (← vs.mapM Value.text?)
    | _ => none

/-- Reads a path rule. -/
def hclRule? : Block → Option PathRule
  | .mk kind labels attributes blocks => do
    let names := attributes.map (·.1)
    if kind != lit "path_rule" || !labels.isEmpty || !blocks.isEmpty
        || !onlyKnown ["segment", "path"] names
        || !isGiven attributes "segment" || !isGiven attributes "path" then none
    else return ⟨← hclText? attributes "segment", ← hclText? attributes "path"⟩

/-- Reads a helper. -/
def hclHelper? : Block → Option Helper
  | .mk kind labels attributes blocks => do
    if kind != lit "helper" || !labels.isEmpty
        || !onlyKnown ["name", "module", "default_path"] (attributes.map (·.1)) then none
    else
      let rules ← blocks.mapM hclRule?
      return {
        name := ← hclText? attributes "name"
        module := ← hclText? attributes "module"
        defaultPath := ← hclText? attributes "default_path"
        pathRules := if rules.isEmpty then none else some rules }

/-- Reads a plan. -/
def hclPlan? : Block → Option Plan
  | .mk _ _ attributes blocks => do
    if !onlyKnown ["locale", "files"] (attributes.map (·.1)) || blocks.length > 1 then none
    else
      let helpers ← blocks.mapM hclHelper?
      return {
        locale := ← hclText? attributes "locale"
        helper := helpers.head?
        files := ← hclFiles? attributes }

/-- The plan that an HCL text holds. -/
def ofHcl (s : Text) : Except HclFault Plan :=
  match Block.read? s with
  | none => .error .syntaxError
  | some b =>
    match hclPlan? b with
    | none => .error .content
    | some p => .ok p

end Plan

end DateDisplay
