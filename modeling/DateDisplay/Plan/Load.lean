import DateDisplay.FileTree
import DateDisplay.Journal
import DateDisplay.Plan.Format
import DateDisplay.Plan.OfHcl
import DateDisplay.Plan.OfJson
import DateDisplay.Plan.OfYaml

/-!
# Loading plans

A plan is loaded from a file in one of three formats, which its name tells.  What the file leaves out
comes from the built-in plan, and the outcome has to be free of flaws.  Without a file the plan is
the built-in one.
-/

namespace DateDisplay

open Text

namespace Plan

/-- Why a text is no plan. -/
inductive ParseFault where
  | hcl (f : HclFault)
  | json
  | yaml
  deriving Repr, DecidableEq

/-- The fault in words. -/
def ParseFault.message : ParseFault → Text
  | .hcl .syntaxError => lit "parsing HCL: the file cannot be read"
  | .hcl .content => lit "decoding HCL: the file holds no plan"
  | .json => lit "parsing JSON: the file holds no plan"
  | .yaml => lit "parsing YAML: the file holds no plan"

/-- The plan that a text holds, as it is written. -/
def parse (format : PlanFormat) (s : Text) : Except ParseFault Plan :=
  match format with
  | .hcl =>
    match ofHcl s with
    | .ok p => .ok p
    | .error f => .error (.hcl f)
  | .json =>
    match ofJson? s with
    | some p => .ok p
    | none => .error .json
  | .yaml =>
    match ofYaml? s with
    | some p => .ok p
    | none => .error .yaml

/-- Why a plan cannot be loaded. -/
inductive LoadFault where
  | unreadable (f : FileTree.CallFault)
  | noFormat (path : Text)
  | unparsed (f : ParseFault)
  | flawed (f : Flaw)
  deriving Repr, DecidableEq

/-- The fault in words. -/
def LoadFault.message : LoadFault → Text
  | .unreadable f => lit "reading plan file: " ++ f.message
  | .noFormat path => lit "no parser found for file: " ++ path
  | .unparsed f => lit "parsing plan: " ++ f.message
  | .flawed f => lit "validating plan: " ++ f.message

/-- The plan in the file at `path`, complete and free of flaws. -/
def loadFile (t : FileTree) (path : Text) : Except LoadFault Plan :=
  match t.read path with
  | .error f => .error (.unreadable f)
  | .ok data =>
    match PlanFormat.ofName? path with
    | none => .error (.noFormat path)
    | some format =>
      match parse format data with
      | .error f => .error (.unparsed f)
      | .ok p =>
        let p := { p with location := path }.withDefaults
        match p.flaw? with
        | some f => .error (.flawed f)
        | none => .ok p

/-- The plan to use, and the event that tells which. -/
def load (t : FileTree) (path : Text) : Event × Except LoadFault Plan :=
  if path.isEmpty then (⟨.debug, [], lit "no plan file, using built-in plan"⟩, .ok builtin)
  else (⟨.debug, [("path", .text path)], lit "loading plan"⟩, loadFile t path)

end Plan

end DateDisplay
