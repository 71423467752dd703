import DateDisplay.Import.Declaration
import DateDisplay.Import.PathTable
import DateDisplay.Import.Placement
import DateDisplay.Journal
import DateDisplay.Path

/-!
# Making the helper importable

An injector sees to it that a file which is about to call the helper imports it.

A file that mentions the helper anywhere is left alone, and so is one that formats no dates.
In any other file the helper joins the first import from its module.  If there is none, a new
statement goes after the imports that are there.
-/

namespace DateDisplay

open Text

/-- What was done about the import in a file. -/
inductive ImportAction where
  /-- the file was not looked at -/
  | none
  /-- the helper's name occurs in the file -/
  | alreadyPresent
  /-- nothing in the file formats dates -/
  | notNeeded
  /-- the helper joined an import that was there -/
  | augmented
  /-- a new import was written -/
  | added
  deriving Repr, DecidableEq

namespace ImportAction

/-- The action in words. -/
def name : ImportAction → String
  | .none => "none"
  | .alreadyPresent => "already present"
  | .notNeeded => "not needed"
  | .augmented => "augmented existing import"
  | .added => "added new import"

/-- The action changed the file. -/
def isChange : ImportAction → Bool
  | .augmented => true
  | .added => true
  | _ => false

end ImportAction

/-- Which helper is imported, from where, and how files that need it are told. -/
structure Injector where
  helper : Text
  /-- how the path of the helper's module ends -/
  module : Text
  /-- what a file that formats dates contains -/
  signature : Text
  paths : PathTable
  deriving Repr, DecidableEq

/-- The outcome of an injection: the file, what was done, and the event that tells of it. -/
structure Injected where
  content : Text
  action : ImportAction
  event : Event
  deriving Repr, DecidableEq

namespace Injector

/-- The helper unless another is asked for. -/
def defaultHelper : Text := lit "dbDateToDisplay"

/-- The helper's module unless another is asked for. -/
def defaultModule : Text := lit "dateUtils"

/-- The mark of a file that formats dates unless another is asked for. -/
def defaultSignature : Text := lit "toLocaleDateString"

/-- The injector for the given options, where an empty or missing one means the default. -/
def ofOptions (helper module signature : Text) (paths : Option PathTable) : Injector where
  helper := if helper.isEmpty then defaultHelper else helper
  module := if module.isEmpty then defaultModule else module
  signature := if signature.isEmpty then defaultSignature else signature
  paths := paths.getD PathTable.builtin

/-- The file with `d` extended by the helper. -/
def augment (i : Injector) (content : Text) (d : Declaration) : Text :=
  content.take d.start ++ (d.withSymbol i.helper).text ++ content.drop d.stop

/-- Makes the helper importable in the file `file`. -/
def ensure (i : Injector) (content file : Text) : Injected :=
  let about (rest : List Field) : List Field := ("file", .text file) :: rest
  if occurs i.helper content then
    { content, action := .alreadyPresent
      event := ⟨.debug, about [("helper", .text i.helper)],
        lit "helper already referenced, skipping import"⟩ }
  else if !occurs i.signature content then
    { content, action := .notNeeded
      event := ⟨.debug, about [("signature", .text i.signature)],
        lit "no date formatting calls, skipping import"⟩ }
  else
    match Declaration.findFrom? content i.module with
    | some d =>
      { content := i.augment content d, action := .augmented
        event := ⟨.info, about [("path", .text d.path)],
          lit "added " ++ i.helper ++ lit " to existing import in " ++ Path.base file⟩ }
    | none =>
      let path := i.paths.resolve file
      { content := Placement.insert content (Declaration.statement i.helper path)
        action := .added
        event := ⟨.info, about [("path", .text path)],
          lit "added new import in " ++ Path.base file⟩ }

end Injector

end DateDisplay
