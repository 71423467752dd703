import DateDisplay.Diff.Lines
import DateDisplay.FileStore
import DateDisplay.Import.Injection
import DateDisplay.Plan.Expansion
import DateDisplay.Report.Console
import DateDisplay.Substitution

/-!
# Migrations

A migration carries out a plan on the files of a tree.  This module holds the migration and what it
does with one file: it looks whether the file is there, finds its call sites, makes the helper
importable, replaces the call sites, and writes the file unless the migration is dry.

The import is taken care of on the content as it was found: once call sites are replaced the helper's
name occurs in the file, and it would seem to be imported already.
-/

namespace DateDisplay

open Text

/-- Why a migration cannot be set up. -/
inductive SetupFault where
  | noPlan
  | noConsole
  | flawed (f : Flaw)
  deriving Repr, DecidableEq

/-- The fault in words. -/
def SetupFault.message : SetupFault → Text
  | .noPlan => lit "plan is required"
  | .noConsole => lit "logger is required"
  | .flawed f => lit "validating plan: " ++ f.message

/-- A plan that is ready to be carried out. -/
structure Migration where
  plan : Plan
  /-- the helper of the plan -/
  helper : Helper
  /-- the folder that the plan's paths start from -/
  root : Text
  store : FileStore
  console : Console
  /-- where events about the inner working are written from -/
  scope : Scope
  /-- nothing is written -/
  dry : Bool

/-- The outcome for one file. -/
structure FileResult where
  path : Text
  status : FileStatus
  replacements : Nat := 0
  /-- the call sites of the file as it was found -/
  sites : List CallSite := []
  importAction : ImportAction := .none
  /-- the path of the import that was added, empty if none was -/
  importPath : Text := []
  diff : Text := []
  bytes : Nat := 0
  deriving Repr, DecidableEq

namespace FileResult

/-- The record of an outcome. -/
def record (r : FileResult) : FileRecord where
  path := r.path
  status := r.status
  replacements := r.replacements
  importAction := if r.importAction.isChange then lit r.importAction.name else []
  bytes := r.bytes

end FileResult

/-- Why a file cannot be processed. -/
inductive ProcessFault where
  | checking (path : Text) (f : StoreFault)
  | reading (path : Text) (f : StoreFault)
  | writing (path : Text) (f : StoreFault)
  deriving Repr, DecidableEq

/-- The fault in words. -/
def ProcessFault.message : ProcessFault → Text
  | .checking p f => lit "checking " ++ p ++ lit ": " ++ f.message
  | .reading p f => lit "reading " ++ p ++ lit ": " ++ f.message
  | .writing p f => lit "writing " ++ p ++ lit ": " ++ f.message

/-- What comes of processing a file: the tree, what was told, and the outcome. -/
structure Processed where
  tree : FileTree
  told : Told
  outcome : Except ProcessFault FileResult

namespace Migration

/-- The migration for a plan, which has to be there and free of flaws. -/
def new (plan : Option Plan) (root : Text) (dry : Bool) (console : Option Console)
    (sabotage : Sabotage) (scope : Scope) : Except SetupFault Migration :=
  match plan, console with
  | none, _ => .error .noPlan
  | some _, none => .error .noConsole
  | some p, some c =>
    match p.flaw? with
    | some f => .error (.flawed f)
    | none =>
      let root := if root.isEmpty then Path.dot else root
      .ok {
        plan := p
        helper := p.helper.getD {}
        root
        store := { FileStore.below root with sabotage }
        console := c
        scope
        dry }

/-- The substitution that the plan asks for. -/
def substitution (m : Migration) : Substitution := .ofOptions m.plan.locale m.helper.name

/-- The injector of the plan's helper. -/
def injector (m : Migration) : Injector :=
  .ofOptions m.helper.name m.helper.module [] (some m.helper.paths)

/-- The content of a file after the migration. -/
def migrated (m : Migration) (path content : Text) : Substituted :=
  m.substitution.apply (m.injector.ensure content path).content

/-- Events about the inner working. -/
def noted (m : Migration) (events : List Event) : Told where
  events := m.scope.keep events

/-- The event that tells of a call site. -/
def siteEvent (s : CallSite) : Event :=
  ⟨.debug, [("expr", .text s.value.text), ("shape", .text (lit s.value.shape.name)),
    ("offset", .number s.start)], lit "call site"⟩

/-- The events that tell of the call sites of a file. -/
def siteEvents (m : Migration) (path : Text) (sites : List CallSite) : Told :=
  let scope : Scope := { m.scope with fields := m.scope.fields ++ [("file", .text path)] }
  { events := scope.keep (sites.map siteEvent) }

/-- The outcome for a file with call sites, in a dry run if `dry`. -/
def resultOf (m : Migration) (path content : Text) : FileResult :=
  let action := (m.injector.ensure content path).action
  let after := m.migrated path content
  {
    path
    status := if m.dry then .pending else .modified
    replacements := after.count
    sites := m.substitution.scan content
    importAction := action
    importPath := if action == .added then m.helper.paths.resolve path else []
    diff := LineDiff.unified path content after.content
    bytes := if m.dry then 0 else after.content.length }

/-- What is told of a file with call sites once it is done. -/
def reportOf (m : Migration) (r : FileResult) : Told :=
  let module := if r.importAction == .added then m.helper.paths.resolve r.path else m.helper.module
  (if r.importAction.isChange then
    m.console.importLine r.path (lit r.importAction.name) module else {})
    ++ m.console.file r.record

/-- The outcome for a file that nothing is done with. -/
def leave (m : Migration) (t : FileTree) (path : Text) (status : FileStatus) : Processed :=
  let r : FileResult := { path, status }
  ⟨t, m.console.file r.record, .ok r⟩

/-- Processes a file with call sites. -/
def change (m : Migration) (t : FileTree) (path content : Text) : Processed :=
  let found := m.siteEvents path (m.substitution.scan content)
    ++ m.noted [(m.injector.ensure content path).event]
  let r := m.resultOf path content
  if m.dry then ⟨t, found ++ m.reportOf r, .ok r⟩
  else
    let after := (m.migrated path content).content
    match m.store.write t path after with
    | .error f => ⟨t, found, .error (.writing path f)⟩
    | .ok t => ⟨t, found ++ m.noted [FileStore.writtenEvent path after] ++ m.reportOf r, .ok r⟩

/-- Processes the file at a path. -/
def process (m : Migration) (t : FileTree) (path : Text) : Processed :=
  match m.store.contains t path with
  | .error f => ⟨t, {}, .error (.checking path f)⟩
  | .ok false => m.leave t path .missing
  | .ok true =>
    match m.store.read t path with
    | .error f => ⟨t, {}, .error (.reading path f)⟩
    | .ok content =>
      if (m.substitution.scan content).isEmpty then m.leave t path .unchanged
      else m.change t path content

end Migration

end DateDisplay
