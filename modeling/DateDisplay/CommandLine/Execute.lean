import DateDisplay.CommandLine.Help
import DateDisplay.CommandLine.Version
import DateDisplay.Migration.Run
import DateDisplay.Plan.Load

/-!
# Running a command line

`execute` finds the command, reads its flags, and carries it out on a tree.  A command line that is
not understood is refused before any plan is loaded, and help and version information need no plan.
The console comes with the context, and is asked for once the plan is there.
-/

namespace DateDisplay

open Text

namespace CommandLine

/-- Why a command fails. -/
inductive CommandFault where
  | usage (f : UsageFault)
  | loading (f : Plan.LoadFault)
  /-- there is no console -/
  | context (message : Text)
  | setup (f : SetupFault)
  | fixing (f : RunFault)
  | checking (f : RunFault)
  deriving Repr, DecidableEq

/-- The fault in words. -/
def CommandFault.message : CommandFault → Text
  | .usage f => f.message
  | .loading f => lit "loading config: " ++ f.message
  | .context m => m
  | .setup f => lit "creating migrator: " ++ f.message
  | .fixing f => lit "fixing files: " ++ f.message
  | .checking f => lit "checking files: " ++ f.message

/-- What comes of a command line. -/
structure Finished where
  tree : FileTree
  told : Told := {}
  /-- what is shown beside the output proper -/
  aside : Text := []
  fault : Option CommandFault := none

/-- The diffs of a dry run, each behind a blank line. -/
def diffs (s : RunSummary) : Told :=
  { shown := s.files.flatMap fun r =>
      if r.diff.isEmpty then [] else Console.newline.shown ++ r.diff }

/-- Carries out a plan, for the command `check` if `dry` and else for `fix`. -/
def migrate (c : Console) (t : FileTree) (plan : Plan) (o : Options) (dry : Bool) : Finished :=
  let command := if dry then Command.check else Command.fix
  let scope : Scope :=
    ⟨[("command", .text (lit command.name))], if o.debug then .debug else .info⟩
  match Migration.new (some plan) o.root dry (some c) {} scope with
  | .error f => { tree := t, fault := some (.setup f) }
  | .ok m =>
    let r := m.run t [] none
    match r.fault, r.summary with
    | some f, _ =>
      { tree := r.tree, told := r.told, fault := some (if dry then .checking f else .fixing f) }
    | none, some s =>
      { tree := r.tree, told := if dry && !o.quiet then r.told ++ diffs s else r.told }
    | none, none => { tree := r.tree, told := r.told }

/-- Loads the plan and carries it out. -/
def loadAndMigrate (x : Context) (t : FileTree) (o : Options) (dry : Bool) : Finished :=
  let scope : Scope := ⟨[], if o.debug then .debug else .info⟩
  let (event, loaded) := Plan.load t o.config
  let told : Told := { events := scope.keep [event] }
  match loaded with
  | .error f => { tree := t, told, fault := some (.loading f) }
  | .ok plan =>
    match x.findConsole with
    | .error m => { tree := t, told, fault := some (.context m) }
    | .ok c =>
      let r := migrate c t plan o dry
      { r with told := told ++ r.told }

/-- The help on a topic. -/
def helpOn (t : FileTree) (topics : List Text) : Finished :=
  match find topics with
  | .ok (c, _) => { tree := t, told := { shown := helpText c } }
  | .error _ => { tree := t, aside := unknownTopic topics }

/-- Carries out a command whose flags are read. -/
def perform (x : Context) (info : BuildInfo) (t : FileTree) (command : Command) (o : Options)
    (rest : List Text) : Finished :=
  if o.help then { tree := t, told := { shown := helpText command } }
  else
    match command, rest with
    | .help, _ => helpOn t rest
    | .top, _ => loadAndMigrate x t o false
    | _, w :: _ => { tree := t, fault := some (.usage (.unknownCommand w command.path [])) }
    | .fix, [] => loadAndMigrate x t o false
    | .check, [] => loadAndMigrate x t o true
    | .version, [] => { tree := t, told := { shown := info.render } }

/-- Carries out a command line. -/
def execute (x : Context) (info : BuildInfo) (t : FileTree) (args : List Text) : Finished :=
  match find args with
  | .error f => { tree := t, fault := some (.usage f) }
  | .ok (command, args) =>
    match readArguments command.flags args with
    | .error f => { tree := t, fault := some (.usage f) }
    | .ok (o, rest) => perform x info t command o rest

/-- The program: the command line is carried out with a console, which shows the failure too, if
there is one. -/
def program (c : Console) (info : BuildInfo) (t : FileTree) (args : List Text) : Finished :=
  let f := execute (({} : Context).withConsole c) info t args
  match f.fault with
  | some e => { f with told := f.told ++ c.error (format (lit "%v") [.text e.message]) }
  | none => f

end CommandLine

end DateDisplay
