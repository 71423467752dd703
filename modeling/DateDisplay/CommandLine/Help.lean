import DateDisplay.CommandLine.Command

/-!
# Help texts
-/

namespace DateDisplay

open Text

namespace CommandLine

/-- What a command does. -/
def description : Command → String
  | .top => "datefix rewrites new Date(x).toLocaleDateString('pt-BR') call sites into
dbDateToDisplay(x) across a fixed list of source files, and makes sure each
changed file imports the helper from its dateUtils module.

Running datefix without a subcommand is the same as \"datefix fix\"."
  | .fix => "Fix walks the plan's files in order. For every file it will:
1. Skip the file if it does not exist
2. Replace each new Date(x).toLocaleDateString('pt-BR') with dbDateToDisplay(x)
3. Add or extend the dateUtils import when something was replaced
4. Overwrite the file"
  | .check => "Check runs the same pipeline as fix but leaves every file untouched.
The diff of each file that would change is printed after the summary."
  | .version => "Print version information"
  | .help => "Help provides help for any command in the application.
Simply type datefix help [path to command] for full details."

/-- The flags of the whole program, for a list in which `-h` is one of them if `withHelp`. -/
def globalFlagLines (withHelp : Bool) : String :=
  "  -c, --config string   plan file path (.hcl, .yaml, .yml or .json), built-in plan when empty
  -d, --debug           enable debug logging
" ++ (if withHelp then "  -h, --help            help for datefix\n" else "")
    ++ "  -r, --root string     directory the plan paths are relative to (default \".\")\n"

/-- How the program is used. -/
def topUsage (withHelp : Bool) : String :=
  "Usage:
  datefix [flags]
  datefix [command]

Available Commands:
  check       Show what fix would change without writing
  completion  Generate the autocompletion script for the specified shell
  fix         Rewrite date displays in place
  help        Help about any command
  version     Print version information

Flags:
" ++ globalFlagLines withHelp ++ "
Use \"datefix [command] --help\" for more information about a command.
"

/-- The lines for the flags of a command alone. -/
def ownFlagLines : Command → String
  | .check => "  -h, --help    help for check\n  -q, --quiet   do not print diffs\n"
  | c => "  -h, --help   help for " ++ c.name ++ "\n"

/-- What is given to a command. -/
def operands : Command → String
  | .help => " [command] [flags]"
  | _ => " [flags]"

/-- How a command is used. -/
def usage : Command → String
  | .top => topUsage true
  | c => "Usage:\n  " ++ c.path ++ operands c ++ "\n\nFlags:\n" ++ ownFlagLines c
    ++ "\nGlobal Flags:\n" ++ globalFlagLines false

/-- The help for a command. -/
def helpText (c : Command) : Text := lit (description c) ++ lit "\n\n" ++ lit (usage c)

/-- The text can stand between backquotes. -/
def fitsBackquotes (t : Text) : Bool :=
  (characters t).all fun
    | .point n => (n == 9 || n ≥ 32) && n != 0x7F && n != '`'.toNat && n != 0xFEFF
    | .stray _ => false

/-- A topic between backquotes, or between double quotes if it does not fit there. -/
def topic (t : Text) : Text :=
  if fitsBackquotes t then '`'.toUInt8 :: t ++ ['`'.toUInt8] else quoted t

/-- The answer to a request for help on something that is not there. -/
def unknownTopic (topics : List Text) : Text :=
  lit "Unknown help topic [" ++ join [32] (topics.map topic) ++ lit "]\n" ++ lit (topUsage false)

end CommandLine

end DateDisplay
