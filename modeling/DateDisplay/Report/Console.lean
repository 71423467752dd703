import DateDisplay.Journal
import DateDisplay.Report.Record
import DateDisplay.Text.Utf8

/-!
# The console

The lines that a run shows to the user.  Each of them, but for a blank one, comes with an event in
the journal.
-/

namespace DateDisplay

open Text

/-- How a piece of text is set off. -/
inductive Style where
  | red
  | green
  | yellow
  | blue
  | cyan
  | faint
  /-- bold and cyan -/
  | title
  deriving Repr, DecidableEq

namespace Style

/-- The codes that switch a style on and off. -/
def codes : Style → String × String
  | .red => ("31", "0")
  | .green => ("32", "0")
  | .yellow => ("33", "0")
  | .blue => ("34", "0")
  | .cyan => ("36", "0")
  | .faint => ("2", "22")
  | .title => ("1;36", "22;0")

/-- The control sequence with a code. -/
def sequence (code : String) : Text := 27 :: lit "[" ++ lit code ++ lit "m"

end Style

/-- What was told: to the user, to the journal, and for the summary of the run. -/
@[ext] structure Told where
  shown : Text := []
  events : List Event := []
  /-- what was recorded about files -/
  records : List FileRecord := []
  deriving Repr, DecidableEq

namespace Told

/-- One thing told after another. -/
def append (a b : Told) : Told :=
  ⟨a.shown ++ b.shown, a.events ++ b.events, a.records ++ b.records⟩

instance : Append Told := ⟨append⟩

@[simp] theorem shown_append (a b : Told) : (a ++ b).shown = a.shown ++ b.shown := rfl

@[simp] theorem events_append (a b : Told) : (a ++ b).events = a.events ++ b.events := rfl

@[simp] theorem records_append (a b : Told) : (a ++ b).records = a.records ++ b.records := rfl

end Told

/-- Where lines are shown: with colours or without. -/
structure Console where
  colored : Bool := false
  deriving Repr, DecidableEq

namespace Console

/-- The text in a style. -/
def paint (c : Console) (s : Style) (t : Text) : Text :=
  if c.colored then Style.sequence s.codes.1 ++ t ++ Style.sequence s.codes.2 else t

/-- A message with a symbol before it. -/
def message (c : Console) (symbol : String) (s : Style) (level : Level) (t : Text) : Told where
  shown := lit symbol ++ c.paint s t ++ [10]
  events := [⟨level, [], t⟩]

/-- Tells of something. -/
def info (c : Console) (t : Text) : Told := c.message "ℹ️  " .cyan .info t

/-- Tells of something that may be wrong. -/
def warning (c : Console) (t : Text) : Told := c.message "⚠️  " .yellow .warn t

/-- Tells of a failure. -/
def error (c : Console) (t : Text) : Told := c.message "❌ " .red .error t

/-- Tells of a success. -/
def success (c : Console) (t : Text) : Told := c.message "✅ " .green .info t

/-- The heading of a run. -/
def header (c : Console) (t : Text) : Told where
  shown := [10] ++ c.paint .title (lit "datefix") ++ [32] ++ c.paint .faint (lit "• " ++ t)
    ++ [10, 10]
  events := [⟨.info, [], t⟩]

/-- A blank line. -/
def newline : Told where
  shown := [10]

/-- The symbol of a status. -/
def symbol : FileStatus → Style × String
  | .missing => (.red, "✗")
  | .modified => (.green, "✓")
  | .pending => (.blue, "⟳")
  | _ => (.cyan, "•")

/-- The line of a file, which is recorded with it. -/
def file (c : Console) (r : FileRecord) : Told where
  shown := spaces 4 ++ c.paint (symbol r.status).1 (lit (symbol r.status).2) ++ [32]
    ++ padEnd 52 r.path ++ [32] ++ c.paint .yellow (padEnd 26 r.importShown) ++ [32]
    ++ padEnd 15 r.outcome ++ [10]
  events := [⟨.info, [("file", .text r.path), ("status", .text (lit r.status.name)),
    ("replacements", .number r.replacements), ("import", .text r.importAction),
    ("bytes", .number r.bytes)], lit "file processed"⟩]
  records := [r]

/-- The line that tells what was done about the import in a file. -/
def importLine (c : Console) (path action module : Text) : Told where
  shown := spaces 6 ++ c.paint .faint (lit "↳") ++ [32] ++ action ++ [32]
    ++ c.paint .faint (lit "(" ++ module ++ lit ")") ++ [10]
  events := [⟨.info, [("file", .text path), ("action", .text action), ("module", .text module)],
    lit "import updated"⟩]

end Console

/-- What travels with a command. -/
structure Context where
  console : Option Console := none
  deriving Repr, DecidableEq

namespace Context

/-- The context with a console in it. -/
def withConsole (x : Context) (c : Console) : Context := { x with console := some c }

/-- The console of a context, which has to be there, or the complaint that it is not. -/
def findConsole (x : Context) : Except Text Console :=
  match x.console with
  | some c => .ok c
  | none => .error (lit "logger not found in context")

@[simp] theorem findConsole_withConsole (x : Context) (c : Console) :
    (x.withConsole c).findConsole = .ok c := rfl

end Context

end DateDisplay
