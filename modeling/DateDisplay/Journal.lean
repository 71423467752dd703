import DateDisplay.Text

/-!
# The journal

Besides what it shows to the user, a run keeps a journal of events for machines.  An event has a
level, named fields and a message.

Events come from two sides.  Those that repeat what the user sees are always kept.  Those about
the inner working are written in a scope, which puts its own fields before theirs and drops what
lies below its level.
-/

namespace DateDisplay

/-- How much an event matters, least first. -/
inductive Level where
  | debug
  | info
  | warn
  | error
  deriving Repr, DecidableEq

namespace Level

/-- The name of a level in the journal. -/
def name : Level → String
  | .debug => "debug"
  | .info => "info"
  | .warn => "warn"
  | .error => "error"

/-- The place of a level in the order. -/
def rank : Level → Nat
  | .debug => 0
  | .info => 1
  | .warn => 2
  | .error => 3

end Level

/-- The value of a field. -/
inductive FieldValue where
  | text (t : Text)
  | number (n : Int)
  | flag (b : Bool)
  deriving Repr, DecidableEq

/-- A named value of an event. -/
abbrev Field := String × FieldValue

/-- One entry of the journal. -/
structure Event where
  level : Level
  fields : List Field
  message : Text
  deriving Repr, DecidableEq

/-- Where events about the inner working are written from. -/
structure Scope where
  /-- what every event says first -/
  fields : List Field := []
  /-- the least level that is kept -/
  level : Level := .debug
  deriving Repr, DecidableEq

namespace Scope

/-- The events as they enter the journal. -/
def keep (s : Scope) (events : List Event) : List Event :=
  (events.filter (fun e => s.level.rank ≤ e.level.rank)).map
    fun e => { e with fields := s.fields ++ e.fields }

end Scope

end DateDisplay
