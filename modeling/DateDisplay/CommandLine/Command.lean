import DateDisplay.CommandLine.Flag

/-!
# Commands

The first word of a command line names the command.  Words are told from the values of flags by the
flags that come before them, so this step knows the flags of the whole program but not `--help`, which
every command has on its own.  A flag that is not known here counts as one that takes a value.
-/

namespace DateDisplay

open Text

namespace CommandLine

/-- The commands. -/
inductive Command where
  /-- no command is named -/
  | top
  | fix
  | check
  | version
  | help
  deriving Repr, DecidableEq

namespace Command

/-- The name by which a command is called. -/
def name : Command → String
  | .top => "datefix"
  | .fix => "fix"
  | .check => "check"
  | .version => "version"
  | .help => "help"

/-- The name of a command with that of the program before it. -/
def path : Command → String
  | .top => "datefix"
  | c => "datefix " ++ c.name

/-- The command that a word names. -/
def named? (w : Text) : Option Command :=
  [Command.fix, .check, .version, .help].find? fun c => lit c.name == w

/-- The flags that can be given to a command. -/
def flags : Command → List Flag
  | .check => [.config, .root, .debug, .quiet, .help]
  | _ => [.config, .root, .debug, .help]

end Command

/-- The flags of the whole program. -/
def globalFlags : List Flag := [.config, .root, .debug]

/-- The argument is a flag that takes the next argument as its value. -/
def takesNext (a : Text) : Bool :=
  if a.contains '='.toUInt8 then false
  else
    match a with
    | 45 :: 45 :: n =>
      match Flag.named? globalFlags n with
      | some f => !f.isSwitch
      | none => true
    | [45, b] =>
      match Flag.lettered? globalFlags b with
      | some f => !f.isSwitch
      | none => true
    | _ => false

/-- The argument is written like a flag. -/
def isFlagLike (a : Text) : Bool := a.head? == some '-'.toUInt8

/-- The words of a command line that are neither flags nor their values. -/
def words : (args : List Text) → List Text
  | [] => []
  | a :: rest =>
    if a == lit "--" then []
    else if takesNext a then
      match rest with
      | _ :: b :: more => words (b :: more)
      | _ => []
    else if a.isEmpty || isFlagLike a then words rest
    else a :: words rest
termination_by args => args.length

/-- The arguments without the first word `w`. -/
def withoutWord (w : Text) : (args : List Text) → List Text
  | [] => []
  | a :: rest =>
    if a == lit "--" then a :: rest
    else if takesNext a then
      match rest with
      | v :: more => a :: v :: withoutWord w more
      | [] => [a]
    else if !isFlagLike a && a == w then rest
    else a :: withoutWord w rest

/-! ### Similar names -/

/-- The next row of the table of distances, for a letter `b`.  `left` is the entry before, and
`above` the row above from the entry before on. -/
def nextRow (b : UInt8) : (left : Nat) → (above : List Nat) → Text → List Nat
  | left, diagonal :: up :: above, c :: t =>
    let here := if b == c then diagonal else 1 + min (min left up) diagonal
    here :: nextRow b here (up :: above) t
  | _, _, _ => []

/-- The least number of letters to insert, delete or replace to get from one text to the other. -/
def distance (s t : Text) : Nat :=
  let first := List.range (t.length + 1)
  let rows := s.foldl
    (fun (row : List Nat) b =>
      let left := row.headD 0 + 1
      left :: nextRow b left row t)
    first
  rows.getLastD 0

/-- The commands with a name like a word: two letters apart at most, or one that starts with it. -/
def similarTo (w : Text) : List String :=
  ["fix", "check", "version", "completion"].filter fun n =>
    let lower := w.map lowerByte
    distance lower (lit n) ≤ 2 || lower.isPrefixOf (lit n)

/-- The command of a command line and the arguments for it. -/
def find (args : List Text) : Except UsageFault (Command × List Text) :=
  match words args with
  | [] => .ok (.top, args)
  | w :: _ =>
    match Command.named? w with
    | some c => .ok (c, withoutWord w args)
    | none => .error (.unknownCommand w Command.top.path (similarTo w))

end CommandLine

end DateDisplay
