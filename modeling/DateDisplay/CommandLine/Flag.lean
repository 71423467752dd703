import DateDisplay.Text.Quoted

/-!
# Flags

The flags of the command line and how they are written.  A flag has a name, `--config`, and a letter,
`-c`.  A flag that takes a value takes it behind an equals sign, joined to the letter, or from the next
argument; a switch takes one behind an equals sign only.  Letters may be grouped, and the last
value given counts.
-/

namespace DateDisplay

open Text

namespace CommandLine

/-- The flags. -/
inductive Flag where
  | config
  | root
  | debug
  | quiet
  | help
  deriving Repr, DecidableEq

namespace Flag

/-- The name of a flag. -/
def name : Flag → String
  | .config => "config"
  | .root => "root"
  | .debug => "debug"
  | .quiet => "quiet"
  | .help => "help"

/-- The letter of a flag. -/
def letter : Flag → Char
  | .config => 'c'
  | .root => 'r'
  | .debug => 'd'
  | .quiet => 'q'
  | .help => 'h'

/-- The flag is on or off and needs no value. -/
def isSwitch : Flag → Bool
  | .config => false
  | .root => false
  | _ => true

/-- The flag with a name. -/
def named? (known : List Flag) (n : Text) : Option Flag := known.find? fun f => lit f.name == n

/-- The flag with a letter. -/
def lettered? (known : List Flag) (b : UInt8) : Option Flag :=
  known.find? fun f => f.letter.toUInt8 == b

end Flag

/-- The values of the flags. -/
structure Options where
  config : Text := []
  root : Text := lit "."
  debug : Bool := false
  quiet : Bool := false
  help : Bool := false
  deriving Repr, DecidableEq

/-- What can be wrong with a command line. -/
inductive UsageFault where
  | badSyntax (argument : Text)
  | unknownFlag (name : Text)
  | unknownLetter (letter : UInt8) (group : Text)
  | noValue (argument : Text)
  | noLetterValue (letter : UInt8) (group : Text)
  | badSwitch (value : Text) (flag : Flag)
  /-- a word that is no command, for the command that came before it -/
  | unknownCommand (word : Text) (command : String) (similar : List String)
  deriving Repr, DecidableEq

namespace UsageFault

/-- A letter of a group, between single quotes. -/
def letterIn (letter : UInt8) (group : Text) : Text :=
  quotedBy '\''.toUInt8 (encodePoint letter.toNat) ++ lit " in -" ++ group

/-- The fault in words. -/
def message : UsageFault → Text
  | .badSyntax a => lit "bad flag syntax: " ++ a
  | .unknownFlag n => lit "unknown flag: --" ++ n
  | .unknownLetter b g => lit "unknown shorthand flag: " ++ letterIn b g
  | .noValue a => lit "flag needs an argument: " ++ a
  | .noLetterValue b g => lit "flag needs an argument: " ++ letterIn b g
  | .badSwitch v f =>
    lit "invalid argument " ++ quoted v ++ lit " for \"-" ++ [f.letter.toUInt8] ++ lit ", --"
      ++ lit f.name ++ lit "\" flag: strconv.ParseBool: parsing " ++ quoted v
      ++ lit ": invalid syntax"
  | .unknownCommand w c similar =>
    lit "unknown command " ++ quoted w ++ lit " for " ++ quoted (lit c)
      ++ (if similar.isEmpty then []
        else lit "\n\nDid you mean this?\n" ++ similar.flatMap fun s => lit "\t" ++ lit s ++ [10])

end UsageFault

/-- The truth value that a word stands for. -/
def truth? (t : Text) : Option Bool :=
  if ["1", "t", "T", "TRUE", "true", "True"].any (lit · == t) then some true
  else if ["0", "f", "F", "FALSE", "false", "False"].any (lit · == t) then some false
  else none

namespace Options

/-- The options with a flag set. -/
def set (o : Options) (f : Flag) (value : Text) : Except UsageFault Options :=
  match f with
  | .config => .ok { o with config := value }
  | .root => .ok { o with root := value }
  | _ =>
    match truth? value with
    | none => .error (.badSwitch value f)
    | some b =>
      match f with
      | .debug => .ok { o with debug := b }
      | .quiet => .ok { o with quiet := b }
      | _ => .ok { o with help := b }

end Options

/-! ### Reading arguments -/

/-- The value of a switch that is given without one. -/
def switchedOn : Text := lit "true"

/-- Reads `--name`, `--name=value` or `--name value`, behind the hyphens. -/
def longFlag (known : List Flag) (argument : Text) (rest : List Text) (o : Options) :
    Except UsageFault (Options × List Text) := do
  let body := argument.drop 2
  if body.isEmpty || body.head? == some '-'.toUInt8 || body.head? == some '='.toUInt8 then
    throw (.badSyntax argument)
  else
    let name := body.takeWhile (· != '='.toUInt8)
    match Flag.named? known name with
    | none => throw (.unknownFlag name)
    | some f =>
      if name.length < body.length then return (← o.set f (body.drop (name.length + 1)), rest)
      else if f.isSwitch then return (← o.set f switchedOn, rest)
      else
        match rest with
        | v :: rest => return (← o.set f v, rest)
        | [] => throw (.noValue argument)

/-- Reads a group of letters, the last of which may have a value. -/
def letterGroup (known : List Flag) (rest : List Text) :
    (group : Text) → Options → Except UsageFault (Options × List Text)
  | [], o => .ok (o, rest)
  | b :: t, o =>
    if (lit "test.").isPrefixOf (b :: t) then .ok (o, rest)
    else
      match Flag.lettered? known b with
      | none => .error (.unknownLetter b (b :: t))
      | some f => do
        if t.length > 1 && t.head? == some '='.toUInt8 then return (← o.set f (t.drop 1), rest)
        else if f.isSwitch then letterGroup known rest t (← o.set f switchedOn)
        else if !t.isEmpty then return (← o.set f t, rest)
        else
          match rest with
          | v :: rest => return (← o.set f v, rest)
          | [] => throw (.noLetterValue b (b :: t))

/-- Reads the arguments: the options, and the words that are no flags.  Behind `--` all are words.
No argument is read twice, which bounds the number of steps. -/
def readFrom (known : List Flag) :
    (fuel : Nat) → List Text → Options → Except UsageFault (Options × List Text)
  | 0, _, o => .ok (o, [])
  | _ + 1, [], o => .ok (o, [])
  | fuel + 1, a :: rest, o =>
    match a with
    | 45 :: 45 :: [] => .ok (o, rest)
    | 45 :: 45 :: _ => do
      let (o, rest) ← longFlag known a rest o
      readFrom known fuel rest o
    | 45 :: b :: t => do
      let (o, rest) ← letterGroup known rest (b :: t) o
      readFrom known fuel rest o
    | _ => do
      let (o, words) ← readFrom known fuel rest o
      return (o, a :: words)

/-- Reads the arguments of a command with the given flags. -/
def readArguments (known : List Flag) (args : List Text) :
    Except UsageFault (Options × List Text) :=
  readFrom known (args.length + 1) args {}

end CommandLine

end DateDisplay
