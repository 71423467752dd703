import DateDisplay.Import.PathTable
import DateDisplay.Path
import DateDisplay.Text.Format
import DateDisplay.Text.Quoted

/-!
# Plans

A plan says what a migration does: which locale's call sites are replaced, by calls of which
helper, where the helper is imported from, and in which files.

A plan as it was written may leave any part out.  `withDefaults` fills the parts that are missing
from the built-in plan, field by field, and `flaw?` names the first thing that is wrong with a
plan, if anything is.
-/

namespace DateDisplay

open Text

/-- The function that call sites become calls of, and the module it is imported from. -/
structure Helper where
  name : Text := []
  /-- how the path of the helper's module ends -/
  module : Text := []
  /-- the import path where no rule applies -/
  defaultPath : Text := []
  /-- the import paths by folder, if any were given -/
  pathRules : Option (List PathRule) := none
  deriving Repr, DecidableEq

/-- What a migration is to do.  Empty texts and `none` stand for parts that were left out. -/
structure Plan where
  locale : Text := []
  helper : Option Helper := none
  /-- paths and patterns, in the order in which the files are taken -/
  files : Option (List Text) := none
  /-- the file that the plan was read from, empty for the built-in plan -/
  location : Text := []
  deriving Repr, DecidableEq

namespace Helper

/-- The path rules, none if they were left out. -/
def rules (h : Helper) : List PathRule := h.pathRules.getD []

/-- The path table of a helper. -/
def paths (h : Helper) : PathTable := ⟨h.rules, h.defaultPath⟩

/-- The helper of the built-in plan. -/
def builtin : Helper where
  name := lit "dbDateToDisplay"
  module := lit "dateUtils"
  defaultPath := PathTable.builtin.fallback
  pathRules := some PathTable.builtin.rules

/-- `given`, or the default if it is empty. -/
def orElse (given default : Text) : Text := if given.isEmpty then default else given

/-- The helper with the built-in one's value for each part that is missing. -/
def withDefaults (h : Helper) : Helper where
  name := orElse h.name builtin.name
  module := orElse h.module builtin.module
  defaultPath := orElse h.defaultPath builtin.defaultPath
  pathRules := h.pathRules <|> builtin.pathRules

end Helper

/-- What can be wrong with a plan.  Numbers count list members from zero. -/
inductive Flaw where
  | noLocale
  | noHelper
  | badName (name : Text)
  | noModule
  /-- the default path does not end with the module -/
  | strayDefault (path module : Text)
  | badSegment (index : Nat)
  /-- the path of a rule does not end with the module -/
  | strayRule (index : Nat) (path module : Text)
  | noFiles
  | emptyFile (index : Nat)
  | absoluteFile (index : Nat) (path : Text)
  deriving Repr, DecidableEq

namespace Flaw

/-- A member of a list, such as `files[3]`. -/
def member (list : String) (index : Nat) : Text := lit list ++ lit "[" ++ decimal index ++ lit "]"

/-- The flaw in words. -/
def message : Flaw → Text
  | .noLocale => lit "locale is required"
  | .noHelper => lit "helper is required"
  | .badName n => lit "helper.name " ++ quoted n ++ lit " is not a valid identifier"
  | .noModule => lit "helper.module is required"
  | .strayDefault p m =>
    lit "helper.default_path " ++ quoted p ++ lit " does not point at module " ++ quoted m
  | .badSegment i =>
    member "helper.path_rules" i ++ lit ": segment must be a single directory name"
  | .strayRule i p m =>
    member "helper.path_rules" i ++ lit ": path " ++ quoted p
      ++ lit " does not point at module " ++ quoted m
  | .noFiles => lit "files is required"
  | .emptyFile i => member "files" i ++ lit " is empty"
  | .absoluteFile i p => member "files" i ++ lit ": " ++ quoted p ++ lit " must be relative"

end Flaw

namespace Plan

/-- The files of the built-in plan.  Forms are left out: they display the current date. -/
def builtinFiles : List Text :=
  ["Dashboard", "Debts", "Permutas", "Agenda", "Boletos", "Checks", "CashManagement", "Acertos",
    "Employees", "Taxes", "PixFees", "Reports", "reports/PayablesReport",
    "reports/ReceivablesReport", "reports/EnhancedReceivablesReport"].map
    fun name => lit "src/components/" ++ lit name ++ lit ".tsx"

/-- The plan that is used when none is given. -/
def builtin : Plan where
  locale := lit "pt-BR"
  helper := some Helper.builtin
  files := some builtinFiles

/-- The entries of the file list. -/
def entries (p : Plan) : List Text := p.files.getD []

/-- The plan with the built-in one's value for each part that is missing. -/
def withDefaults (p : Plan) : Plan where
  locale := Helper.orElse p.locale builtin.locale
  helper := some (p.helper.getD {}).withDefaults
  files := if p.entries.isEmpty then builtin.files else p.files
  location := p.location

/-! ### Flaws -/

/-- `b` may start a name. -/
def startsName (b : UInt8) : Bool := isLetter b || b == '_'.toUInt8 || b == '$'.toUInt8

/-- The text is a name: letters, digits, underscores and dollar signs, no digit first. -/
def isName : Text → Bool
  | [] => false
  | b :: t => startsName b && t.all fun c => startsName c || isDigit c

/-- The first flaw of the path rules from number `i` on. -/
def rulesFlaw? (module : Text) : (i : Nat) → List PathRule → Option Flaw
  | _, [] => none
  | i, r :: rs =>
    if r.segment.isEmpty || r.segment.contains Path.slash then some (.badSegment i)
    else if !module.isSuffixOf r.path then some (.strayRule i r.path module)
    else rulesFlaw? module (i + 1) rs

/-- The first flaw of a helper. -/
def helperFlaw? (h : Helper) : Option Flaw :=
  if !isName h.name then some (.badName h.name)
  else if h.module.isEmpty then some .noModule
  else if !h.module.isSuffixOf h.defaultPath then some (.strayDefault h.defaultPath h.module)
  else rulesFlaw? h.module 0 h.rules

/-- The first flaw of the file list from number `i` on. -/
def filesFlaw? : (i : Nat) → List Text → Option Flaw
  | _, [] => none
  | i, f :: fs =>
    if f.isEmpty then some (.emptyFile i)
    else if Path.isAbsolute f then some (.absoluteFile i f)
    else filesFlaw? (i + 1) fs

/-- The first flaw of a plan. -/
def flaw? (p : Plan) : Option Flaw :=
  if p.locale.isEmpty then some .noLocale
  else
    match p.helper with
    | none => some .noHelper
    | some h =>
      match helperFlaw? h with
      | some f => some f
      | none => if p.entries.isEmpty then some .noFiles else filesFlaw? 0 p.entries

/-- The plan in one line. -/
def describe (p : Plan) : Text :=
  let h := p.helper.getD {}
  format (lit "toLocaleDateString('%s') -> %s from %s (%d entries)")
    [.text p.locale, .text h.name, .text h.module, .number p.entries.length]

end Plan

end DateDisplay
