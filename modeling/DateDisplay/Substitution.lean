import DateDisplay.CallSite

/-!
# Substitution of call sites

A substitution writes a helper call, `HELPER(EXPR)`, in the place of each call site for its
locale.  It goes through a text once, from left to right, and what it has written is not read
again.
-/

namespace DateDisplay

open Text

/-- Which call sites are replaced, and by calls of which helper. -/
structure Substitution where
  /-- the locale between the quotes of a call site -/
  locale : Text
  /-- the function that call sites become calls of -/
  helper : Text
  deriving Repr, DecidableEq

/-- The outcome of a substitution. -/
structure Substituted where
  /-- the text before -/
  before : Text
  /-- the text with every call site replaced -/
  content : Text
  /-- the call sites of the text before -/
  sites : List CallSite
  deriving Repr, DecidableEq

namespace Substitution

/-- The locale that is looked for unless another is asked for. -/
def defaultLocale : Text := lit "pt-BR"

/-- The helper that is called unless another is asked for. -/
def defaultHelper : Text := lit "dbDateToDisplay"

/-- The substitution for a locale and a helper, where an empty one means the default. -/
def ofOptions (locale helper : Text) : Substitution where
  locale := if locale.isEmpty then defaultLocale else locale
  helper := if helper.isEmpty then defaultHelper else helper

/-- The call of the helper on an expression. -/
def call (r : Substitution) (e : Text) : Text :=
  r.helper ++ '('.toUInt8 :: e ++ [')'.toUInt8]

/-- The call sites of a text. -/
def scan (r : Substitution) (content : Text) : List CallSite := CallSite.scan r.locale content

/-- The text with the helper's call in the place of every call site. -/
def substitute (r : Substitution) (content : Text) : Text :=
  replace (CallSite.recognise r.locale) (fun e => r.call e.text) content

/-- The substitution carried out on a text. -/
def apply (r : Substitution) (content : Text) : Substituted where
  before := content
  content := r.substitute content
  sites := r.scan content

end Substitution

namespace Substituted

/-- How many call sites were replaced. -/
def count (r : Substituted) : Nat := r.sites.length

/-- Some call site was replaced. -/
def isModified (r : Substituted) : Bool := !r.sites.isEmpty

end Substituted

end DateDisplay
