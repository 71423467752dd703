import DateDisplay.Hcl.Value

/-!
# HCL expressions

An expression is read first and given its value later, because a fault in the writing of a file is
told before any fault in what it means.  No functions are known, so a call never has a value.
-/

namespace DateDisplay

open Text

namespace Hcl

/-- An expression. -/
inductive Expression where
  | literal (v : Value)
  | variable (name : Text)
  | call (name : Text) (arguments : List Expression)
  /-- the texts of the parts, one after the other -/
  | template (parts : List Expression)
  | tuple (elements : List Expression)
  | object (keys values : List Expression)
  | member (e : Expression) (name : Text)
  | index (e key : Expression)
  /-- the elements, on each of which the members are taken in turn -/
  | splat (e : Expression) (members : List Text)
  | negative (e : Expression)
  | negation (e : Expression)
  deriving Repr, Inhabited

namespace Expression

/-- Takes members of a value, one inside the other. -/
def descend? (v : Value) (names : List Text) : Option Value := names.foldlM Value.member? v

mutual

/-- The value of an expression, where `known` gives the values of variables. -/
def value? (known : Text → Option Value) : Expression → Option Value
  | .literal v => some v
  | .variable name => known name
  | .call _ _ => none
  | .template parts => do
    let vs ← values? known parts
    let ts ← vs.mapM Value.text?
    return .string ts.flatten
  | .tuple es => (values? known es).map .list
  | .object ks vs => do
    let names ← (← values? known ks).mapM Value.text?
    return .object (names.zip (← values? known vs))
  | .member e name => do (← value? known e).member? name
  | .index e k => do
    let v ← value? known e
    v.at? (← value? known k)
  | .splat e names => do
    let v ← value? known e
    return .list (← v.elements.mapM (descend? · names))
  | .negative e => do
    match ← value? known e with
    | .number d => return .number { d with negative := !d.negative }
    | _ => none
  | .negation e => do
    match ← value? known e with
    | .boolean b => return .boolean !b
    | _ => none

/-- The values of expressions. -/
def values? (known : Text → Option Value) : List Expression → Option (List Value)
  | [] => some []
  | e :: es => do return (← value? known e) :: (← values? known es)

end

end Expression

end Hcl

end DateDisplay
