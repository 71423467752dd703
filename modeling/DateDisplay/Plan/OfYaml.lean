import DateDisplay.Plan
import DateDisplay.Yaml.Node

/-!
# Plans in YAML

A plan is one mapping.  Keys are case-sensitive and may come once; a key that means nothing is
refused, except that an entry whose key is null is passed over.  Any scalar will do for a text,
and gives it as it is written; null gives nothing, and is left out of lists.
-/

namespace DateDisplay

open Text

namespace Yaml

/-- The node behind aliases. -/
def Node.resolve? : Node → Option Node
  | .alias _ (some n) => n.resolve?
  | .alias _ none => none
  | n => some n

/-- A plain scalar that stands for nothing. -/
def isNull (content : List Nat) : Bool :=
  ["", "~", "null", "Null", "NULL"].any fun s => s.toList.map Char.toNat == content

/-- What a mapping forbids to repeat: the kind of a key and what is written for it. -/
def Node.spelling : Node → Nat × List Nat
  | .scalar _ s => (0, s)
  | .sequence _ => (1, [])
  | .mapping _ => (2, [])
  | .alias a _ => (3, a)

/-- No two of the texts are equal. -/
def allDistinct : List (Nat × List Nat) → Bool
  | [] => true
  | k :: ks => !ks.contains k && allDistinct ks

/-- The outcome of reading a node: a value, nothing because the node is null, or a fault. -/
inductive Reading (α : Type) where
  | value (a : α)
  | null
  | fault

/-- Reads a text. -/
def readText (n : Node) : Reading Text :=
  match n.resolve? with
  | some (.scalar plain s) => if plain && isNull s then .null else .value (ofPoints s)
  | _ => .fault

/-- Reads a list, leaving out what is null. -/
def readList {α : Type} (read : Node → Reading α) (n : Node) : Reading (List α) :=
  match n.resolve? with
  | some (.scalar true s) => if isNull s then .null else .fault
  | some (.sequence es) =>
    let step (e : Node) (rest : Reading (List α)) : Reading (List α) :=
      match read e, rest with
      | .value a, .value as => .value (a :: as)
      | .null, rest => rest
      | _, _ => .fault
    es.foldr step (.value [])
  | _ => .fault

/-- Reads a mapping, one known key after the other. -/
def readMapping {α : Type} (keys : List String) (blank : α)
    (set : α → String → Node → Option α) (n : Node) : Reading α :=
  match n.resolve? with
  | some (.scalar true s) => if isNull s then .null else .fault
  | some (.mapping es) =>
    let step (read : Option (α × List String)) (e : Node × Node) : Option (α × List String) := do
      let (a, seen) ← read
      match readText e.1 with
      | .null => return (a, seen)
      | .fault => none
      | .value k =>
        let key ← keys.find? (fun name => lit name == k)
        if seen.contains key then none else return (← set a key e.2, key :: seen)
    if !allDistinct (es.map fun e => e.1.spelling) then .fault
    else
      match es.foldl step (some (blank, [])) with
      | some (a, _) => .value a
      | none => .fault
  | _ => .fault

/-- Uses what was read, or keeps `old` if it is null. -/
def Reading.over {α β : Type} (old : β) (f : α → β) : Reading α → Option β
  | .value a => some (f a)
  | .null => some old
  | .fault => none

end Yaml

namespace Plan

open Yaml

/-- Reads a path rule. -/
def readYamlRule : Node → Reading PathRule :=
  readMapping ["segment", "path"] ⟨[], []⟩ fun r key n =>
    (readText n).over r fun t =>
      if key == "segment" then { r with segment := t } else { r with path := t }

/-- Reads a helper. -/
def readYamlHelper : Node → Reading Helper :=
  readMapping ["name", "module", "default_path", "path_rules"] {} fun h key n =>
    if key == "path_rules" then
      (readList readYamlRule n).over h fun rs => { h with pathRules := some rs }
    else
      (readText n).over h fun t =>
        if key == "name" then { h with name := t }
        else if key == "module" then { h with module := t }
        else { h with defaultPath := t }

/-- Reads a plan. -/
def readYaml : Node → Reading Plan :=
  readMapping ["locale", "helper", "files"] {} fun p key n =>
    if key == "locale" then (readText n).over p fun t => { p with locale := t }
    else if key == "helper" then
      (readYamlHelper n).over p fun h => { p with helper := some h }
    else (readList readText n).over p fun fs => { p with files := some fs }

/-- The plan that a YAML text holds. -/
def ofYaml? (s : Text) : Option Plan := do
  let n ← Yaml.read? s
  (readYaml n).over {} id

end Plan

end DateDisplay
