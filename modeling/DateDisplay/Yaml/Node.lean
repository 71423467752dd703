import DateDisplay.Yaml.Token

/-!
# YAML nodes

The tokens of the first document of a YAML text are put together to its root node.  What comes
behind the root node is not looked at.

A node may be named by an anchor, and an alias stands for the node that has the name at that
point.  An alias inside the node that it names stands for nothing.
-/

namespace DateDisplay

namespace Yaml

/-- A node of a document. -/
inductive Node where
  /-- `plain` if it is written without quotes and is no block -/
  | scalar (plain : Bool) (content : List Nat)
  | sequence (elements : List Node)
  | mapping (entries : List (Node × Node))
  | alias (name : List Nat) (target : Option Node)
  deriving Repr, Inhabited

/-- The node where nothing is written. -/
def Node.absent : Node := .scalar true []

/-- The state of composition: the tokens to come, and the anchors so far. -/
structure Composer where
  tokens : List Token
  /-- names and the numbers of the nodes they name, the latest first -/
  anchors : List (List Nat × Nat) := []
  /-- the numbered nodes that are complete -/
  complete : List (Nat × Node) := []
  deriving Repr

/-- A step of composition, which fails on a fault of the document. -/
abbrev Compose (α : Type) := StateT Composer Option α

namespace Compose

/-- The next token. -/
def peek : Compose Token := do
  match (← get).tokens with
  | t :: _ => return t
  | [] => failure

/-- Goes over the next token. -/
def skip : Compose Unit := modify fun s => { s with tokens := s.tokens.drop 1 }

/-- Names the next node, and gives its number. -/
def name (a : List Nat) : Compose Nat := do
  let s ← get
  let n := s.anchors.length
  set { s with anchors := (a, n) :: s.anchors }
  return n

/-- The node that a name stands for. -/
def target (a : List Nat) : Compose Node := do
  let s ← get
  match s.anchors.find? (·.1 == a) with
  | none => failure
  | some (_, n) => return .alias a ((s.complete.find? (·.1 == n)).map (·.2))

/-- What stands before a node: its anchor and its tag. -/
structure Properties where
  anchor : Option Nat := none
  tag : Option (List Nat) := none

/-- Reads an anchor and a tag, in either order. -/
def properties : Compose Properties := do
  match ← peek with
  | .anchor a =>
    skip
    let n ← name a
    match ← peek with
    | .tag t => skip; return { anchor := some n, tag := some t }
    | _ => return { anchor := some n }
  | .tag t =>
    skip
    match ← peek with
    | .anchor a =>
      skip
      let n ← name a
      return { anchor := some n, tag := some t }
    | _ => return { tag := some t }
  | _ => return {}

/-- A tag that makes a string of any scalar. -/
def isStringTag (t : List Nat) : Bool :=
  t == "!!str".toList.map Char.toNat || t == "!".toList.map Char.toNat

/-- The node with its properties. -/
def complete (p : Properties) (n : Node) : Compose Node := do
  let n := match p.tag, n with
    | some t, .scalar true s => .scalar (!isStringTag t) s
    | _, _ => n
  match p.anchor with
  | some i => modify fun s => { s with complete := (i, n) :: s.complete }
  | none => pure ()
  return n

/-- Where a node may stand. -/
structure Place where
  /-- collections may be written by indentation -/
  block : Bool
  /-- a sequence may start without indentation -/
  indentless : Bool

mutual

/-- Reads a node. -/
def node (place : Place) : (fuel : Nat) → Compose Node
  | 0 => failure
  | fuel + 1 => do
    match ← peek with
    | .alias a => skip; target a
    | _ =>
      let p ← properties
      match ← peek with
      | .blockEntry =>
        if place.indentless then complete p (.sequence (← indentless fuel)) else empty p
      | .scalar plain s => skip; complete p (.scalar plain s)
      | .flowSequenceStart => skip; complete p (.sequence (← flowSequence true fuel))
      | .flowMappingStart => skip; complete p (.mapping (← flowMapping true fuel))
      | .blockSequenceStart =>
        if place.block then skip; complete p (.sequence (← blockSequence fuel)) else empty p
      | .blockMappingStart =>
        if place.block then skip; complete p (.mapping (← blockMapping fuel)) else empty p
      | _ => empty p

/-- A node of which only the properties are written. -/
def empty (p : Properties) : Compose Node :=
  if p.anchor.isSome || p.tag.isSome then complete p .absent else failure

/-- Reads a node, or none if one of `ends` comes next. -/
def nodeUnless (ends : List Token) (place : Place) : (fuel : Nat) → Compose Node
  | 0 => failure
  | fuel + 1 => do if ends.contains (← peek) then return .absent else node place fuel

/-- Reads the entries of a sequence that is not indented. -/
def indentless : (fuel : Nat) → Compose (List Node)
  | 0 => failure
  | fuel + 1 => do
    match ← peek with
    | .blockEntry =>
      skip
      let n ← nodeUnless [.blockEntry, .key, .value, .blockEnd] ⟨true, false⟩ fuel
      return n :: (← indentless fuel)
    | _ => return []

/-- Reads the entries of an indented sequence. -/
def blockSequence : (fuel : Nat) → Compose (List Node)
  | 0 => failure
  | fuel + 1 => do
    match ← peek with
    | .blockEntry =>
      skip
      let n ← nodeUnless [.blockEntry, .blockEnd] ⟨true, false⟩ fuel
      return n :: (← blockSequence fuel)
    | .blockEnd => skip; return []
    | _ => failure

/-- Reads the entries of an indented mapping. -/
def blockMapping : (fuel : Nat) → Compose (List (Node × Node))
  | 0 => failure
  | fuel + 1 => do
    match ← peek with
    | .key =>
      skip
      let k ← nodeUnless [.key, .value, .blockEnd] ⟨true, true⟩ fuel
      let v ← match ← peek with
        | .value => skip; nodeUnless [.key, .value, .blockEnd] ⟨true, true⟩ fuel
        | _ => pure .absent
      return (k, v) :: (← blockMapping fuel)
    | .blockEnd => skip; return []
    | _ => failure

/-- Reads the value of an entry inside brackets. -/
def flowValue (close : Token) : (fuel : Nat) → Compose Node
  | 0 => failure
  | fuel + 1 => do
    match ← peek with
    | .value => skip; nodeUnless [.flowEntry, close] ⟨false, false⟩ fuel
    | _ => return .absent

/-- Reads the elements of a sequence in brackets. -/
def flowSequence (first : Bool) : (fuel : Nat) → Compose (List Node)
  | 0 => failure
  | fuel + 1 => do
    if (← peek) == .flowSequenceEnd then skip; return []
    else
      if !first then
        if (← peek) == .flowEntry then skip else failure
      match ← peek with
      | .flowSequenceEnd => skip; return []
      | .key =>
        -- a single entry of a mapping as an element
        skip
        let k ← if [.value, .flowEntry, .flowSequenceEnd].contains (← peek) then
            skip; pure .absent
          else node ⟨false, false⟩ fuel
        let v ← flowValue .flowSequenceEnd fuel
        return .mapping [(k, v)] :: (← flowSequence false fuel)
      | _ =>
        let n ← node ⟨false, false⟩ fuel
        return n :: (← flowSequence false fuel)

/-- Reads the entries of a mapping in braces. -/
def flowMapping (first : Bool) : (fuel : Nat) → Compose (List (Node × Node))
  | 0 => failure
  | fuel + 1 => do
    if (← peek) == .flowMappingEnd then skip; return []
    else
      if !first then
        if (← peek) == .flowEntry then skip else failure
      match ← peek with
      | .flowMappingEnd => skip; return []
      | .key =>
        skip
        let k ← nodeUnless [.value, .flowEntry, .flowMappingEnd] ⟨false, false⟩ fuel
        let v ← flowValue .flowMappingEnd fuel
        return (k, v) :: (← flowMapping false fuel)
      | _ =>
        let k ← node ⟨false, false⟩ fuel
        return (k, .absent) :: (← flowMapping false fuel)

end

/-- Reads directives; the version has to be 1.1 and may be given once. -/
def directives : (fuel : Nat) → (versions : Nat) → Compose Bool
  | 0, _ => failure
  | fuel + 1, versions => do
    match ← peek with
    | .version major minor =>
      if versions > 0 || major != 1 || minor != 1 then failure
      else
        skip
        let _ ← directives fuel (versions + 1)
        return true
    | .tagDirective =>
      skip
      let _ ← directives fuel versions
      return true
    | _ => return false

/-- Reads the root node of the first document. -/
def document (fuel : Nat) : Compose Node := do
  if (← peek) == .streamEnd then failure
  else
    let directed ← directives fuel 0
    match ← peek with
    | .documentStart =>
      skip
      match ← peek with
      | .version _ _ | .tagDirective | .documentStart | .documentEnd | .streamEnd => return .absent
      | _ => node ⟨true, false⟩ fuel
    | _ => if directed then failure else node ⟨true, false⟩ fuel

end Compose

/-- The root node of the first document of a text. -/
def read? (s : Text) : Option Node := do
  let ts := tokens (← points? s)
  let fuel := 4 * ts.length + 4
  -- the token that ends the document has to be there
  let (n, _) ← (do
    let n ← Compose.document fuel
    let _ ← Compose.peek
    return n : Compose Node).run { tokens := ts }
  return n

end Yaml

end DateDisplay
