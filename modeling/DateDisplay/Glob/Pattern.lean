import DateDisplay.Text.Utf8

/-!
# Patterns for file names

A pattern describes paths.  `*` stands for any part of a name and `?` for one character, `[a-z]` for
one character of a class and `[!a-z]` for one outside it, `{a,b}` for either of two patterns, and a
name that is `**` for any number of folders.  A backslash takes the meaning of the character behind
it away.

`isValid` checks that classes and groups are closed.  `nameMatches` decides whether a pattern
without groups and slashes describes a name.
-/

namespace DateDisplay

open Text

namespace Glob

/-- The entry is meant as a pattern. -/
def isPattern (entry : Text) : Bool :=
  entry.any fun b => b == '*'.toUInt8 || b == '?'.toUInt8 || b == '['.toUInt8 || b == 0x7B

/-! ### Validity -/

/-- Where the check of a pattern is. -/
inductive Checking where
  | plain
  | escaped
  /-- behind the bracket that opens a class -/
  | opened
  /-- before the first member of a class -/
  | first
  | inClass
  | escapedInClass
  deriving Repr, DecidableEq

/-- The check of a member of a class, which may close it unless it is the first. -/
def checkMember (b : UInt8) : Checking :=
  if b == '\\'.toUInt8 then .escapedInClass else .inClass

/-- The rest of a pattern is valid, with `depth` groups open. -/
def isValidFrom : Checking → (depth : Nat) → Text → Bool
  | .plain, depth, [] => depth == 0
  | _, _, [] => false
  | .plain, depth, b :: t =>
    if b == '\\'.toUInt8 then isValidFrom .escaped depth t
    else if b == '['.toUInt8 then isValidFrom .opened depth t
    else if b == 0x7B then isValidFrom .plain (depth + 1) t
    else if b == 0x7D then
      match depth with
      | 0 => false
      | d + 1 => isValidFrom .plain d t
    else isValidFrom .plain depth t
  | .escaped, depth, _ :: t => isValidFrom .plain depth t
  | .opened, depth, b :: t =>
    if b == '^'.toUInt8 || b == '!'.toUInt8 then isValidFrom .first depth t
    else if b == ']'.toUInt8 then false
    else isValidFrom (checkMember b) depth t
  | .first, depth, b :: t =>
    if b == ']'.toUInt8 then false else isValidFrom (checkMember b) depth t
  | .inClass, depth, b :: t =>
    if b == ']'.toUInt8 then isValidFrom .plain depth t else isValidFrom (checkMember b) depth t
  | .escapedInClass, depth, _ :: t => isValidFrom .inClass depth t

/-- Every class and every group is closed, no group is closed that is not open, no class is empty,
and there is a character behind every backslash. -/
def isValid (pattern : Text) : Bool := isValidFrom .plain 0 pattern

/-! ### Names -/

/-- A pattern that cannot be compared with a name, because a class in it does not end. -/
inductive Malformed where
  | openClass
  deriving Repr, DecidableEq

/-- The characters of a text as code points, where a stray byte reads as the replacement
character. -/
def points (s : Text) : List Nat :=
  (characters s).map fun | .point n => n | .stray _ => 0xFFFD

/-- The first code point and the rest, the replacement character if there is none. -/
def uncons (p : List Nat) : Nat × List Nat := (p.headD 0xFFFD, p.drop 1)

/-- Goes through the members of a class until one of them is `n`, and says whether there is one.
`last` is the member before, which may start a range. -/
def findMember (n : Nat) : (fuel : Nat) → (last : Option Nat) → List Nat → Bool × List Nat
  | 0, _, p => (false, p)
  | fuel + 1, last, p =>
    match p with
    | [] => (false, [])
    | c :: t =>
      if c == ']'.toNat then (false, p)
      else
        let single : Bool × List Nat :=
          let (c, t) := if c == '\\'.toNat then uncons t else (c, t)
          if c == n then (true, t) else findMember n fuel (some c) t
        match last with
        | none => single
        | some lo =>
          if c == '-'.toNat && !t.isEmpty && t.head? != some ']'.toNat then
            let (hi, t) := uncons (if t.head? == some '\\'.toNat then t.drop 1 else t)
            if lo ≤ n && n ≤ hi then (true, t) else findMember n fuel none t
          else single

/-- What is behind the bracket that closes a class. -/
def afterClass? : List Nat → Option (List Nat)
  | [] => none
  | c :: t =>
    if c == ']'.toNat then some t
    else if c == '\\'.toNat then
      match t with
      | [] => none
      | _ :: u => afterClass? u
    else afterClass? t

/-- Compares a class, behind its opening bracket, with a character.  The answer is what is behind
the class, or nothing if the character is not in it. -/
def classMatches (p : List Nat) (n : Nat) : Except Malformed (Option (List Nat)) :=
  let negated := p.head? == some '!'.toNat || p.head? == some '^'.toNat
  let p := if negated then p.drop 1 else p
  if p.isEmpty || p.head? == some ']'.toNat then .error .openClass
  else
    let (found, rest) := findMember n p.length none p
    if found == negated then if rest.isEmpty then .error .openClass else .ok none
    else
      match afterClass? rest with
      | none => .error .openClass
      | some rest => .ok (some rest)

/-- Compares a pattern with a name.  `star` is the pattern behind the last star, and the part of the
name that the star has not taken yet: if the comparison fails, the star takes one more character. -/
def matchesFrom :
    (fuel : Nat) → (pattern name : List Nat) → (star : Option (List Nat × List Nat)) →
      Except Malformed Bool
  | 0, _, _, _ => .ok false
  | fuel + 1, pattern, name, star =>
    let retry : Except Malformed Bool :=
      match star with
      | some (p, _ :: rest) => matchesFrom fuel p rest (some (p, rest))
      | _ => .ok false
    let literal (c : Nat) (p : List Nat) : Except Malformed Bool :=
      match name with
      | n :: rest => if c == n then matchesFrom fuel p rest star else retry
      | [] => .ok false
    match name with
    | [] => .ok (pattern == [] || pattern == [42] || pattern == [42, 42])
    | n :: rest =>
      match pattern with
      | [] => retry
      | 42 :: 42 :: p => matchesFrom fuel p name (some (p, name))
      | 42 :: p => matchesFrom fuel p name (some (p, name))
      | 63 :: p => matchesFrom fuel p rest star
      | 91 :: p =>
        match classMatches p n with
        | .error f => .error f
        | .ok none => retry
        | .ok (some p) => matchesFrom fuel p rest star
      | 92 :: [] => .error .openClass
      | 92 :: c :: p => literal c p
      | c :: p => literal c p

/-- The pattern, which has no groups and no slashes, describes the name.  Between two retries every
step reads a character of the pattern or of the name, which bounds the number of steps. -/
def nameMatches (pattern name : Text) : Except Malformed Bool :=
  let p := points pattern
  let n := points name
  matchesFrom ((p.length + n.length + 1) * (n.length + 2)) p n none

end Glob

end DateDisplay
