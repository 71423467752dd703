import DateDisplay.Migration.Run
import DateDisplay.Proofs.Diff.Numerals

/-!
# Look-ups in the table of lines

A diff is made for the numbers of lines, and each number in a piece of it is looked up
again in the table of lines.  The definitions of this file keep watch over these
look-ups.  `lineOf?` takes the empty line for number zero, before those of the table, and
has no answer for a number that is too large.  `changes?` is the diff with such look-ups,
and `process?` and `run?` process files with such diffs, for as long as there are answers.

What stands between two commas of an edit is a piece of the number of a line, so it is
not greater than the number of the last line (`ofDigits_le_length_table`).  So every
look-up has an answer, whatever the two texts are (`changes?_eq_some`), and no run comes
to an end over a diff (`run?_eq_some`).
-/

namespace DateDisplay

open Text

namespace LineDiff

/-! ### Diffs with look-ups that may fail -/

/-- The line that a piece of a numeral text stands for, unless its number is too large for the
table.  A piece that is no number stands for nothing. -/
def lineOf? (table : List Text) (piece : Text) : Option Text :=
  if piece.isEmpty || !piece.all isDigit then some [] else ([] :: table)[ofDigits piece]?

/-- The lines that a numeral text stands for, if there is one for each number. -/
def readNumerals? (table : List Text) (s : Text) : Option Text :=
  ((splitOn [','.toUInt8] s).mapM (lineOf? table)).map List.flatten

/-- The edit script between two texts in whole lines, if there is one for each number. -/
def edits? (before after : Text) : Option (List Edit) :=
  (numberScript before after).mapM fun e =>
    (readNumerals? (table before after) e.text).map fun s => { e with text := s }

/-- The changed lines between two texts, if there is one for each number. -/
def changes? (before after : Text) : Option (List Text) :=
  if before == after then some [] else (edits? before after).map (render 1 1)

/-- Changed lines under a heading that names the file, or nothing if there are none. -/
def headed (path : Text) : List Text → Text
  | [] => []
  | ls => lit "--- " ++ path ++ lit "\n+++ " ++ path ++ lit "\n" ++ join [10] ls ++ [10]

/-- The changed lines under a heading, if there is one for each number. -/
def unified? (path before after : Text) : Option Text := (changes? before after).map (headed path)

/-! ### Numbers of lines -/

variable {before after : Text}

/-- **A number in an edit is not greater than that of the last line.**  What stands between two
commas of an edit is nothing or a number. -/
theorem ofDigits_le_length_table {e : Edit} (he : e ∈ numberScript before after) {p : Text}
    (hp : p ∈ splitOn [','.toUInt8] e.text) (hne : p ≠ []) :
    (∀ b ∈ p, isDigit b = true) ∧ ofDigits p ≤ (table before after).length := by
  obtain ⟨s, hs, hc⟩ := infix_numerals he
  obtain ⟨l, hl, hpl⟩ := infix_decimal hc hp hne
  refine ⟨fun b hb => isDigit_of_mem_decimal (hpl.mem hb), ?_⟩
  calc ofDigits p ≤ ofDigits (decimal (numberOf (table before after) l)) :=
        ofDigits_le_of_infix hpl
    _ = numberOf (table before after) l := ofDigits_decimal _
    _ ≤ (table before after).length := numberOf_le (hs l hl)

/-! ### Every look-up has an answer -/

theorem lineOf?_eq_some {t : List Text} {p : Text} (h : ofDigits p ≤ t.length) :
    lineOf? t p = some (lineOf t p) := by
  rw [lineOf?, lineOf]
  split
  · rfl
  · cases hn : ofDigits p with
    | zero => rfl
    | succ n =>
      have hlt : n < t.length := by omega
      show t[n]? = some (t.getD n [])
      rw [List.getD_eq_getElem?_getD, List.getElem?_eq_getElem hlt, Option.getD_some]

theorem mapM_eq_some {α β : Type} {f : α → Option β} {g : α → β} : ∀ {xs : List α},
    (∀ x ∈ xs, f x = some (g x)) → xs.mapM f = some (xs.map g) := by
  intro xs
  induction xs with
  | nil => intro _; rfl
  | cons x xs ih =>
    intro h
    rw [List.forall_mem_cons] at h
    rw [List.mapM_cons, h.1, ih h.2]
    rfl

theorem readNumerals?_eq_some {t : List Text} {s : Text}
    (h : ∀ p ∈ splitOn [','.toUInt8] s, ofDigits p ≤ t.length) :
    readNumerals? t s = some (readNumerals t s) := by
  rw [readNumerals?, mapM_eq_some fun p hp => lineOf?_eq_some (h p hp)]
  rfl

theorem edits?_eq_some (before after : Text) : edits? before after = some (edits before after) := by
  refine mapM_eq_some fun e he => ?_
  have hle : ∀ p ∈ splitOn [','.toUInt8] e.text, ofDigits p ≤ (table before after).length := by
    intro p hp
    by_cases hne : p = []
    · subst hne
      exact Nat.zero_le _
    · exact (ofDigits_le_length_table he hp hne).2
  rw [readNumerals?_eq_some hle]
  rfl

/-- **The diff of any two texts finds a line for each of its numbers.** -/
theorem changes?_eq_some (before after : Text) :
    changes? before after = some (changes before after) := by
  rw [changes?, changes]
  split
  · rfl
  · rw [edits?_eq_some]
    rfl

theorem unified?_eq_some (path before after : Text) :
    unified? path before after = some (unified path before after) := by
  rw [unified?, changes?_eq_some]
  rfl

end LineDiff

/-! ### Files -/

namespace Migration

open LineDiff

/-- Processes a file with call sites, if there is a line for each number of its diff.  The diff is
made before the file is written. -/
def change? (m : Migration) (t : FileTree) (path content : Text) : Option Processed :=
  let after := (m.migrated path content).content
  let found := m.siteEvents path (m.substitution.scan content)
    ++ m.noted [(m.injector.ensure content path).event]
  match unified? path content after with
  | none => none
  | some diff =>
    let r := { m.resultOf path content with diff }
    if m.dry then some ⟨t, found ++ m.reportOf r, .ok r⟩
    else
      match m.store.write t path after with
      | .error f => some ⟨t, found, .error (.writing path f)⟩
      | .ok t =>
        some ⟨t, found ++ m.noted [FileStore.writtenEvent path after] ++ m.reportOf r, .ok r⟩

/-- Processes the file at a path, if there is a line for each number of its diff. -/
def process? (m : Migration) (t : FileTree) (path : Text) : Option Processed :=
  match m.store.contains t path with
  | .error f => some ⟨t, {}, .error (.checking path f)⟩
  | .ok false => some (m.leave t path .missing)
  | .ok true =>
    match m.store.read t path with
    | .error f => some ⟨t, {}, .error (.reading path f)⟩
    | .ok content =>
      if (m.substitution.scan content).isEmpty then some (m.leave t path .unchanged)
      else m.change? t path content

/-- Processes the files from number `k` on, up to the first fault, if there is a line for each
number of their diffs. -/
def runFrom? (m : Migration) (stop : Option Nat) :
    (k : Nat) → List Text → Progress → Option (Progress × Option RunFault)
  | _, [], s => some (s, none)
  | k, path :: rest, s =>
    if isStopped stop k then some (s, some .cancelled)
    else
      match m.process? s.tree path with
      | none => none
      | some p =>
        match p.outcome with
        | .ok _ => runFrom? m stop (k + 1) rest (s.after p)
        | .error f => some (s.after p, some (.processing path f))

/-- A run on a tree, if there is a line for each number of its diffs. -/
def run? (m : Migration) (t : FileTree) (records : List FileRecord) (stop : Option Nat) :
    Option RunOutcome :=
  let (events, expanded) := m.plan.expand t m.root
  match expanded with
  | .error f => some ⟨t, m.noted events, records, none, some (.expansion f)⟩
  | .ok files =>
    match m.runFrom? stop 0 files { tree := t, told := m.noted events ++ m.opening files } with
    | none => none
    | some (s, some f) => some ⟨s.tree, s.told, s.records, some s.summary, some f⟩
    | some (s, none) =>
      some ⟨s.tree, s.told ++ Summary.tell m.console s.records m.dry, s.records, some s.summary,
        none⟩

theorem change?_eq_some (m : Migration) (t : FileTree) (path content : Text) :
    m.change? t path content = some (m.change t path content) := by
  rw [change?, change, unified?_eq_some]
  dsimp only
  cases m.dry with
  | true => rfl
  | false =>
    cases m.store.write t path (m.migrated path content).content with
    | error f => rfl
    | ok t' => rfl

/-- **No file is given up over its diff.** -/
theorem process?_eq_some (m : Migration) (t : FileTree) (path : Text) :
    m.process? t path = some (m.process t path) := by
  rw [process?, process]
  cases m.store.contains t path with
  | error f => rfl
  | ok b =>
    cases b with
    | false => rfl
    | true =>
      dsimp only
      cases m.store.read t path with
      | error f => rfl
      | ok content =>
        dsimp only
        split
        · rfl
        · exact m.change?_eq_some t path content

theorem runFrom?_eq_some (m : Migration) (stop : Option Nat) : ∀ (files : List Text) (k : Nat)
    (s : Progress), m.runFrom? stop k files s = some (m.runFrom stop k files s) := by
  intro files
  induction files with
  | nil => intro k s; rfl
  | cons path rest ih =>
    intro k s
    rw [runFrom?, runFrom]
    split
    · rfl
    · rw [process?_eq_some]
      dsimp only
      cases (m.process s.tree path).outcome with
      | error f => rfl
      | ok r => exact ih (k + 1) _

/-- **No run comes to an end over a diff.** -/
theorem run?_eq_some (m : Migration) (t : FileTree) (records : List FileRecord)
    (stop : Option Nat) : m.run? t records stop = some (m.run t records stop) := by
  rw [run?, run]
  obtain ⟨events, expanded⟩ := m.plan.expand t m.root
  cases expanded with
  | error f => rfl
  | ok files =>
    dsimp only
    rw [runFrom?_eq_some]
    generalize m.runFrom stop 0 files _ = done
    obtain ⟨s, fault⟩ := done
    cases fault with
    | none => rfl
    | some f => rfl

/-- **The look-ups of a diff stay in the table of lines**, for texts of any size.  Each number in
an edit is at most that of the last line, so the diff has a line for it, and no run, dry or not,
comes to an end over a diff. -/
theorem lookups_stay_in_table (before after : Text) :
    (∀ e ∈ numberScript before after, ∀ p ∈ splitOn [','.toUInt8] e.text, p ≠ [] →
      (∀ b ∈ p, isDigit b = true) ∧ ofDigits p ≤ (table before after).length) ∧
    changes? before after = some (changes before after) ∧
    ∀ (m : Migration) (t : FileTree),
      (∀ path, m.process? t path = some (m.process t path)) ∧
      ∀ records stop, m.run? t records stop = some (m.run t records stop) := by
  refine ⟨fun e he p hp hne => ?_, changes?_eq_some before after, fun m t => ?_⟩
  · exact ofDigits_le_length_table he hp hne
  · exact ⟨m.process?_eq_some t, m.run?_eq_some t⟩

/-- Numbers of two digits are cut: of 10 and 11 the digit 1 is kept, and of 12 the digit 2. -/
theorem lookups_stay_in_table_cut :
    let before := lit "a\nb\nc\nd\ne\nf\ng\nh\ni\nj\nk\nl\n"
    let after := lit "k\na\nb\n"
    let front := lit ",2,3,4,5,6,7,8,9,"
    (table before after).length = 12 ∧
      numberScript before after = [.keep (lit "1"), .delete front, .keep (lit "1"),
        .delete (lit "0"), .keep (lit ",1"), .delete (lit "1"), .keep (lit ","),
        .delete (lit "1"), .keep (lit "2")] ∧
      (∀ p ∈ splitOn [','.toUInt8] front, p ≠ [] → ofDigits p ≤ 12) ∧
      changes? before after = some (changes before after) ∧
      (changes before after).length = 10 := by
  intro before after front
  have hlen : (table before after).length = 12 := by decide +kernel
  have hscript : numberScript before after = [.keep (lit "1"), .delete front, .keep (lit "1"),
      .delete (lit "0"), .keep (lit ",1"), .delete (lit "1"), .keep (lit ","),
      .delete (lit "1"), .keep (lit "2")] := by decide +kernel
  obtain ⟨hle, hchanges, -⟩ := lookups_stay_in_table before after
  refine ⟨hlen, hscript, fun p hp hne => ?_, hchanges, by decide +kernel⟩
  rw [← hlen]
  exact (hle (.delete front) (by rw [hscript]; simp) p hp hne).2

end Migration

end DateDisplay
