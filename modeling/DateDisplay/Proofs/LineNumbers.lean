import DateDisplay.Proofs.Addition

/-!
# The place of a new statement, by line numbers

The place for a new statement can be found by going through the lines by their numbers.
Each time an import is met, its end is looked up and the count jumps behind it.  Such a
count asks for lines by number and cuts the list at the number that it arrives at, so it
has an answer only if these are numbers of lines.  The functions of this file keep watch
over that: `lineCount?`, for instance, is `none` as soon as a line is asked for that is
not there, or the count is sent back.

`insert?_eq_some` says that this never happens, and that the file comes out as `insert`
makes it.  `added_statement_splits_content` says where in the bytes of the file the new
statement then stands.
-/

namespace DateDisplay

open Text

namespace Placement

/-! ### Going through the lines by number -/

/-- The number of the line on which an open list ends, from line `j` on, for an import on
line `n`. -/
def openListEnd? (lines : List Text) (n j : Nat) : Option Nat :=
  if j < lines.length then
    match lines[j]? with
    | none => none
    | some line =>
      if isBlank line || startsImport line then some n
      else if !line.contains '}'.toUInt8 then openListEnd? lines n (j + 1)
      else if !endsImport line && j + 1 < lines.length then
        match lines[j + 1]? with
        | none => none
        | some next => some (if startsFromClause next then j + 1 else j)
      else some j
  else some n
termination_by lines.length - j

/-- The number of the line on which the import that starts on line `n` ends. -/
def statementEnd? (lines : List Text) (n : Nat) : Option Nat :=
  match lines[n]? with
  | none => none
  | some line =>
    if endsImport line || !opensBrace line then some n else openListEnd? lines n (n + 1)

/-- The number of lines up to the end of the last import, from line `n` on.  `last` is the
answer for the lines before. -/
def lineCount? (lines : List Text) (last n : Nat) : Option Nat :=
  if n < lines.length then
    match lines[n]? with
    | none => none
    | some line =>
      if startsImport line then
        match statementEnd? lines n with
        | none => none
        | some stop => if n ≤ stop then lineCount? lines (stop + 1) (stop + 1) else none
      else lineCount? lines last (n + 1)
  else some last
termination_by lines.length - n

/-- The file with `statement` on a line of its own after its imports, unless the lines
cannot be cut there. -/
def insert? (content statement : Text) : Option Text :=
  let eol := lineEnding content
  let lines := splitOn eol content
  match lineCount? lines 0 0 with
  | none => none
  | some place =>
    if place ≤ lines.length then
      some (join eol (lines.take place ++ statement :: lines.drop place))
    else none

/-! ### No line is asked for that is not there -/

theorem openListEnd?_eq (lines : List Text) {n j behind : Nat} (hj : j = n + 1 + behind) :
    openListEnd? lines n j = some (n + openListSpan behind (lines.drop j)) := by
  fun_induction openListEnd? lines n j generalizing behind with
  | case1 j h hnone =>
    rw [List.getElem?_eq_none_iff] at hnone
    omega
  | case2 j h line hline hstop =>
    obtain ⟨_, rfl⟩ := List.getElem?_eq_some_iff.mp hline
    rw [List.drop_eq_getElem_cons h, openListSpan, if_pos hstop]
    rfl
  | case3 j h line hline hgo hbrace ih =>
    obtain ⟨_, rfl⟩ := List.getElem?_eq_some_iff.mp hline
    have hnext : j + 1 = n + 1 + (behind + 1) := by omega
    rw [ih hnext, List.drop_eq_getElem_cons h, openListSpan, if_neg hgo, if_pos hbrace]
  | case4 j h line hline hgo hbrace hnext hnone =>
    rw [Bool.and_eq_true, decide_eq_true_eq] at hnext
    rw [List.getElem?_eq_none_iff] at hnone
    omega
  | case5 j h line hline hgo hbrace hnext next hat =>
    obtain ⟨_, rfl⟩ := List.getElem?_eq_some_iff.mp hline
    rw [Bool.and_eq_true] at hnext
    rw [List.drop_eq_getElem_cons h, openListSpan, if_neg hgo, if_neg hbrace, hnext.1,
      List.head?_drop, hat, Option.map_some, Option.getD_some, Bool.true_and]
    split
    · congr 1
      omega
    · congr 1
      omega
  | case6 j h line hline hgo hbrace hnext =>
    obtain ⟨_, rfl⟩ := List.getElem?_eq_some_iff.mp hline
    rw [List.drop_eq_getElem_cons h, openListSpan, if_neg hgo, if_neg hbrace, if_neg]
    · congr 1
      omega
    · -- without a next line there is no `from` clause on it
      intro hfrom
      rw [Bool.and_eq_true, List.head?_drop] at hfrom
      refine hnext (Bool.and_eq_true _ _ ▸ ⟨hfrom.1, decide_eq_true ?_⟩)
      by_contra hlt
      rw [List.getElem?_eq_none (by omega)] at hfrom
      exact absurd hfrom.2 (by simp)
  | case7 j h =>
    rw [List.drop_eq_nil_of_le (by omega)]
    rfl

theorem openListSpan_le_length : ∀ (ls : List Text) (behind : Nat),
    openListSpan behind ls ≤ behind + ls.length := by
  intro ls
  induction ls with
  | nil => intro behind; exact Nat.zero_le _
  | cons l ls ih =>
    intro behind
    have hnext := ih (behind + 1)
    have hfrom : (ls.head?.map startsFromClause).getD false = true → 0 < ls.length := by
      cases ls with
      | nil => intro h; cases h
      | cons k ks => intro _; exact Nat.succ_pos _
    rw [openListSpan, List.length_cons]
    split
    · omega
    · split
      · omega
      · split
        · rename_i hf
          have := hfrom (Bool.and_eq_true _ _ ▸ hf).2
          omega
        · omega

theorem span_le_length (line : Text) (rest : List Text) : span line rest ≤ rest.length := by
  rw [span]
  split
  · exact Nat.zero_le _
  · have := openListSpan_le_length rest 0
    omega

theorem statementEnd?_eq {lines : List Text} {n : Nat} (h : n < lines.length) :
    statementEnd? lines n = some (n + span lines[n] (lines.drop (n + 1))) := by
  rw [statementEnd?, List.getElem?_eq_getElem h, span]
  dsimp only
  split
  · rfl
  · exact openListEnd?_eq lines rfl

/-- To pass lines one by one is to jump behind them. -/
theorem importsEndFrom_skip (last : Nat) : ∀ (skip number : Nat) (ls : List Text),
    importsEndFrom last number skip ls = importsEndFrom last (number + skip) 0 (ls.drop skip) := by
  intro skip
  induction skip with
  | zero => intro number ls; rfl
  | succ skip ih =>
    intro number ls
    cases ls with
    | nil => rfl
    | cons l ls =>
      rw [importsEndFrom, ih, List.drop_succ_cons, Nat.add_assoc, Nat.add_comm 1 skip]

theorem lineCount?_eq (lines : List Text) (last n : Nat) :
    lineCount? lines last n = some (importsEndFrom last n 0 (lines.drop n)) := by
  fun_induction lineCount? lines last n with
  | case1 last n h hnone =>
    rw [List.getElem?_eq_none_iff] at hnone
    omega
  | case2 last n h line hline himport hnone =>
    rw [statementEnd?_eq h] at hnone
    cases hnone
  | case3 last n h line hline himport stop hstop hle ih =>
    rw [statementEnd?_eq h, Option.some.injEq] at hstop
    obtain ⟨_, rfl⟩ := List.getElem?_eq_some_iff.mp hline
    -- the count jumps over the lines of the import, which are passed one by one here
    have hskip : n + 1 + span lines[n] (lines.drop (n + 1)) = stop + 1 := by omega
    rw [ih, List.drop_eq_getElem_cons h, importsEndFrom, if_pos himport]
    dsimp only
    rw [importsEndFrom_skip _ (span lines[n] (lines.drop (n + 1))), List.drop_drop, hskip, hstop]
  | case4 last n h line hline himport stop hstop hback =>
    rw [statementEnd?_eq h, Option.some.injEq] at hstop
    omega
  | case5 last n h line hline himport ih =>
    obtain ⟨_, rfl⟩ := List.getElem?_eq_some_iff.mp hline
    rw [ih, List.drop_eq_getElem_cons h, importsEndFrom, if_neg himport]
  | case6 last n h =>
    rw [List.drop_eq_nil_of_le (by omega)]
    rfl

theorem importsEndFrom_le_length : ∀ (ls : List Text) {last number skip : Nat},
    last ≤ number + ls.length → skip ≤ ls.length →
    importsEndFrom last number skip ls ≤ number + ls.length := by
  intro ls
  induction ls with
  | nil => intro last number skip h _; exact h
  | cons l ls ih =>
    intro last number skip h hskip
    rw [List.length_cons] at h hskip ⊢
    have hstep : number + (ls.length + 1) = number + 1 + ls.length := by omega
    rw [hstep]
    cases skip with
    | succ skip => exact ih (by omega) (by omega)
    | zero =>
      have hspan := span_le_length l ls
      rw [importsEndFrom]
      split
      · exact ih (by omega) hspan
      · exact ih (by omega) (Nat.zero_le _)

theorem importsEnd_le_length (lines : List Text) : importsEnd lines ≤ lines.length := by
  have h := importsEndFrom_le_length lines (Nat.zero_le (0 + lines.length)) (Nat.zero_le _)
  rwa [Nat.zero_add] at h

/-- **Every line that is asked for is there**, and the lines can be cut at the number that
the count arrives at. -/
theorem insert?_eq_some (content statement : Text) :
    insert? content statement = some (insert content statement) := by
  rw [insert?, lineCount?_eq]
  exact if_pos (importsEnd_le_length _)

/-! ### The imports before the place -/

theorem lt_importsEnd {lines : List Text} {k : Nat} {line : Text} (hk : lines[k]? = some line)
    (h : startsImport line = true) : k < importsEnd lines := by
  obtain ⟨hlt, rfl⟩ := List.getElem?_eq_some_iff.mp hk
  have hle := le_importsEnd h (lines.take k) (lines.drop (k + 1))
  rw [List.getElem_cons_drop hlt, List.take_append_drop, List.length_take] at hle
  omega

theorem importsEndFrom_of_none {ls : List Text} (h : ∀ l ∈ ls, startsImport l = false)
    (last : Nat) : ∀ number, importsEndFrom last number 0 ls = last := by
  induction ls with
  | nil => intro number; rfl
  | cons l ls ih =>
    intro number
    rw [List.forall_mem_cons] at h
    rw [importsEndFrom, h.1]
    exact ih h.2 (number + 1)

theorem importsEnd_eq_zero_iff (lines : List Text) :
    importsEnd lines = 0 ↔ ∀ line ∈ lines, startsImport line = false := by
  constructor
  · intro hzero line hline
    obtain ⟨k, hk⟩ := List.getElem?_of_mem hline
    by_contra himport
    have := lt_importsEnd hk (by simpa using himport)
    omega
  · intro h
    exact importsEndFrom_of_none h 0 0

theorem front_eq_nil_iff (content : Text) : front content = [] ↔ place content = 0 := by
  have hlines : splitOn (lineEnding content) content ≠ [] := splitFrom_ne_nil _ 0 content
  rw [front, ended_eq_nil_iff (lineEnd_lineEnding content).ne_nil, List.take_eq_nil_iff,
    or_iff_left hlines]

theorem insert_of_place_eq_zero {content : Text} (h : place content = 0) (statement : Text) :
    insert content statement = statement ++ (lineEnding content ++ content) := by
  have hlines : splitOn (lineEnding content) content ≠ [] := splitFrom_ne_nil _ 0 content
  have hjoin := join_splitOn (lineEnd_lineEnding content).ne_nil content
  show join (lineEnding content) ((splitOn (lineEnding content) content).take (place content)
    ++ statement :: (splitOn (lineEnding content) content).drop (place content)) = _
  rw [h, List.take_zero, List.drop_zero, List.nil_append, join_cons hlines, hjoin,
    List.append_assoc]

/-- **An insertion splits the file behind its front**, or comes behind the whole file, which
then has an import. -/
theorem insert_splits (content statement : Text) :
    (insert content statement = content ++ lineEnding content ++ statement ∧
      place content ≠ 0) ∨
    ∃ rest, content = front content ++ rest ∧
      insert content statement = front content ++ statement ++ lineEnding content ++ rest := by
  by_cases hzero : place content = 0
  · refine Or.inr ⟨content, ?_, ?_⟩
    · rw [(front_eq_nil_iff content).mpr hzero, List.nil_append]
    · rw [insert_of_place_eq_zero hzero, (front_eq_nil_iff content).mpr hzero, List.nil_append,
        List.append_assoc]
  · rcases insert_cases content statement with ⟨rest, hc, -, hins⟩ | hins
    · refine Or.inr ⟨rest, hc, ?_⟩
      rw [hins]
      simp only [List.append_assoc]
    · refine Or.inl ⟨?_, hzero⟩
      rw [hins, List.append_assoc]

end Placement

namespace Injector

open Placement

/-- **A new statement splits the file at the end of a line.**  The count over the lines has an
answer, behind every line that starts an import.  The statement stands there, with a line ending
on one side of it, and the file is otherwise as it was. -/
theorem added_statement_splits_content {i : Injector} {content file : Text}
    (h : (i.ensure content file).action = .added) :
    let statement := Declaration.statement i.helper (i.paths.resolve file)
    let eol : Text := if [13, 10] <:+: content then [13, 10] else [10]
    let lines := splitOn eol content
    let result := (i.ensure content file).content
    insert? content statement = some result ∧
    ∃ place, lineCount? lines 0 0 = some place ∧ place ≤ lines.length ∧
      result = join eol (lines.take place ++ statement :: lines.drop place) ∧
      (∀ k line, lines[k]? = some line → startsImport line = true → k < place) ∧
      ((result = content ++ eol ++ statement ∧ ∃ line ∈ lines, startsImport line = true) ∨
        ∃ p ≤ content.length, content.take p = ended eol (lines.take place) ∧
          (p = 0 ∨ eol <:+ content.take p) ∧
          (p = 0 ↔ ∀ line ∈ lines, startsImport line = false) ∧
          result = content.take p ++ statement ++ eol ++ content.drop p) := by
  rw [← lineEnding_eq content]
  intro statement eol lines result
  have hresult : result = insert content statement := ensure_added h
  have hnone : place content = 0 ↔ ∀ line ∈ lines, startsImport line = false :=
    importsEnd_eq_zero_iff lines
  refine ⟨hresult ▸ insert?_eq_some content statement, place content, lineCount?_eq lines 0 0,
    importsEnd_le_length lines, hresult, fun k line => lt_importsEnd, ?_⟩
  rw [hresult]
  rcases insert_splits content statement with ⟨hins, hne⟩ | ⟨rest, hc, hins⟩
  · refine Or.inl ⟨hins, ?_⟩
    rw [ne_eq, hnone] at hne
    simpa using hne
  · have htake : content.take (front content).length = front content := by
      nth_rewrite 2 [hc]
      exact List.take_left
    have hdrop : content.drop (front content).length = rest := by
      nth_rewrite 2 [hc]
      exact List.drop_left
    refine Or.inr ⟨(front content).length, ?_, htake, ?_, ?_, ?_⟩
    · rw [← htake]
      exact List.length_take_le' _ _
    · rw [htake, List.length_eq_zero_iff]
      exact (front_eq content).imp_right fun ⟨w, hw⟩ => ⟨w, hw.symm⟩
    · rw [List.length_eq_zero_iff, front_eq_nil_iff, hnone]
    · rw [htake, hdrop, hins]

/-- A list that is never closed, an import on the line behind it, and one whose `from` clause is
on a line of its own. -/
theorem added_statement_splits_content_sample :
    let i : Injector := ⟨lit "show", lit "dates", lit "toLocale", ⟨[], lit "./dates"⟩⟩
    let before := lit "import \x7b a,\r\nimport 'b';\r\nimport \x7b\r\n c\r\n\x7d\r\nfrom 'd';\r\n"
    let after := lit "\r\ntoLocale\nimported"
    let statement := lit "import \x7b show \x7d from './dates';"
    (i.ensure (before ++ after) []).action = .added ∧
      insert? (before ++ after) statement = some (before ++ statement ++ [13, 10] ++ after) ∧
      ∃ place, lineCount? (splitOn [13, 10] (before ++ after)) 0 0 = some place ∧
        ∀ k line, (splitOn [13, 10] (before ++ after))[k]? = some line →
          startsImport line = true → k < place := by
  intro i before after statement
  have ha : (i.ensure (before ++ after) []).action = .added := by decide +kernel
  have hresult : (i.ensure (before ++ after) []).content
      = before ++ statement ++ [13, 10] ++ after := by decide +kernel
  have hstatement : Declaration.statement i.helper (i.paths.resolve []) = statement := by
    decide +kernel
  have hcrlf : ([13, 10] : Text) <:+: before ++ after := by decide +kernel
  obtain ⟨hins, place, hplace, -, -, hlt, -⟩ := added_statement_splits_content ha
  rw [if_pos hcrlf] at hplace hlt
  rw [hstatement, hresult] at hins
  exact ⟨ha, hins, place, hplace, hlt⟩

end Injector

end DateDisplay
