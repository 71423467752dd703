import DateDisplay.Proofs.LineNumbers
import DateDisplay.Proofs.Rows

/-!
# New statements in files with mixed line endings

A file that has both kinds of line endings is cut at the longer one only, so a piece may be many
lines long.  Whether an import starts is looked up at the front of each piece, and the new
statement goes behind the last piece that has one there.

If each import is complete on its line, the statement comes to stand directly behind the
last import as long as all endings are of one kind.  In a file with mixed endings it does so
exactly if the last piece that has an import in it has one on its first line and one on its last
(`added_statement_follows_imports_iff`).  Otherwise code may stand between the imports and the
statement (`added_statement_goes_behind_code`).
-/

namespace DateDisplay

open Text

namespace Placement

/-! ### The first line of a piece -/

theorem quoteAhead_append {s : Text} (h : quoteAhead s = true) (t : Text) :
    quoteAhead (s ++ t) = true := by
  rw [quoteAhead] at h
  split at h
  · rename_i b u hd
    have hs : (s ++ t).dropWhile isGap = b :: (u ++ t) := by
      rw [List.dropWhile_append, hd]
      rfl
    rw [quoteAhead, hs]
    exact h
  · cases h

theorem wordThenQuote_append {word s : Text} (h : wordThenQuote word s = true) (t : Text) :
    wordThenQuote word (s ++ t) = true := by
  rw [wordThenQuote] at h
  split at h
  · rename_i rest hs
    rw [strip?_eq_some_iff] at hs
    rw [wordThenQuote, hs, List.append_assoc, strip?_append]
    exact quoteAhead_append h t
  · cases h

theorem fromQuoteWithin_append (t : Text) : ∀ {s : Text} {inWord : Bool},
    fromQuoteWithin inWord s = true → fromQuoteWithin inWord (s ++ t) = true := by
  intro s
  induction s with
  | nil => intro inWord h; cases h
  | cons b s ih =>
    intro inWord h
    rw [fromQuoteWithin, Bool.or_eq_true, Bool.and_eq_true] at h
    rw [List.cons_append, fromQuoteWithin, Bool.or_eq_true, Bool.and_eq_true]
    exact h.imp (And.imp_right fun hw => wordThenQuote_append hw t) ih

theorem endsImport_append {s : Text} (h : endsImport s = true) (t : Text) :
    endsImport (s ++ t) = true := by
  rw [endsImport, Bool.or_eq_true] at h ⊢
  exact h.imp (fun hw => wordThenQuote_append hw t) (fromQuoteWithin_append t)

theorem exists_of_startsImport {s : Text} (h : startsImport s = true) :
    ∃ b t, s = lit "import" ++ b :: t := by
  rw [startsImport] at h
  split at h
  · rename_i b t hs
    exact ⟨b, t, strip?_eq_some_iff.mp hs⟩
  · cases h

theorem startsImport_append_lf {r : Text} (hr : r ≠ lit "import") (t : Text) :
    startsImport (r ++ 10 :: t) = startsImport r := by
  by_cases hlen : 7 ≤ r.length
  · exact startsImport_append hlen _
  · have hword : (lit "import").length = 6 := by decide
    have hshort : startsImport r = false := by
      rw [← Bool.not_eq_true]
      intro h
      obtain ⟨b, u, rfl⟩ := exists_of_startsImport h
      rw [List.length_append, hword, List.length_cons] at hlen
      omega
    rw [hshort, ← Bool.not_eq_true]
    intro h
    obtain ⟨b, u, hs⟩ := exists_of_startsImport h
    rcases List.append_eq_append_iff.mp hs with ⟨a, ha, hb⟩ | ⟨a, rfl, hb⟩
    · cases a with
      | nil => exact hr (by rw [ha, List.append_nil])
      | cons x a =>
        obtain ⟨rfl, -⟩ := List.cons.inj hb
        have hten : (10 : UInt8) ∈ lit "import" := by rw [ha]; simp
        exact absurd hten (by decide)
    · cases a with
      | nil => exact hr (List.append_nil _)
      | cons x a =>
        rw [List.length_append, hword, List.length_cons] at hlen
        omega

/-- A piece without carriage returns in its endings is its first row, or goes on behind a line
feed. -/
theorem piece_cases {piece r : Text} {rs : List Text} (h : ¬[13, 10] <:+: piece)
    (hr : rows piece = r :: rs) : piece = r ∨ ∃ t, piece = r ++ 10 :: t := by
  have hjoin := @join_splitOn [10] (by simp) piece
  rw [← rows_eq_splitOn h, hr] at hjoin
  by_cases hrs : rs = []
  · rw [hrs, join_singleton] at hjoin
    exact Or.inl hjoin.symm
  · rw [join_cons hrs, List.append_assoc] at hjoin
    exact Or.inr ⟨_, hjoin.symm⟩

/-! ### The last piece with an import at its front -/

/-- No piece of the file has the bare word `import` for its first line. -/
def NoBareImport (content : Text) : Prop :=
  ∀ piece ∈ splitOn (lineEnding content) content, ¬lit "import" ++ [10] <+: piece

/-- Each line that starts an import is a whole import. -/
def Complete (content : Text) : Prop :=
  ∀ row ∈ rows content, startsImport row = true → endsImport row = true

theorem mem_rows_of_piece {content piece row : Text}
    (hpiece : piece ∈ splitOn (lineEnding content) content) (hrow : row ∈ rows piece) :
    row ∈ rows content := by
  rw [rows_eq_flatMap, List.mem_flatMap]
  exact ⟨piece, hpiece, hrow⟩

/-- An import is seen at the front of a piece exactly if the first line of the piece is one. -/
theorem startsImport_piece {content piece r : Text} {rs : List Text} (hbare : NoBareImport content)
    (hpiece : piece ∈ splitOn (lineEnding content) content) (hr : rows piece = r :: rs) :
    startsImport piece = startsImport r := by
  rcases piece_cases (not_crlf_of_mem_pieces hpiece) hr with rfl | ⟨t, rfl⟩
  · rfl
  · refine startsImport_append_lf ?_ t
    rintro rfl
    exact hbare _ hpiece ⟨t, by simp⟩

theorem not_startsImport_piece {content piece : Text} (hbare : NoBareImport content)
    (hpiece : piece ∈ splitOn (lineEnding content) content)
    (h : ∀ row ∈ rows piece, startsImport row = false) : startsImport piece = false := by
  obtain ⟨r, rs, hr⟩ := List.exists_cons_of_ne_nil (rows_ne_nil piece)
  rw [startsImport_piece hbare hpiece hr]
  exact h r (by rw [hr]; simp)

theorem endsImport_piece {content piece : Text} (hbare : NoBareImport content)
    (hcomplete : Complete content) (hpiece : piece ∈ splitOn (lineEnding content) content)
    (h : startsImport piece = true) : endsImport piece = true := by
  obtain ⟨r, rs, hr⟩ := List.exists_cons_of_ne_nil (rows_ne_nil piece)
  have hrow : r ∈ rows content := mem_rows_of_piece hpiece (by rw [hr]; simp)
  rw [startsImport_piece hbare hpiece hr] at h
  have hend := hcomplete r hrow h
  rcases piece_cases (not_crlf_of_mem_pieces hpiece) hr with rfl | ⟨t, rfl⟩
  · exact hend
  · exact endsImport_append hend _

theorem importsEnd_of_last {pre post : List Text} {line : Text} (h : startsImport line = true)
    (hend : endsImport line = true) (hpost : ∀ l ∈ post, startsImport l = false) :
    importsEnd (pre ++ line :: post) = pre.length + 1 := by
  obtain ⟨last, hl⟩ := importsEndFrom_visits h post pre 0 0 0 (Nat.zero_le _)
  have hspan : span line post = 0 := by rw [span, hend]; rfl
  rw [importsEnd, hl, importsEndFrom, if_pos h, hspan, importsEndFrom_of_none hpost, Nat.zero_add]

theorem exists_last {p : Text → Bool} : ∀ {ls : List Text}, (∃ l ∈ ls, p l = true) →
    ∃ pre l post, ls = pre ++ l :: post ∧ p l = true ∧ ∀ k ∈ post, p k = false := by
  intro ls
  induction ls with
  | nil => rintro ⟨l, hl, -⟩; cases hl
  | cons a ls ih =>
    rintro ⟨l, hl, hp⟩
    by_cases hlater : ∃ l ∈ ls, p l = true
    · obtain ⟨pre, l, post, rfl, hl, hpost⟩ := ih hlater
      exact ⟨a :: pre, l, post, rfl, hl, hpost⟩
    · have hnone : ∀ k ∈ ls, p k = false := by simpa using hlater
      rcases List.mem_cons.mp hl with rfl | hl
      · exact ⟨[], l, ls, rfl, hp, hnone⟩
      · exact absurd ⟨l, hl, hp⟩ hlater

/-! ### Directly behind the last import -/

/-- The statement stands on the line directly behind the last line of the file that starts
an import, or on the first line if there is none.  There are `k` lines before it. -/
def FollowsImports (content statement result : Text) : Prop :=
  ∃ k ≤ (rows content).length,
    (∀ row ∈ ((rows content).take k).getLast?, startsImport row = true) ∧
    (∀ row ∈ (rows content).drop k, startsImport row = false) ∧
    (rows result).drop k = statement :: (rows content).drop k

instance (content statement result : Text) :
    Decidable (FollowsImports content statement result) :=
  inferInstanceAs (Decidable (∃ k ≤ _, _))

theorem le_of_drop_eq {l xs ys : List Text} {x : Text} {j k : Nat} (hj : l.drop j = x :: xs)
    (hk : l.drop k = x :: ys) (hx : x ∉ xs) : k ≤ j := by
  by_contra hlt
  obtain ⟨m, rfl⟩ : ∃ m, k = j + (m + 1) := ⟨k - j - 1, by omega⟩
  rw [← List.drop_drop, hj, List.drop_succ_cons] at hk
  exact hx (List.mem_of_mem_drop (by rw [hk]; simp))

theorem followsImports_iff {content statement result : Text} {before behind : List Text}
    (hnew : statement ∉ rows content) (hrows : rows content = before ++ behind)
    (hresult : (rows result).drop before.length = statement :: behind) :
    FollowsImports content statement result ↔
      (∀ row ∈ before.getLast?, startsImport row = true) ∧
        ∀ row ∈ behind, startsImport row = false := by
  constructor
  · rintro ⟨k, -, hlast, hnone, hk⟩
    have hbehind : statement ∉ behind := fun h => hnew (by rw [hrows]; simp [h])
    have hdrop : statement ∉ (rows content).drop k := fun h => hnew (List.mem_of_mem_drop h)
    obtain rfl : k = before.length :=
      Nat.le_antisymm (le_of_drop_eq hresult hk hbehind) (le_of_drop_eq hk hresult hdrop)
    rw [hrows, List.take_left] at hlast
    rw [hrows, List.drop_left] at hnone
    exact ⟨hlast, hnone⟩
  · rintro ⟨hlast, hnone⟩
    refine ⟨before.length, ?_, ?_, ?_, ?_⟩
    · rw [hrows, List.length_append]
      omega
    · rwa [hrows, List.take_left]
    · rwa [hrows, List.drop_left]
    · rw [hresult, hrows, List.drop_left]

/-- The file has no import, or the last piece of it that has an import in it has one on its first
line and one on its last. -/
def InStep (content : Text) : Prop :=
  (∀ row ∈ rows content, startsImport row = false) ∨
    ∃ pre piece post, splitOn (lineEnding content) content = pre ++ piece :: post ∧
      (∃ first ∈ (rows piece).head?, startsImport first = true) ∧
      (∃ last ∈ (rows piece).getLast?, startsImport last = true) ∧
      ∀ l ∈ post, ∀ row ∈ rows l, startsImport row = false

theorem inStep_of_even {content : Text} (h : Even (lineEnding content) content) :
    NoBareImport content ∧ InStep content := by
  have hlines := notMem_of_mem_lines (lineEnd_lineEnding content) h
  constructor
  · intro piece hpiece hp
    exact hlines piece hpiece (hp.subset (by simp))
  · by_cases hsome : ∃ l ∈ splitOn (lineEnding content) content, startsImport l = true
    · obtain ⟨pre, piece, post, hpieces, himport, hpost⟩ := exists_last hsome
      have hrows : ∀ l ∈ piece :: post, rows l = [l] :=
        fun l hl => rows_of_notMem (hlines l (by rw [hpieces]; simp_all))
      rw [List.forall_mem_cons] at hrows
      refine Or.inr ⟨pre, piece, post, hpieces, ?_, ?_, fun l hl row hrow => ?_⟩
      · rw [hrows.1]
        exact ⟨piece, rfl, himport⟩
      · rw [hrows.1]
        exact ⟨piece, rfl, himport⟩
      · rw [hrows.2 l hl, List.mem_singleton] at hrow
        rw [hrow]
        exact hpost l hl
    · refine Or.inl fun row hrow => ?_
      rw [rows_eq_flatMap, flatMap_rows_of_notMem hlines] at hrow
      simpa using fun himport => hsome ⟨row, hrow, himport⟩

theorem rowsBefore_of_none {content : Text}
    (h : ∀ piece ∈ splitOn (lineEnding content) content, startsImport piece = false) :
    rowsBefore content = [] := by
  have hplace : place content = 0 := (importsEnd_eq_zero_iff _).mpr h
  rw [rowsBefore, hplace]
  rfl

section Last

variable {content : Text} (hbare : NoBareImport content) (hcomplete : Complete content)
  {pre post : List Text} {piece : Text}
  (hpieces : splitOn (lineEnding content) content = pre ++ piece :: post)
  (himport : startsImport piece = true) (hpost : ∀ l ∈ post, startsImport l = false)

include hbare hcomplete hpieces himport hpost

theorem place_of_last : place content = pre.length + 1 := by
  have hpiece : piece ∈ splitOn (lineEnding content) content := by rw [hpieces]; simp
  rw [place, hpieces]
  exact importsEnd_of_last himport (endsImport_piece hbare hcomplete hpiece himport) hpost

theorem getLast?_rowsBefore : (rowsBefore content).getLast? = (rows piece).getLast? := by
  rw [rowsBefore, place_of_last hbare hcomplete hpieces himport hpost, hpieces,
    List.take_length_add_append, List.take_succ_cons, List.take_zero, List.flatMap_append,
    List.flatMap_singleton, List.getLast?_append_of_ne_nil _ (rows_ne_nil piece)]

theorem rowsBehind_eq : rowsBehind content = post.flatMap rows := by
  rw [rowsBehind, place_of_last hbare hcomplete hpieces himport hpost, hpieces,
    List.drop_length_add_append]
  rfl

end Last

/-- **The place is directly behind the last import exactly if the imports are in step with the
pieces** that the file is cut into. -/
theorem split_at_place_iff {content : Text} (hbare : NoBareImport content)
    (hcomplete : Complete content) :
    ((∀ row ∈ (rowsBefore content).getLast?, startsImport row = true) ∧
      ∀ row ∈ rowsBehind content, startsImport row = false) ↔ InStep content := by
  constructor
  · rintro ⟨hlast, hnone⟩
    by_cases hsome : ∃ l ∈ splitOn (lineEnding content) content, startsImport l = true
    · obtain ⟨pre, piece, post, hpieces, himport, hpost⟩ := exists_last hsome
      have hpiece : piece ∈ splitOn (lineEnding content) content := by rw [hpieces]; simp
      obtain ⟨r, rs, hr⟩ := List.exists_cons_of_ne_nil (rows_ne_nil piece)
      rw [getLast?_rowsBefore hbare hcomplete hpieces himport hpost] at hlast
      rw [rowsBehind_eq hbare hcomplete hpieces himport hpost] at hnone
      rw [startsImport_piece hbare hpiece hr] at himport
      have hend := List.getLast?_eq_some_getLast (rows_ne_nil piece)
      exact Or.inr ⟨pre, piece, post, hpieces, ⟨r, by rw [hr]; rfl, himport⟩,
        ⟨_, hend, hlast _ hend⟩,
        fun l hl row hrow => hnone row (List.mem_flatMap.mpr ⟨l, hl, hrow⟩)⟩
    · have hbefore := rowsBefore_of_none (by simpa using hsome)
      rw [← List.nil_append (rowsBehind content), ← hbefore, ← rows_eq_append] at hnone
      exact Or.inl hnone
  · rintro (hnone | ⟨pre, piece, post, hpieces, ⟨r, hr, hrimport⟩, ⟨last, hlast, hlimport⟩, hpost⟩)
    · have hbefore := rowsBefore_of_none fun l hl =>
        not_startsImport_piece hbare hl fun row hrow => hnone row (mem_rows_of_piece hl hrow)
      rw [rows_eq_append, hbefore, List.nil_append] at hnone
      rw [hbefore]
      exact ⟨by simp, hnone⟩
    · have hmem : ∀ l ∈ piece :: post, l ∈ splitOn (lineEnding content) content := by
        intro l hl
        rw [hpieces]
        exact List.mem_append_right pre hl
      rw [List.forall_mem_cons] at hmem
      obtain ⟨rs, hrs⟩ := List.head?_eq_some_iff.mp hr
      have himport : startsImport piece = true := by
        rw [startsImport_piece hbare hmem.1 hrs, hrimport]
      have hpost' : ∀ l ∈ post, startsImport l = false :=
        fun l hl => not_startsImport_piece hbare (hmem.2 l hl) (hpost l hl)
      rw [getLast?_rowsBefore hbare hcomplete hpieces himport hpost', hlast,
        rowsBehind_eq hbare hcomplete hpieces himport hpost']
      refine ⟨by simpa using hlimport, fun row hrow => ?_⟩
      obtain ⟨l, hl, hrow⟩ := List.mem_flatMap.mp hrow
      exact hpost l hl row hrow

end Placement

namespace Injector

open Placement

theorem not_occurs_of_added {i : Injector} {content file : Text}
    (h : (i.ensure content file).action = .added) : ¬i.helper <:+: content := by
  rw [ensure] at h
  split at h
  · cases h
  · rename_i hocc
    rwa [occurs_iff_isInfix] at hocc

theorem statement_notMem_rows {i : Injector} {content file : Text}
    (h : (i.ensure content file).action = .added) :
    Declaration.statement i.helper (i.paths.resolve file) ∉ rows content := by
  intro hmem
  refine not_occurs_of_added h (List.IsInfix.trans ?_ ((infix_rows content).2 _ hmem))
  exact ⟨lit "import \x7b ", lit " \x7d from '" ++ i.paths.resolve file ++ lit "';", by
    simp [Declaration.statement]⟩

/-- **A new statement comes directly behind the last import if all line endings are of one kind.**
In a file with mixed endings it does so exactly if the imports are in step with the pieces that
the file is cut into. -/
theorem added_statement_follows_imports_iff {i : Injector} {content file : Text}
    (h : (i.ensure content file).action = .added)
    (hline : 10 ∉ Declaration.statement i.helper (i.paths.resolve file))
    (hcomplete : ∀ row ∈ rows content, startsImport row = true → endsImport row = true) :
    let statement := Declaration.statement i.helper (i.paths.resolve file)
    let result := (i.ensure content file).content
    (Even (lineEnding content) content → FollowsImports content statement result) ∧
      (NoBareImport content →
        (FollowsImports content statement result ↔ InStep content)) := by
  intro statement result
  have hresult : result = insert content statement := ensure_added h
  have hcr : ∀ w, statement ≠ w ++ [13] := by
    intro w hw
    obtain ⟨-, hlast⟩ := List.append_inj' ((Declaration.statement_eq 0 _ _).symm.trans hw) rfl
    exact absurd hlast (by decide)
  have hdrop := @drop_rows_insert content statement hline hcr
  rw [← hresult] at hdrop
  have hiff : NoBareImport content → (FollowsImports content statement result ↔ InStep content) :=
    fun hbare => (followsImports_iff (statement_notMem_rows h) (rows_eq_append content) hdrop).trans
      (split_at_place_iff hbare hcomplete)
  refine ⟨fun heven => ?_, hiff⟩
  obtain ⟨hbare, hstep⟩ := inStep_of_even heven
  exact (hiff hbare).mpr hstep

/-- Two imports with a line feed between them in one piece, and code in the next. -/
theorem added_statement_follows_mixed_imports :
    let i : Injector := .ofOptions [] [] [] none
    let imports := lit "import a from 'a';\nimport b from 'b';"
    let code := lit "const x = 1;\nnew Date(d).toLocaleDateString('pt-BR');\n"
    let content := imports ++ lit "\r\n" ++ code
    let statement := lit "import \x7b dbDateToDisplay \x7d from '../utils/dateUtils';"
    (i.ensure content []).action = .added ∧
      (∀ row ∈ rows content, startsImport row = true → endsImport row = true) ∧
      (i.ensure content []).content
        = imports ++ lit "\r\n" ++ statement ++ lit "\r\n" ++ code ∧
      FollowsImports content statement (i.ensure content []).content := by
  intro i imports code content statement
  have ha : (i.ensure content []).action = .added := by decide +kernel
  have hcomplete : ∀ row ∈ rows content, startsImport row = true → endsImport row = true := by
    decide +kernel
  have hpieces : splitOn (lineEnding content) content = [imports, code] := by decide +kernel
  have hbare : NoBareImport content := by
    rw [NoBareImport, hpieces]
    decide +kernel
  have hstep : InStep content := by
    refine Or.inr ⟨[], imports, [code], hpieces, ?_, ?_, by decide +kernel⟩
    · exact ⟨lit "import a from 'a';", by decide +kernel, by decide +kernel⟩
    · exact ⟨lit "import b from 'b';", by decide +kernel, by decide +kernel⟩
  have hline : 10 ∉ Declaration.statement i.helper (i.paths.resolve []) := by decide +kernel
  exact ⟨ha, hcomplete, by decide +kernel,
    ((added_statement_follows_imports_iff ha hline hcomplete).2 hbare).mpr hstep⟩

/-- **A new statement may go behind code.**  The second import and the call after it are one piece
of the file, because there is no carriage return between them. -/
theorem added_statement_goes_behind_code :
    let i : Injector := .ofOptions [] [] [] none
    let file := lit "src/components/Debts.tsx"
    let content := lit "import a from 'a';\r\nimport b from 'b';\n"
      ++ lit "new Date(d).toLocaleDateString('pt-BR');\n"
    let statement := lit "import \x7b dbDateToDisplay \x7d from '../utils/dateUtils';"
    (∀ row ∈ rows content, startsImport row = true → endsImport row = true) ∧
      (i.ensure content file).action = .added ∧
      (i.ensure content file).content = content ++ lit "\r\n" ++ statement ∧
      ¬FollowsImports content statement (i.ensure content file).content := by
  decide +kernel

end Injector

end DateDisplay
