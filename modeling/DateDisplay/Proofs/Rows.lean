import DateDisplay.Proofs.Placement

/-!
# Lines with either ending

A file may have lines that end with a line feed beside lines that end with a carriage return and
a line feed.  `rows` reads both as the ends of lines.

An insertion cuts the file at one of the endings only.  The pieces are made of whole rows, and the
rows of the file are those of the pieces in their order (`rows_eq_flatMap`).  A statement that is
put between two pieces is a row of its own behind all rows of the pieces before it
(`drop_rows_insert`).
-/

namespace DateDisplay

namespace Text

/-- The lines of a text, where a line ends with a line feed and a carriage return right before it
belongs to the ending. -/
def rows : Text → List Text
  | [] => [[]]
  | 13 :: 10 :: t => [] :: rows t
  | 10 :: t => [] :: rows t
  | b :: t =>
    match rows t with
    | [] => [[b]]
    | r :: rs => (b :: r) :: rs

theorem rows_crlf (t : Text) : rows (13 :: 10 :: t) = [] :: rows t := rfl

theorem rows_lf (t : Text) : rows (10 :: t) = [] :: rows t := rfl

theorem rows_ne_nil (s : Text) : rows s ≠ [] := by
  fun_cases rows s with
  | case1 => simp
  | case2 => simp
  | case3 => simp
  | case4 => simp
  | case5 => simp

theorem rows_cons {b : UInt8} {t r : Text} {rs : List Text} (hb : b ≠ 10)
    (hcrlf : ¬[13, 10] <+: b :: t) (ht : rows t = r :: rs) : rows (b :: t) = (b :: r) :: rs := by
  rw [rows, ht]
  · rintro u rfl rfl
    exact hcrlf ⟨u, rfl⟩
  · rintro rfl
    exact hb rfl

theorem infix_rows (s : Text) :
    (∀ r ∈ (rows s).head?, r <+: s) ∧ ∀ row ∈ rows s, row <:+: s := by
  fun_induction rows s with
  | case1 => simp
  | case2 s ih =>
    refine ⟨by simp, List.forall_mem_cons.mpr ⟨List.nil_infix, fun row hrow => ?_⟩⟩
    exact List.infix_cons (List.infix_cons (ih.2 row hrow))
  | case3 s ih =>
    refine ⟨by simp, List.forall_mem_cons.mpr ⟨List.nil_infix, fun row hrow => ?_⟩⟩
    exact List.infix_cons (ih.2 row hrow)
  | case4 b s hcr hlf hnil ih => exact absurd hnil (rows_ne_nil s)
  | case5 b s hcr hlf r rs hr ih =>
    rw [hr] at ih
    have hfirst : b :: r <+: b :: s := List.cons_prefix_cons.mpr ⟨rfl, ih.1 r rfl⟩
    refine ⟨by simpa using hfirst, List.forall_mem_cons.mpr ⟨hfirst.isInfix, fun row hrow => ?_⟩⟩
    exact List.infix_cons (ih.2 row (List.mem_cons_of_mem r hrow))

theorem rows_append_crlf (t : Text) : ∀ s : Text,
    rows (s ++ 13 :: 10 :: t) = rows s ++ rows t := by
  intro s
  fun_induction rows s with
  | case1 => rfl
  | case2 s ih => rw [List.cons_append, List.cons_append, rows_crlf, ih, List.cons_append]
  | case3 s ih => rw [List.cons_append, rows_lf, ih, List.cons_append]
  | case4 b s hcr hlf hnil ih => exact absurd hnil (rows_ne_nil s)
  | case5 b s hcr hlf r rs hr ih =>
    rw [hr, List.cons_append] at ih
    rw [List.cons_append]
    refine rows_cons hlf ?_ ih
    -- the byte before an ending with a carriage return is no part of it
    intro hp
    cases s with
    | nil => simp at hp
    | cons c s =>
      obtain ⟨rfl, rfl⟩ : b = 13 ∧ c = 10 := by simpa [eq_comm] using hp
      exact hcr s rfl rfl

theorem rows_join_crlf : ∀ {ps : List Text}, ps ≠ [] →
    rows (join [13, 10] ps) = ps.flatMap rows := by
  intro ps
  induction ps with
  | nil => intro h; exact absurd rfl h
  | cons p ps ih =>
    intro _
    by_cases hps : ps = []
    · subst hps
      simp
    · rw [join_cons hps, List.append_assoc, List.flatMap_cons, ← ih hps]
      exact rows_append_crlf _ p

/-! ### Line feeds only -/

theorem rows_of_notMem : ∀ {l : Text}, 10 ∉ l → rows l = [l] := by
  intro l
  induction l with
  | nil => intro _; rfl
  | cons b l ih =>
    intro h
    rw [List.mem_cons, not_or] at h
    refine rows_cons (Ne.symm h.1) ?_ (ih h.2)
    rintro ⟨u, hu⟩
    obtain ⟨-, rfl⟩ := List.cons.inj hu
    exact h.2 (by simp)

theorem exists_rows_append_lf (t : Text) : ∀ {l : Text}, 10 ∉ l → ∃ r,
    rows (l ++ 10 :: t) = r :: rows t ∧ (l = r ∨ l = r ++ [13]) := by
  intro l
  induction l with
  | nil => intro _; exact ⟨[], rows_lf t, Or.inl rfl⟩
  | cons b l ih =>
    intro h
    rw [List.mem_cons, not_or] at h
    by_cases hcr : [13, 10] <+: b :: (l ++ 10 :: t)
    · obtain ⟨rfl, rfl⟩ : b = 13 ∧ l = [] := by
        cases l with
        | nil => exact ⟨by simpa [eq_comm] using hcr, rfl⟩
        | cons c l =>
          obtain ⟨-, rfl⟩ : b = 13 ∧ c = 10 := by simpa [eq_comm] using hcr
          exact absurd (by simp) h.2
      exact ⟨[], rows_crlf t, Or.inr rfl⟩
    · obtain ⟨r, hr, hl⟩ := ih h.2
      exact ⟨b :: r, rows_cons (Ne.symm h.1) hcr hr, by simpa using hl⟩

theorem drop_rows_ended_lf (t : Text) : ∀ {ls : List Text}, (∀ l ∈ ls, 10 ∉ l) →
    (rows (ended [10] ls ++ t)).drop ls.length = rows t := by
  intro ls
  induction ls with
  | nil => intro _; rfl
  | cons l ls ih =>
    intro h
    rw [List.forall_mem_cons] at h
    obtain ⟨r, hr, -⟩ := exists_rows_append_lf (ended [10] ls ++ t) h.1
    rw [ended_cons, List.append_assoc, List.append_assoc, List.singleton_append, hr,
      List.length_cons, List.drop_succ_cons, ih h.2]

/-- Where no carriage return belongs to an ending, the rows are the pieces between line feeds. -/
theorem rows_eq_splitOn : ∀ {s : Text}, ¬[13, 10] <:+: s → rows s = splitOn [10] s := by
  intro s
  induction s with
  | nil => intro _; rfl
  | cons b s ih =>
    intro h
    rw [List.infix_cons_iff, not_or] at h
    by_cases hb : b = 10
    · subst hb
      rw [rows_lf, splitOn_cons_self, ih h.2]
    · obtain ⟨r, rs, hr⟩ := List.exists_cons_of_ne_nil (rows_ne_nil s)
      rw [rows_cons hb h.1 hr, splitOn_cons_of_ne hb (ih h.2 ▸ hr)]

theorem rows_join_lf {l : Text} {ls : List Text} (hl : 10 ∉ l) (hcr : ∀ w, l ≠ w ++ [13])
    (hls : ∀ k ∈ ls, 10 ∉ k) (hno : ¬[13, 10] <:+: join [10] ls) :
    rows (join [10] (l :: ls)) = l :: ls := by
  by_cases hnil : ls = []
  · rw [hnil, join_singleton, rows_of_notMem hl]
  · obtain ⟨r, hr, hlr⟩ := exists_rows_append_lf (join [10] ls) hl
    obtain rfl : l = r := hlr.resolve_right (hcr r)
    rw [join_cons hnil, List.append_assoc, List.singleton_append, hr, rows_eq_splitOn hno,
      splitOn_join hnil hls]

/-! ### Pieces -/

theorem infix_join_drop (sep : Text) (n : Nat) (ls : List Text) :
    join sep (ls.drop n) <:+: join sep ls := by
  by_cases hnil : ls.drop n = []
  · rw [hnil]
    exact List.nil_infix
  · have hjoin := @join_append sep _ hnil (ls.take n)
    rw [List.take_append_drop] at hjoin
    rw [hjoin]
    exact (List.suffix_append _ _).isInfix

theorem not_infix_of_mem_splitFrom {sep : Text} (h : sep ≠ []) (skip : Nat) (s : Text) :
    ∀ p ∈ splitFrom sep skip s, ¬sep <:+: p := by
  fun_induction splitFrom sep skip s with
  | case1 => simpa using h
  | case2 skip b t ih => exact ih
  | case3 b t hp ih => exact List.forall_mem_cons.mpr ⟨by simpa using h, ih⟩
  | case4 b t hp hnil ih => exact absurd hnil (splitFrom_ne_nil sep 0 t)
  | case5 b t hp p ps hps ih =>
    rw [hps, List.forall_mem_cons] at ih
    refine List.forall_mem_cons.mpr ⟨fun hin => ?_, ih.2⟩
    -- the first piece stands at the front, so a cut at its first byte was found before
    have hfront : p <+: t := by
      have hjoin := join_splitFrom sep 0 t h
      rw [hps, List.drop_zero] at hjoin
      by_cases hnil : ps = []
      · rw [← hjoin, hnil, join_singleton]
      · rw [← hjoin, join_cons hnil, List.append_assoc]
        exact List.prefix_append _ _
    rcases List.infix_cons_iff.mp hin with hin | hin
    · exact hp (List.isPrefixOf_iff_prefix.mpr
        (hin.trans (List.cons_prefix_cons.mpr ⟨rfl, hfront⟩)))
    · exact ih.1 hin

theorem flatMap_rows_of_notMem {ls : List Text} (h : ∀ l ∈ ls, 10 ∉ l) : ls.flatMap rows = ls := by
  have hrows : ls.flatMap rows = ls.flatMap fun l => [l] :=
    List.flatMap_congr fun l hl => rows_of_notMem (h l hl)
  rw [hrows, List.flatMap_singleton']

end Text

open Text

namespace Placement

/-- A file is cut at all its line feeds, or has a carriage return before one of them and is cut
there. -/
theorem lineEnding_cases (content : Text) :
    (lineEnding content = [13, 10] ∧ [13, 10] <:+: content) ∨
      (lineEnding content = [10] ∧ ¬[13, 10] <:+: content) := by
  rw [lineEnding_eq]
  by_cases h : [13, 10] <:+: content
  · exact Or.inl ⟨if_pos h, h⟩
  · exact Or.inr ⟨if_neg h, h⟩

theorem not_crlf_of_mem_pieces {content piece : Text}
    (h : piece ∈ splitOn (lineEnding content) content) : ¬[13, 10] <:+: piece := by
  rcases lineEnding_cases content with ⟨heol, -⟩ | ⟨heol, hno⟩
  · rw [heol] at h
    exact not_infix_of_mem_splitFrom (by simp) 0 content piece h
  · intro hin
    rw [heol] at h
    have hpiece : piece <:+: content := by
      rw [← @join_splitOn [10] (by simp) content]
      exact infix_join h
    exact hno (hin.trans hpiece)

/-- **The rows of a file are those of the pieces it is cut into.** -/
theorem rows_eq_flatMap (content : Text) :
    rows content = (splitOn (lineEnding content) content).flatMap rows := by
  rcases lineEnding_cases content with ⟨heol, -⟩ | ⟨heol, hno⟩
  · have hpieces : splitOn [13, 10] content ≠ [] := splitFrom_ne_nil _ 0 content
    rw [heol, ← rows_join_crlf hpieces, join_splitOn (by simp)]
  · rw [heol, flatMap_rows_of_notMem (notMem_of_mem_splitOn 10 content), rows_eq_splitOn hno]

/-- The rows of the pieces before the place for a new statement. -/
def rowsBefore (content : Text) : List Text :=
  ((splitOn (lineEnding content) content).take (place content)).flatMap rows

/-- The rows of the pieces behind the place for a new statement. -/
def rowsBehind (content : Text) : List Text :=
  ((splitOn (lineEnding content) content).drop (place content)).flatMap rows

theorem rows_eq_append (content : Text) :
    rows content = rowsBefore content ++ rowsBehind content := by
  rw [rows_eq_flatMap, rowsBefore, rowsBehind, ← List.flatMap_append, List.take_append_drop]

/-- **A statement that is put between the pieces is a row behind the rows before it.** -/
theorem drop_rows_insert {content statement : Text} (hline : 10 ∉ statement)
    (hcr : ∀ w, statement ≠ w ++ [13]) :
    (rows (insert content statement)).drop (rowsBefore content).length
      = statement :: rowsBehind content := by
  let pieces := splitOn (lineEnding content) content
  show (rows (join (lineEnding content) (pieces.take (place content)
    ++ statement :: pieces.drop (place content)))).drop
      ((pieces.take (place content)).flatMap rows).length
    = statement :: (pieces.drop (place content)).flatMap rows
  rcases lineEnding_cases content with ⟨heol, -⟩ | ⟨heol, hno⟩
  · rw [heol, rows_join_crlf (by simp), List.flatMap_append, List.drop_left, List.flatMap_cons,
      rows_of_notMem hline]
    rfl
  · have hpieces : ∀ l ∈ pieces, 10 ∉ l := by
      show ∀ l ∈ splitOn (lineEnding content) content, 10 ∉ l
      rw [heol]
      exact notMem_of_mem_splitOn 10 content
    have hbefore : ∀ l ∈ pieces.take (place content), 10 ∉ l :=
      fun l hl => hpieces l (List.mem_of_mem_take hl)
    have hbehind : ∀ l ∈ pieces.drop (place content), 10 ∉ l :=
      fun l hl => hpieces l (List.mem_of_mem_drop hl)
    have hjoin : join [10] pieces = content := by
      show join [10] (splitOn (lineEnding content) content) = content
      rw [heol, join_splitOn (by simp)]
    rw [heol, join_append (by simp), flatMap_rows_of_notMem hbefore,
      flatMap_rows_of_notMem hbehind, drop_rows_ended_lf _ hbefore]
    refine rows_join_lf hline hcr hbehind fun hin => hno (hin.trans ?_)
    have hlater := infix_join_drop [10] (place content) pieces
    rwa [hjoin] at hlater

end Placement

end DateDisplay
