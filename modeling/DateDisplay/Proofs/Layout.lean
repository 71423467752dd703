import DateDisplay.Proofs.Augmentation
import DateDisplay.Proofs.Placement

/-!
# Imports over several lines

Where an import ends is told from its lines: a line that starts an import and leaves a
brace open goes on to the line with the closing brace, and to the one behind it if that
begins with the `from` clause.  `Followed` says which declarations over several lines
this gets right, and `Followed.count_lt` that all their lines then come before the place
for a new statement.

The proof goes through the lines of the declaration: `Followed.spanned` takes its text
apart into them, with the two ways to end it, and `count_lt_place` counts them against
the lines of the file.
-/

namespace DateDisplay

open Text Placement

namespace Declaration

/-! ### The lines of a declaration -/

theorem startsImport_head {d : Declaration} (hd : d.WellFormed) (l : Text) :
    startsImport (d.head ++ l) = true := by
  obtain ⟨b, g, hg⟩ := List.exists_cons_of_ne_nil hd.beforeList.1
  have hb : isGap b = true := hd.beforeList.2 b (by simp [hg])
  have hhead : d.head ++ l = lit "import" ++ b :: (g ++ '{'.toUInt8 :: l) := by
    simp [head, hg, keyword]
  rw [startsImport, hhead, strip?_append]
  simp [hb]

theorem not_isQuote_of_mem_head {d : Declaration} (hd : d.WellFormed) {b : UInt8}
    (h : b ∈ d.head) : isQuote b = false := by
  have hkeyword : keyword.all (fun c => !isQuote c) = true := by decide
  rw [head, List.mem_append, List.mem_append] at h
  rcases h with (h | h) | h
  · simpa using List.all_eq_true.mp hkeyword b h
  · by_contra hq
    have hgap := isGap_of_isQuote (by simpa using hq)
    rw [hd.beforeList.2 b h] at hgap
    cases hgap
  · rw [List.mem_singleton.mp h]
    decide

theorem span_head {d : Declaration} (hd : d.WellFormed) {l : Text} (hl : l <:+: d.list)
    (hq : ∀ b ∈ d.list, isQuote b = false) (rest : List Text) :
    span (d.head ++ l) rest = openListSpan 0 rest := by
  have hends : endsImport (d.head ++ l) = false := by
    by_contra hends
    rw [Bool.not_eq_false] at hends
    obtain ⟨q, hm, hquote⟩ := exists_quote_of_endsImport hends
    have hno : isQuote q = false := by
      rcases List.mem_append.mp hm with hm | hm
      · exact not_isQuote_of_mem_head hd hm
      · exact hq q (hl.subset hm)
    rw [hquote] at hno
    cases hno
  have hopen : opensBrace (d.head ++ l) = true := by
    have hclose : (d.head ++ l).count '}'.toUInt8 = 0 := by
      rw [List.count_eq_zero, List.mem_append, not_or]
      exact ⟨notMem_head hd, fun hm => hd.list (hl.subset hm)⟩
    have hbrace : 0 < (d.head ++ l).count '{'.toUInt8 := by
      rw [List.count_pos_iff]
      simp [head]
    rw [opensBrace, hclose]
    exact decide_eq_true hbrace
  rw [span, hends, hopen]
  rfl

theorem seven_le_length_tail {d : Declaration} (hd : d.WellFormed) : 7 ≤ d.tail.length := by
  have h₁ := List.length_pos_of_ne_nil hd.beforeFrom.1
  have h₂ := List.length_pos_of_ne_nil hd.afterFrom.1
  have h₃ : fromWord.length = 4 := by decide
  simp only [tail, List.length_append, List.length_cons, List.length_nil]
  omega

/-- The statement from `from` on. -/
def fromClause (d : Declaration) : Text :=
  fromWord ++ (d.afterFrom ++ d.quote :: (d.path ++ [d.endQuote]))

theorem tail_eq_fromClause (d : Declaration) :
    d.tail = '}'.toUInt8 :: (d.beforeFrom ++ d.fromClause) := by
  simp [tail, fromClause]

section Span

variable {d : Declaration} (hd : d.WellFormed) {mids : List Text} {k : Text}

include hd

theorem openListSpan_mids (hmids : ∀ m ∈ mids, m <:+: d.list)
    (hlines : ∀ l ∈ mids, isBlank l = false ∧ startsImport l = false) (rest : List Text) :
    openListSpan 0 (mids ++ rest) = openListSpan mids.length rest := by
  have hopen : ∀ m ∈ mids, isBlank m = false ∧ startsImport m = false ∧ '}'.toUInt8 ∉ m :=
    fun m hm => ⟨(hlines m hm).1, (hlines m hm).2, fun hc => hd.list ((hmids m hm).subset hc)⟩
  rw [openListSpan_append rest 0 hopen, Nat.zero_add]

theorem length_lt_openListSpan (hmids : ∀ m ∈ mids, m <:+: d.list)
    (hlines : ∀ l ∈ mids ++ [k ++ d.tail], isBlank l = false ∧ startsImport l = false) (t : Text)
    (rest : List Text) : mids.length < openListSpan 0 (mids ++ (k ++ d.tail ++ t) :: rest) := by
  have hbrace : '}'.toUInt8 ∈ k ++ d.tail ++ t := by simp [tail]
  have hlen : 7 ≤ (k ++ d.tail).length := by
    have := seven_le_length_tail hd
    rw [List.length_append]
    omega
  have himport : startsImport (k ++ d.tail ++ t) = false := by
    rw [startsImport_append hlen]
    exact (hlines _ (by simp)).2
  rw [openListSpan_mids hd hmids fun l hl => hlines l (by simp [hl])]
  exact lt_openListSpan_close hbrace himport _ rest

theorem startsFromClause_fromClause {g : Text} (hg : ∀ b ∈ g, isGap b = true) (t : Text) :
    startsFromClause (g ++ d.fromClause ++ t) = true := by
  have hfrom : fromWord = 'f'.toUInt8 :: fromWord.tail := by decide
  have hline : g ++ d.fromClause ++ t = g ++ 'f'.toUInt8 :: (fromWord.tail ++
      (d.afterFrom ++ d.quote :: (d.path ++ [d.endQuote] ++ t))) := by
    rw [fromClause]
    nth_rewrite 1 [hfrom]
    simp
  have hstrip : ∀ s, strip? (lit "from") ('f'.toUInt8 :: (fromWord.tail ++ s)) = some s := by
    intro s
    rw [← List.cons_append, ← hfrom]
    exact strip?_append fromWord s
  rw [startsFromClause, hline, dropWhile_cut hg (by decide), wordThenQuote, hstrip]
  simp only [quoteAhead, dropWhile_cut hd.afterFrom.2 (isGap_of_isQuote hd.quote), hd.quote]

/-- The line behind the closing brace is taken in as well if the `from` clause stands
there. -/
theorem succ_length_lt_openListSpan {g g' : Text} (hmids : ∀ m ∈ mids, m <:+: d.list)
    (hk : ∀ b ∈ k, isQuote b = false) (hg : ∀ b ∈ g ++ g', isGap b = true)
    (hlines : ∀ l ∈ mids ++ [k ++ '}'.toUInt8 :: g], isBlank l = false ∧ startsImport l = false)
    (t : Text) (rest : List Text) : mids.length + 1 < openListSpan 0
      (mids ++ (k ++ '}'.toUInt8 :: g) :: (g' ++ d.fromClause ++ t) :: rest) := by
  have hends : endsImport (k ++ '}'.toUInt8 :: g) = false := by
    by_contra hends
    rw [Bool.not_eq_false] at hends
    obtain ⟨q, hm, hquote⟩ := exists_quote_of_endsImport hends
    have hgap := isGap_of_isQuote hquote
    rw [List.mem_append, List.mem_cons] at hm
    rcases hm with hm | rfl | hm
    · rw [hk q hm] at hquote
      cases hquote
    · revert hquote
      decide
    · rw [hg q (by simp [hm])] at hgap
      cases hgap
  have hfrom := startsFromClause_fromClause hd (g := g') (fun b hb => hg b (by simp [hb])) t
  rw [openListSpan_mids hd hmids fun l hl => hlines l (by simp [hl]),
    openListSpan_close (by simp) (hlines _ (by simp)).2, hends, List.head?_cons, Option.map_some,
    hfrom]
  simp

end Span

section Lines

variable {content p r : Text} {d : Declaration}

theorem exists_front (hcol : d.start = 0 ∨ content[d.start - 1]? = some 10)
    (heven : Even (lineEnding content) content) (hc : content = p ++ (d.text ++ r))
    (hstart : d.start = p.length) :
    ∃ ls, (∀ l ∈ ls, 10 ∉ l) ∧ p = ended (lineEnding content) ls := by
  refine exists_ended (lineEnd_lineEnding content) ?_ ?_
  · rw [hc] at heven ⊢
    exact even_front heven
  · rcases List.eq_nil_or_concat' p with hp | ⟨w, b, rfl⟩
    · exact Or.inl hp
    · have hcol := hcol.resolve_left (by rw [hstart]; simp)
      have hb : b = 10 := by simpa [hstart, hc] using hcol
      exact Or.inr ⟨w, by rw [hb]⟩

theorem even_parts (hd : d.WellFormed) (heven : Even (lineEnding content) content)
    (hc : content = p ++ (d.text ++ r)) : Even (lineEnding content) d.list ∧
      Even (lineEnding content) d.beforeFrom ∧ Even (lineEnding content) r := by
  have he := lineEnd_lineEnding content
  have hopen : content = (p ++ keyword ++ d.beforeList) ++ '{'.toUInt8 ::
      (d.list ++ (d.tail ++ r)) := by rw [hc]; simp [text, head]
  have hclose : content = (p ++ d.head ++ d.list) ++ '}'.toUInt8 ::
      (d.beforeFrom ++ (d.fromClause ++ r)) := by rw [hc]; simp [text, tail_eq_fromClause]
  have hquote : content = (p ++ d.head ++ d.list ++ d.clause ++ d.path) ++ d.endQuote :: r := by
    rw [hc]
    simp [text, tail_eq]
  generalize lineEnding content = eol at *
  refine ⟨?_, ?_, ?_⟩
  · rw [hopen] at heven
    exact even_front (even_behind he (by decide) heven)
  · rw [hclose] at heven
    exact even_front (even_behind he (by decide) heven)
  · rw [hquote] at heven
    exact even_behind he (ne_of_isQuote hd.endQuote (by decide)).symm heven

/-- A statement over several lines comes before the end of the imports, if its first line
is one that starts an import and that goes on over the others. -/
theorem count_lt_place {s : Text} {front more : List Text} {first last : Text}
    (hrest : Even (lineEnding content) r) (hc : content = ended (lineEnding content) front ++ (s ++ r))
    (hs : s = ended (lineEnding content) (first :: more) ++ last) (hfront : ∀ l ∈ front, 10 ∉ l)
    (hmore : ∀ l ∈ first :: more, 10 ∉ l) (hlast : 10 ∉ last) (hfirst : startsImport first = true)
    (hspan : ∀ t rest, more.length < span first (more ++ (last ++ t) :: rest)) :
    (ended (lineEnding content) front ++ s).count 10 < place content := by
  rw [place]
  have he := lineEnd_lineEnding content
  generalize lineEnding content = eol at *
  -- the last line may hold more than the end of the statement
  obtain ⟨t, rest, ht⟩ := splitOn_append_even he hlast hrest
  have hsplit : splitOn eol content = front ++ first :: (more ++ (last ++ t) :: rest) := by
    rw [hc, hs, splitOn_ended he _ hfront, List.append_assoc, splitOn_ended he _ hmore, ht]
    rfl
  have hend := le_importsEnd hfirst front (more ++ (last ++ t) :: rest)
  have hcount : (ended eol front ++ s).count 10 = front.length + (more.length + 1) := by
    rw [hs, List.count_append, List.count_append, count_ended he hfront, count_ended he hmore,
      List.count_eq_zero.mpr hlast, List.length_cons, Nat.add_zero]
  have := hspan t rest
  rw [hcount, hsplit]
  omega

end Lines

/-! ### Layouts that the count follows -/

/-- The declaration starts a line and leaves its list open there, no quote stands in the
list, none of its other lines could be taken for a blank one or for the start of an
import, and behind the list at most the blanks before `from` break a line, once. -/
structure Followed (content : Text) (d : Declaration) : Prop where
  column : d.start = 0 ∨ content[d.start - 1]? = some 10
  head : 10 ∉ d.head
  list : ∀ b ∈ d.list, isQuote b = false
  broken : 10 ∈ d.list
  lines : ∀ l ∈ (splitOn (lineEnding content) d.text).tail,
    isBlank l = false ∧ startsImport l = false
  beforeFrom : d.beforeFrom.count 10 ≤ 1
  clause : 10 ∉ d.fromClause

instance (content : Text) (d : Declaration) : Decidable (Followed content d) :=
  decidable_of_iff
    ((d.start = 0 ∨ content[d.start - 1]? = some 10) ∧ 10 ∉ d.head ∧
      d.list.all (!isQuote ·) = true ∧ 10 ∈ d.list ∧
      (∀ l ∈ (splitOn (lineEnding content) d.text).tail,
        isBlank l = false ∧ startsImport l = false) ∧
      d.beforeFrom.count 10 ≤ 1 ∧ 10 ∉ d.fromClause)
    ⟨fun ⟨h₁, h₂, h₃, h₄, h₅, h₆, h₇⟩ => ⟨h₁, h₂, by simpa using h₃, h₄, h₅, h₆, h₇⟩,
      fun h => ⟨h.column, h.head, by simpa using h.list, h.broken, h.lines, h.beforeFrom, h.clause⟩⟩

/-- The lines of the declaration, of which the first goes on over all the others. -/
def Spanned (eol : Text) (d : Declaration) : Prop :=
  ∃ l more last, d.text = ended eol ((d.head ++ l) :: more) ++ last ∧
    (∀ t ∈ (d.head ++ l) :: more, 10 ∉ t) ∧ 10 ∉ last ∧
    ∀ t rest, more.length < span (d.head ++ l) (more ++ (last ++ t) :: rest)

section Spanned

variable {eol : Text} (he : LineEnd eol) {d : Declaration} (hd : d.WellFormed) {l k : Text}
  {mids : List Text} (hl : d.list = ended eol (l :: mids) ++ k)
  (hfree : ∀ t ∈ (d.head ++ l) :: mids, 10 ∉ t) (hk : 10 ∉ k)
  (hq : ∀ b ∈ d.list, isQuote b = false)
  (hown : ∀ l ∈ (splitOn eol d.text).tail, isBlank l = false ∧ startsImport l = false)

include hl

theorem text_eq_ended : d.text = ended eol ((d.head ++ l) :: mids) ++ (k ++ d.tail) := by
  rw [text, hl, ended_cons, ended_cons]
  simp only [List.append_assoc]

theorem infix_list : ∀ t ∈ l :: mids, t <:+: d.list := by
  intro t ht
  rw [hl]
  exact (infix_ended ht).trans (List.prefix_append _ _).isInfix

include he hd hfree hk hq hown

theorem spanned_of_inline (htail : 10 ∉ d.tail) : Spanned eol d := by
  have htext := text_eq_ended hl
  have hpiece := infix_list hl
  have hlast : 10 ∉ k ++ d.tail := by
    rw [List.mem_append, not_or]
    exact ⟨hk, htail⟩
  rw [htext, splitOn_ended he _ hfree, splitOn_line he hlast] at hown
  refine ⟨l, mids, k ++ d.tail, htext, hfree, hlast, fun t rest => ?_⟩
  rw [span_head hd (hpiece l (by simp)) hq]
  exact length_lt_openListSpan hd (fun m hm => hpiece m (by simp [hm])) hown t rest

theorem spanned_of_broken {g g' : Text} (hbefore : d.beforeFrom = g ++ eol ++ g') (hg : 10 ∉ g)
    (hg' : 10 ∉ g') (hclause : 10 ∉ d.fromClause) : Spanned eol d := by
  have hpiece := infix_list hl
  have hclose : 10 ∉ k ++ '}'.toUInt8 :: g := by
    rw [List.mem_append, List.mem_cons, not_or, not_or]
    exact ⟨hk, by decide, hg⟩
  have hlast : 10 ∉ g' ++ d.fromClause := by
    rw [List.mem_append, not_or]
    exact ⟨hg', hclause⟩
  have hlines : ∀ t ∈ (d.head ++ l) :: (mids ++ [k ++ '}'.toUInt8 :: g]), 10 ∉ t := by
    rw [← List.cons_append, List.forall_mem_append]
    exact ⟨hfree, List.forall_mem_singleton.mpr hclose⟩
  have htext : d.text = ended eol ((d.head ++ l) :: (mids ++ [k ++ '}'.toUInt8 :: g]))
      ++ (g' ++ d.fromClause) := by
    have hended : ended eol ((d.head ++ l) :: (mids ++ [k ++ '}'.toUInt8 :: g]))
        = ended eol ((d.head ++ l) :: mids) ++ (k ++ '}'.toUInt8 :: g ++ eol) := by
      rw [← List.cons_append, ended_append]
      simp [ended]
    rw [text_eq_ended hl, tail_eq_fromClause, hbefore, hended]
    simp only [List.append_assoc, List.cons_append]
  have hgap : ∀ b ∈ g ++ g', isGap b = true := by
    intro b hb
    refine hd.beforeFrom.2 b ?_
    rw [List.mem_append] at hb
    rw [hbefore, List.mem_append, List.mem_append]
    exact hb.imp_left Or.inl
  have hquote : ∀ b ∈ k, isQuote b = false := fun b hb => hq b (by rw [hl]; simp [hb])
  rw [htext, splitOn_ended he _ hlines, splitOn_line he hlast, List.cons_append,
    List.tail_cons] at hown
  refine ⟨l, _, _, htext, hlines, hlast, fun t rest => ?_⟩
  rw [span_head hd (hpiece l (by simp)) hq, List.length_append, List.append_assoc]
  exact succ_length_lt_openListSpan hd (fun m hm => hpiece m (by simp [hm])) hquote hgap
    (fun t ht => hown t (List.mem_append_left _ ht)) t rest

end Spanned

theorem Followed.spanned {content : Text} {d : Declaration} (h : Followed content d)
    (hd : d.WellFormed) (hlist : Even (lineEnding content) d.list)
    (hbefore : Even (lineEnding content) d.beforeFrom) : Spanned (lineEnding content) d := by
  have he := lineEnd_lineEnding content
  have hown := h.lines
  generalize lineEnding content = eol at *
  obtain ⟨ls, k, hls, hk, hl⟩ := exists_lines he hlist
  obtain ⟨gs, g', hgs, hg', hg⟩ := exists_lines he hbefore
  cases ls with
  | nil =>
    have hbroken := h.broken
    rw [hl] at hbroken
    exact absurd hbroken hk
  | cons l mids =>
    have hfirst : 10 ∉ d.head ++ l := by
      rw [List.mem_append, not_or]
      exact ⟨h.head, hls l (by simp)⟩
    have hfree : ∀ t ∈ (d.head ++ l) :: mids, 10 ∉ t :=
      List.forall_mem_cons.mpr ⟨hfirst, fun t ht => hls t (by simp [ht])⟩
    match gs with
    | [] =>
      have htail : 10 ∉ d.tail := by
        rw [tail_eq_fromClause, hg]
        simp only [List.mem_append, List.mem_cons, not_or]
        exact ⟨by decide, ⟨by simp [ended], hg'⟩, h.clause⟩
      exact spanned_of_inline he hd hl hfree hk h.list hown htail
    | [g] =>
      have hline : d.beforeFrom = g ++ eol ++ g' := by
        rw [hg]
        simp [ended]
      exact spanned_of_broken he hd hl hfree hk h.list hown hline (hgs g (by simp)) hg' h.clause
    | g :: g₂ :: gs =>
      have hcount := h.beforeFrom
      rw [hg, List.count_append, count_ended he hgs, List.length_cons, List.length_cons] at hcount
      omega

/-- **All lines of a declaration come before the place for a new statement**, if the count
follows its layout. -/
theorem Followed.count_lt {content p r : Text} {d : Declaration} (h : Followed content d)
    (hd : d.WellFormed) (heven : Even (lineEnding content) content)
    (hc : content = p ++ (d.text ++ r)) (hstart : d.start = p.length) :
    (p ++ d.text).count 10 < place content := by
  obtain ⟨front, hfront, rfl⟩ := exists_front h.column heven hc hstart
  obtain ⟨hlist, hbefore, hrest⟩ := even_parts hd heven hc
  obtain ⟨l, more, last, htext, hfree, hlast, hspan⟩ := h.spanned hd hlist hbefore
  exact count_lt_place hrest hc htext hfront hfree hlast (startsImport_head hd l) hspan

end Declaration

end DateDisplay
