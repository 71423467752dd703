import DateDisplay.Import.Placement
import DateDisplay.Proofs.Text

/-!
# Lines of a text

A line ending is a line feed, with or without a carriage return before it.  Where every
line feed of a text belongs to a line ending (`Even`), the text is made of lines
without a line feed (`exists_lines`), and these are the pieces that it is cut into
(`splitOn_ended`).  The line feeds of a text then count its lines (`count_ended`), so
that a line can be found by the text that stands before it.
-/

namespace DateDisplay

namespace Text

/-! ### Joined pieces -/

/-- The lines one after the other, each with the line ending behind it. -/
def ended (eol : Text) (ls : List Text) : Text := ls.flatMap (· ++ eol)

theorem ended_cons (eol l : Text) (ls : List Text) :
    ended eol (l :: ls) = l ++ eol ++ ended eol ls := rfl

theorem ended_append (eol : Text) (ls ks : List Text) :
    ended eol (ls ++ ks) = ended eol ls ++ ended eol ks := List.flatMap_append

theorem ended_eq_nil_iff {eol : Text} (h : eol ≠ []) {ls : List Text} :
    ended eol ls = [] ↔ ls = [] := by
  cases ls with
  | nil => simp [ended]
  | cons l ls => simp [ended_cons, h]

theorem infix_ended {eol l : Text} {ls : List Text} (h : l ∈ ls) : l <:+: ended eol ls := by
  obtain ⟨front, rest, rfl⟩ := List.append_of_mem h
  rw [ended_append, ended_cons]
  exact ⟨ended eol front, eol ++ ended eol rest, by simp⟩

theorem join_append {sep : Text} {ys : List Text} (hys : ys ≠ []) : ∀ xs : List Text,
    join sep (xs ++ ys) = ended sep xs ++ join sep ys := by
  intro xs
  induction xs with
  | nil => rfl
  | cons x xs ih =>
    rw [List.cons_append, join_cons (by simp [hys]), ih, ended_cons]
    simp only [List.append_assoc]

theorem suffix_behind {x : UInt8} {c a u : Text} (hc : x ∉ c) (h : c <:+ a ++ x :: u) :
    c <:+ u := by
  obtain ⟨w, hw⟩ := h
  rcases List.append_eq_append_iff.mp hw with ⟨b, -, rfl⟩ | ⟨b, -, hb⟩
  · exact absurd (by simp) hc
  · cases b with
    | nil =>
      obtain rfl : x :: u = c := hb
      exact absurd (by simp) hc
    | cons y b => exact ⟨b, (List.cons.inj hb).2.symm⟩

/-! ### Line endings -/

/-- A line feed, with or without carriage returns before it. -/
def LineEnd (eol : Text) : Prop := ∃ c, eol = c ++ [10] ∧ ∀ b ∈ c, b = 13

theorem lineEnd_lineEnding (content : Text) : LineEnd (Placement.lineEnding content) := by
  rw [Placement.lineEnding]
  split
  · exact ⟨[13], rfl, by simp⟩
  · exact ⟨[], rfl, by simp⟩

theorem lineEnding_eq (content : Text) :
    Placement.lineEnding content = if [13, 10] <:+: content then [13, 10] else [10] := by
  simp only [Placement.lineEnding, occurs_iff_isInfix]

theorem LineEnd.isGap {eol : Text} (he : LineEnd eol) : ∀ b ∈ eol, isGap b = true := by
  obtain ⟨c, rfl, hc⟩ := he
  intro b hb
  rcases List.mem_append.mp hb with hb | hb
  · rw [hc b hb]
    rfl
  · rw [List.mem_singleton.mp hb]
    rfl

/-- Every line feed of the text belongs to a line ending. -/
def Even (eol s : Text) : Prop := ∀ u v, s = u ++ 10 :: v → eol <:+ u ++ [10]

variable {eol : Text}

theorem LineEnd.ne_nil (he : LineEnd eol) : eol ≠ [] := by
  obtain ⟨c, rfl, -⟩ := he
  simp

theorem LineEnd.count (he : LineEnd eol) : eol.count 10 = 1 := by
  obtain ⟨c, rfl, hc⟩ := he
  have hzero : c.count 10 = 0 := by
    rw [List.count_eq_zero]
    intro hm
    exact absurd (hc 10 hm) (by decide)
  rw [List.count_append, hzero]
  rfl

theorem LineEnd.even (he : LineEnd eol) : Even eol eol := by
  intro u v h
  obtain ⟨c, rfl, hc⟩ := he
  have hten : 10 ∉ c := fun hm => absurd (hc 10 hm) (by decide)
  obtain ⟨w, rfl, hw⟩ := cut_behind h hten
  have hlen := congrArg List.length hw
  rw [List.length_singleton, List.length_append, List.length_cons] at hlen
  obtain rfl : w = [] := List.length_eq_zero_iff.mp (by omega)
  rw [List.append_nil]

theorem even_of_notMem {s : Text} (h : 10 ∉ s) : Even eol s := by
  intro u v hs
  exact absurd (by simp [hs]) h

theorem even_append {s t : Text} (hs : Even eol s) (ht : Even eol t) : Even eol (s ++ t) := by
  intro u v h
  rcases List.append_eq_append_iff.mp h with ⟨a, rfl, ha⟩ | ⟨a, rfl, ha⟩
  · rw [List.append_assoc]
    exact (ht a v ha).trans (List.suffix_append s _)
  · cases a with
    | nil => exact (ht [] v ha.symm).trans (List.suffix_append u _)
    | cons b a =>
      obtain ⟨rfl, -⟩ := List.cons.inj ha
      exact hs u a rfl

theorem even_front {s t : Text} (h : Even eol (s ++ t)) : Even eol s := by
  intro u v hs
  exact h u (v ++ t) (by rw [hs]; simp)

/-- The property passes to what stands behind a byte that is in no line ending, or at
the end of one. -/
theorem even_behind (he : LineEnd eol) {s t : Text} {x : UInt8} (hx : x ≠ 13)
    (h : Even eol (s ++ x :: t)) : Even eol t := by
  intro u v ht
  obtain ⟨c, rfl, hc⟩ := he
  have hxc : x ∉ c := fun hm => hx (hc x hm)
  have hsuf := h (s ++ x :: u) v (by rw [ht]; simp)
  rw [List.suffix_append_self_iff] at hsuf ⊢
  exact suffix_behind hxc hsuf

theorem even_crlf_iff {s : Text} : Even [13, 10] s ↔
    ∀ k < s.length, s[k]? = some 10 → 0 < k ∧ s[k - 1]? = some 13 := by
  constructor
  · intro h k hk hten
    obtain ⟨_, hat⟩ := List.getElem?_eq_some_iff.mp hten
    have hs : s = s.take k ++ 10 :: s.drop (k + 1) := by
      rw [← hat, List.getElem_cons_drop hk, List.take_append_drop]
    obtain ⟨w, hw⟩ := h _ _ hs
    have htake : w ++ [13] = s.take k := by
      rw [← List.append_left_inj [10], ← hw, List.append_assoc]
      rfl
    have hlen := congrArg List.length htake
    rw [List.length_append, List.length_singleton, List.length_take] at hlen
    refine ⟨by omega, ?_⟩
    rw [← List.take_append_drop k s, ← htake, List.append_assoc,
      List.getElem?_append_right (by omega)]
    have hzero : k - 1 - w.length = 0 := by omega
    rw [hzero]
    rfl
  · intro h u v hs
    have hk : s[u.length]? = some 10 := by rw [hs]; simp
    obtain ⟨hpos, hcr⟩ := h u.length (by rw [hs]; simp) hk
    obtain ⟨w, b, rfl⟩ := (List.eq_nil_or_concat' u).resolve_left (List.ne_nil_of_length_pos hpos)
    obtain rfl : b = 13 := by simpa [hs] using hcr
    exact ⟨w, by simp⟩

instance (s : Text) : Decidable (Even [13, 10] s) := decidable_of_iff _ even_crlf_iff.symm

/-! ### Cutting into lines -/

theorem splitFrom_eq_drop (sep : Text) : ∀ (skip : Nat) (s : Text),
    splitFrom sep skip s = splitOn sep (s.drop skip) := by
  intro skip
  induction skip with
  | zero => intro s; rfl
  | succ n ih =>
    intro s
    cases s with
    | nil => rfl
    | cons b t => rw [splitFrom, ih, List.drop_succ_cons]

theorem splitOn_sep_append {sep : Text} (h : sep ≠ []) (t : Text) :
    splitOn sep (sep ++ t) = [] :: splitOn sep t := by
  obtain ⟨b, sep, rfl⟩ := List.exists_cons_of_ne_nil h
  have hp : (b :: sep).isPrefixOf (b :: (sep ++ t)) = true :=
    List.isPrefixOf_iff_prefix.mpr ⟨t, rfl⟩
  rw [List.cons_append, splitOn, splitFrom, if_pos hp, splitFrom_eq_drop, List.length_cons,
    Nat.add_sub_cancel, List.drop_left]

theorem splitOn_cons_of_not_prefix {sep : Text} {b : UInt8} {t p : Text} {ps : List Text}
    (h : ¬sep <+: b :: t) (ht : splitOn sep t = p :: ps) :
    splitOn sep (b :: t) = (b :: p) :: ps := by
  rw [← List.isPrefixOf_iff_prefix, Bool.not_eq_true] at h
  rw [splitOn] at ht
  rw [splitOn, splitFrom, h, ht]
  rfl

theorem LineEnd.not_prefix (he : LineEnd eol) {b : UInt8} {l t : Text} (hl : 10 ∉ b :: l)
    (ht : t = [] ∨ ∃ r, t = eol ++ r) : ¬eol <+: b :: (l ++ t) := by
  rintro ⟨s, hs⟩
  obtain ⟨c, rfl, hc⟩ := he
  have hten : 10 ∉ c := fun hm => absurd (hc 10 hm) (by decide)
  rw [List.append_assoc, List.singleton_append, ← List.cons_append] at hs
  rcases ht with rfl | ⟨r, rfl⟩
  · rw [List.append_nil] at hs
    exact hl (by rw [← hs]; simp)
  · have hcut : c ++ 10 :: s = (b :: l ++ c) ++ 10 :: r := by rw [hs]; simp
    have hfree : ∀ {w : Text}, 10 ∉ w → ∀ a ∈ w, (a != 10) = true := by
      intro w hw a ha
      rw [bne_iff_ne]
      rintro rfl
      exact hw ha
    have hten' : 10 ∉ b :: l ++ c := by
      rw [List.mem_append, not_or]
      exact ⟨hl, hten⟩
    obtain ⟨heq, -⟩ := class_cut_inj hcut (hfree hten) (hfree hten') (by decide) (by decide)
    have hlen := congrArg List.length heq
    simp at hlen
    omega

theorem splitOn_line (he : LineEnd eol) : ∀ {l : Text}, 10 ∉ l → splitOn eol l = [l] := by
  intro l
  induction l with
  | nil => intro _; rfl
  | cons b l ih =>
    intro hl
    have hl' : 10 ∉ l := fun hm => hl (List.mem_cons_of_mem b hm)
    have hp := he.not_prefix hl (Or.inl rfl)
    rw [List.append_nil] at hp
    exact splitOn_cons_of_not_prefix hp (ih hl')

theorem splitOn_line_append (he : LineEnd eol) (t : Text) : ∀ {l : Text}, 10 ∉ l →
    splitOn eol (l ++ (eol ++ t)) = l :: splitOn eol t := by
  intro l
  induction l with
  | nil => intro _; exact splitOn_sep_append he.ne_nil t
  | cons b l ih =>
    intro hl
    have hl' : 10 ∉ l := fun hm => hl (List.mem_cons_of_mem b hm)
    exact splitOn_cons_of_not_prefix (he.not_prefix hl (Or.inr ⟨t, rfl⟩)) (ih hl')

/-- **Lines without a line feed are recovered** from what stands there with their
endings. -/
theorem splitOn_ended (he : LineEnd eol) (t : Text) : ∀ {ls : List Text}, (∀ l ∈ ls, 10 ∉ l) →
    splitOn eol (ended eol ls ++ t) = ls ++ splitOn eol t := by
  intro ls
  induction ls with
  | nil => intro _; rfl
  | cons l ls ih =>
    intro h
    rw [ended_cons, List.append_assoc, List.append_assoc,
      splitOn_line_append he _ (h l (by simp)), ih fun k hk => h k (by simp [hk]), List.cons_append]

/-- **A text with even line endings is made of lines**, all but the last with their
endings. -/
theorem exists_lines (he : LineEnd eol) {s : Text} (h : Even eol s) :
    ∃ ls l, (∀ k ∈ ls, 10 ∉ k) ∧ 10 ∉ l ∧ s = ended eol ls ++ l := by
  induction hn : s.length using Nat.strong_induction_on generalizing s with
  | _ n ih =>
    by_cases hs : 10 ∈ s
    · obtain ⟨u, v, rfl, hu⟩ := List.eq_append_cons_of_mem hs
      obtain ⟨k, hk⟩ := h u v rfl
      have hlen : v.length < n := by
        rw [← hn, List.length_append, List.length_cons]
        omega
      obtain ⟨ls, l, hls, hl, rfl⟩ := ih v.length hlen (even_behind he (by decide) h) rfl
      have hfree : 10 ∉ k := by
        intro hm
        obtain ⟨c, rfl, -⟩ := he
        rw [← List.append_assoc] at hk
        have hu' := List.append_cancel_right hk
        exact hu (by rw [← hu']; simp [hm])
      refine ⟨k :: ls, l, fun t ht => ?_, hl, ?_⟩
      · rcases List.mem_cons.mp ht with rfl | ht
        · exact hfree
        · exact hls t ht
      · rw [ended_cons, hk]
        simp
    · exact ⟨[], s, by simp, hs, rfl⟩

theorem notMem_of_mem_lines (he : LineEnd eol) {s : Text} (h : Even eol s) :
    ∀ l ∈ splitOn eol s, 10 ∉ l := by
  obtain ⟨ls, l, hls, hl, rfl⟩ := exists_lines he h
  rw [splitOn_ended he l hls, splitOn_line he hl]
  intro k hk
  rcases List.mem_append.mp hk with hk | hk
  · exact hls k hk
  · rwa [List.mem_singleton.mp hk]

theorem splitOn_append_even (he : LineEnd eol) {s t : Text} (hs : 10 ∉ s) (ht : Even eol t) :
    ∃ k ks, splitOn eol (s ++ t) = (s ++ k) :: ks := by
  obtain ⟨ls, l, hls, hl, rfl⟩ := exists_lines he ht
  cases ls with
  | nil =>
    have hsl : 10 ∉ s ++ l := by
      rw [List.mem_append, not_or]
      exact ⟨hs, hl⟩
    exact ⟨l, [], splitOn_line he hsl⟩
  | cons k ls =>
    have hsk : 10 ∉ s ++ k := by
      rw [List.mem_append, not_or]
      exact ⟨hs, hls k (by simp)⟩
    refine ⟨k, splitOn eol (ended eol ls ++ l), ?_⟩
    rw [← splitOn_line_append he _ hsk, ended_cons]
    simp only [List.append_assoc]

theorem exists_ended (he : LineEnd eol) {s : Text} (h : Even eol s)
    (hs : s = [] ∨ ∃ w, s = w ++ [10]) : ∃ ls, (∀ l ∈ ls, 10 ∉ l) ∧ s = ended eol ls := by
  obtain ⟨ls, l, hls, hl, rfl⟩ := exists_lines he h
  refine ⟨ls, hls, ?_⟩
  have hnil : l = [] := by
    by_contra hne
    rcases hs with hs | ⟨w, hw⟩
    · exact hne (List.append_eq_nil_iff.mp hs).2
    · obtain ⟨k, rfl⟩ := exists_concat_of_append_eq hw hne
      exact hl (by simp)
  rw [hnil, List.append_nil]

/-- **The line feeds of a text count its lines.** -/
theorem count_ended (he : LineEnd eol) : ∀ {ls : List Text}, (∀ l ∈ ls, 10 ∉ l) →
    (ended eol ls).count 10 = ls.length := by
  intro ls
  induction ls with
  | nil => intro _; rfl
  | cons l ls ih =>
    intro h
    have hl : l.count 10 = 0 := List.count_eq_zero.mpr (h l (by simp))
    have hls := ih fun k hk => h k (by simp [hk])
    rw [ended_cons, List.count_append, List.count_append, hl, he.count, hls, List.length_cons]
    omega

end Text

end DateDisplay
