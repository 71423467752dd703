import DateDisplay.Proofs.Walk

/-!
# What a search reports

The occurrences of a text are reported from left to right and do not overlap
(`pairwise_occurrences`), and each is the piece of the text between its two offsets
(`text_of_mem_occurrences`).  Nothing is missed: a place where something is recognised
but that is not reported lies in an occurrence that starts before it
(`exists_covering_occurrence`).

`splice` builds a text from another one and a list of occurrences, without searching:
what stands between the occurrences is copied, and each of them is replaced.
`replace_eq_splice` says that `replace` does just this with the occurrences that the
search reports.
-/

namespace DateDisplay

namespace Text

variable {α : Type} {find : Text → Option (α × Nat)}

/-! ### Offsets -/

theorem bounds_of_mem_occurrencesFrom (hl : Local find) {o : Occurrence α} {s : Text} :
    ∀ {i : Nat}, o ∈ occurrencesFrom find i 0 s →
      i ≤ o.start ∧ o.start < o.stop ∧ o.stop ≤ i + s.length := by
  induction s using walk_induction hl.positive with
  | nil => intro i h; simp at h
  | gap b t hf ih =>
    intro i h
    rw [occurrencesFrom_of_none hf] at h
    have := ih h
    rw [List.length_cons]
    omega
  | hit s a n hs hf ih =>
    intro i h
    obtain ⟨m, r, rfl, hm, rfl, -⟩ := hl _ _ _ hf
    rw [List.drop_left] at ih
    rw [occurrencesFrom_of_some hm hf] at h
    have hpos := List.length_pos_of_ne_nil hm
    rw [List.length_append]
    rcases List.mem_cons.mp h with rfl | h
    · simp only [Occurrence.stop]
      omega
    · have := ih h
      omega

theorem pairwise_occurrencesFrom (hl : Local find) : ∀ (s : Text) (i : Nat),
    (occurrencesFrom find i 0 s).Pairwise fun o o' => o.stop ≤ o'.start := by
  intro s
  induction s using walk_induction hl.positive with
  | nil => intro i; simp
  | gap b t hf ih =>
    intro i
    rw [occurrencesFrom_of_none hf]
    exact ih (i + 1)
  | hit s a n hs hf ih =>
    intro i
    obtain ⟨m, r, rfl, hm, rfl, -⟩ := hl _ _ _ hf
    rw [List.drop_left] at ih
    rw [occurrencesFrom_of_some hm hf, List.pairwise_cons]
    exact ⟨fun o ho => (bounds_of_mem_occurrencesFrom hl ho).1, ih _⟩

/-- **Occurrences are reported in order and do not overlap.** -/
theorem pairwise_occurrences (hl : Local find) (s : Text) :
    (occurrences find s).Pairwise fun o o' => o.stop ≤ o'.start :=
  pairwise_occurrencesFrom hl s 0

theorem bounds_of_mem_occurrences (hl : Local find) {o : Occurrence α} {s : Text}
    (h : o ∈ occurrences find s) : o.start < o.stop ∧ o.stop ≤ s.length := by
  have := bounds_of_mem_occurrencesFrom hl h
  omega

/-- **An occurrence is the piece of the text between its offsets.** -/
theorem text_of_mem_occurrences (hl : Local find) {o : Occurrence α} {s : Text}
    (h : o ∈ occurrences find s) : o.text = (s.take o.stop).drop o.start := by
  obtain ⟨before, after, hos⟩ := List.append_of_mem h
  obtain ⟨u, m, v, rfl, -, -, -, ho, -⟩ := walk_to_occurrence hl hos
  have hstart : o.start = u.length := by rw [ho, Nat.zero_add]
  have htext : o.text = m := by rw [ho]
  have hstop : o.stop = (u ++ m).length := by
    rw [Occurrence.stop, hstart, htext, List.length_append]
  rw [htext, hstop, hstart, ← List.append_assoc, List.take_left, List.drop_left]

/-! ### Nothing is missed -/

theorem exists_covering_occurrenceFrom (hl : Local find) {a : α} {n : Nat} {s : Text} :
    ∀ {i k : Nat}, find (s.drop k) = some (a, n) →
      ∃ o ∈ occurrencesFrom find i 0 s, o.start ≤ i + k ∧ i + k < o.stop := by
  induction s using walk_induction hl.positive with
  | nil =>
    intro i k h
    obtain ⟨m, r, hs, hm, -⟩ := hl _ _ _ h
    rw [List.drop_nil] at hs
    exact absurd (List.append_eq_nil_iff.mp hs.symm).1 hm
  | gap b t hf ih =>
    intro i k h
    rw [occurrencesFrom_of_none hf]
    cases k with
    | zero =>
      rw [List.drop_zero, hf] at h
      cases h
    | succ k =>
      obtain ⟨o, ho, hstart, hstop⟩ := ih (i := i + 1) h
      exact ⟨o, ho, by omega, by omega⟩
  | hit s b l hs hf ih =>
    intro i k h
    obtain ⟨m, r, rfl, hm, rfl, -⟩ := hl _ _ _ hf
    rw [List.drop_left] at ih
    rw [occurrencesFrom_of_some hm hf]
    by_cases hk : k < m.length
    · refine ⟨_, List.mem_cons_self, ?_, ?_⟩ <;> simp only [Occurrence.stop] <;> omega
    · -- the place is behind this occurrence, in what the search goes on with
      obtain ⟨j, rfl⟩ : ∃ j, k = m.length + j := ⟨k - m.length, by omega⟩
      rw [← List.drop_drop, List.drop_left] at h
      obtain ⟨o, ho, hstart, hstop⟩ := ih (i := i + m.length) h
      exact ⟨o, List.mem_cons_of_mem _ ho, by omega, by omega⟩

/-- **Every place where something is recognised lies in an occurrence.** -/
theorem exists_covering_occurrence (hl : Local find) {a : α} {n k : Nat} {s : Text}
    (h : find (s.drop k) = some (a, n)) :
    ∃ o ∈ occurrences find s, o.start ≤ k ∧ k < o.stop := by
  have := exists_covering_occurrenceFrom hl (i := 0) h
  rwa [Nat.zero_add] at this

/-! ### Replacing without a search -/

/-- The text from `offset` on, with `write a` in the place of each listed occurrence of
an `a`. -/
def splice (write : α → Text) (s : Text) : (offset : Nat) → List (Occurrence α) → Text
  | offset, [] => s.drop offset
  | offset, o :: os =>
    (s.take o.start).drop offset ++ (write o.value ++ splice write s o.stop os)

theorem splice_of_lt {write : α → Text} {u t : Text} {b : UInt8} {os : List (Occurrence α)}
    (h : ∀ o ∈ os, u.length < o.start) : splice write (u ++ b :: t) u.length os
      = b :: splice write (u ++ b :: t) (u.length + 1) os := by
  cases os with
  | nil =>
    rw [splice, splice, ← List.drop_drop, List.drop_left]
    rfl
  | cons o os =>
    obtain ⟨k, hk⟩ : ∃ k, o.start = u.length + (k + 1) :=
      ⟨o.start - u.length - 1, by have := h o (by simp); omega⟩
    have htake : (u ++ b :: t).take o.start = u ++ b :: t.take k := by
      rw [hk, List.take_length_add_append, List.take_succ_cons]
    rw [splice, splice, htake, ← List.drop_drop, List.drop_left]
    rfl

theorem replace_eq_splice_behind (hl : Local find) (write : α → Text) (t : Text) :
    ∀ u : Text, replace find write t
      = splice write (u ++ t) u.length (occurrencesFrom find u.length 0 t) := by
  induction t using walk_induction hl.positive with
  | nil => intro u; simp [replace_nil, splice]
  | gap b t hf ih =>
    intro u
    have hstart : ∀ o ∈ occurrencesFrom find (u.length + 1) 0 t, u.length < o.start :=
      fun o ho => (bounds_of_mem_occurrencesFrom hl ho).1
    have hu := ih (u ++ [b])
    rw [List.append_assoc, List.singleton_append, List.length_append, List.length_singleton] at hu
    rw [replace_cons_of_none hf, occurrencesFrom_of_none hf, splice_of_lt hstart, hu]
  | hit s a n hs hf ih =>
    intro u
    obtain ⟨m, r, rfl, hm, rfl, -⟩ := hl _ _ _ hf
    rw [List.drop_left] at ih
    have hu := ih (u ++ m)
    rw [List.append_assoc, List.length_append] at hu
    rw [replace_of_some hl.positive hs hf, List.drop_left, occurrencesFrom_of_some hm hf, splice,
      List.take_left, List.drop_length, List.nil_append, hu]
    rfl

/-- **Replacing is splicing** at the occurrences that the search reports. -/
theorem replace_eq_splice (hl : Local find) (write : α → Text) (s : Text) :
    replace find write s = splice write s 0 (occurrences find s) :=
  replace_eq_splice_behind hl write s []

theorem replace_append_of_bare {write : α → Text} {v : Text} : ∀ {u : Text}, Bare find u v →
    replace find write (u ++ v) = u ++ replace find write v := by
  intro u
  induction u with
  | nil => intro _; rfl
  | cons b u ih =>
    intro h
    have hb : find (b :: (u ++ v)) = none := h (b :: u) List.suffix_rfl (by simp)
    rw [List.cons_append, replace_cons_of_none hb,
      ih fun x hx => h x (hx.trans (List.suffix_cons b u)), List.cons_append]

end Text

end DateDisplay
