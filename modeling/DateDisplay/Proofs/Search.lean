import DateDisplay.Text.Search
import DateDisplay.Proofs.Text

/-!
# The walk over a text

`occurrences` and `replace` walk over a text with a counter for the bytes that
still belong to the last finding.  Here the counter is taken away: where a
recogniser finds something of a positive length the walk goes on behind it,
everywhere else one byte further.  `walk_induction` is the induction along that
walk.

A text has no occurrence exactly when nothing is recognised at any place of it
(`occurrences_eq_nil_iff`), and replacing changes nothing up to the first
occurrence (`replace_eq_or_first`).
-/

namespace DateDisplay

namespace Text

variable {α : Type} {find : Text → Option (α × Nat)} {write : α → Text}

/-- What a recogniser finds takes at least one byte. -/
def Positive (find : Text → Option (α × Nat)) : Prop :=
  ∀ s a n, find s = some (a, n) → 0 < n

/-! ### Without the counter -/

theorem replaceFrom_eq_drop (find : Text → Option (α × Nat)) (write : α → Text) :
    ∀ (skip : Nat) (s : Text),
      replaceFrom find write skip s = replace find write (s.drop skip) := by
  intro skip
  induction skip with
  | zero => intro s; rw [List.drop_zero, replace]
  | succ n ih =>
    intro s
    cases s with
    | nil => simp [replace]
    | cons b t => rw [replaceFrom_succ, ih, List.drop_succ_cons]

theorem replace_nil : replace find write [] = [] := replaceFrom_nil find write 0

theorem replace_cons_of_none {b : UInt8} {t : Text} (h : find (b :: t) = none) :
    replace find write (b :: t) = b :: replace find write t := by
  rw [replace, replaceFrom, h]
  rfl

theorem replace_of_some (hp : Positive find) {s : Text} (hs : s ≠ []) {a : α} {n : Nat}
    (h : find s = some (a, n)) :
    replace find write s = write a ++ replace find write (s.drop n) := by
  obtain ⟨b, t, rfl⟩ := List.exists_cons_of_ne_nil hs
  obtain ⟨k, rfl⟩ : ∃ k, n = k + 1 := ⟨n - 1, by have := hp _ _ _ h; omega⟩
  rw [replace, replaceFrom, h]
  simp only [Nat.add_sub_cancel, replaceFrom_eq_drop, List.drop_succ_cons]

/-- **Induction along the walk.**  A text is empty, or nothing is found at its
front and the walk goes on with the next byte, or something is found and the
walk goes on behind it. -/
theorem walk_induction (hp : Positive find) {motive : Text → Prop} (nil : motive [])
    (gap : ∀ b t, find (b :: t) = none → motive t → motive (b :: t))
    (hit : ∀ s a n, s ≠ [] → find s = some (a, n) → motive (s.drop n) → motive s) :
    ∀ s, motive s := by
  intro s
  induction hn : s.length using Nat.strong_induction_on generalizing s with
  | _ n ih =>
    cases s with
    | nil => exact nil
    | cons b t =>
      cases hf : find (b :: t) with
      | none => exact gap b t hf (ih t.length (by rw [← hn]; simp) t rfl)
      | some p =>
        obtain ⟨a, k⟩ := p
        have hk := hp _ _ _ hf
        refine hit _ a k (by simp) hf (ih ((b :: t).drop k).length ?_ _ rfl)
        rw [← hn, List.length_drop, List.length_cons]
        omega

/-! ### Where occurrences are -/

theorem occurrencesFrom_eq_drop (find : Text → Option (α × Nat)) :
    ∀ (skip offset : Nat) (s : Text), occurrencesFrom find offset skip s
      = occurrencesFrom find (offset + skip) 0 (s.drop skip) := by
  intro skip
  induction skip with
  | zero => intro offset s; rfl
  | succ n ih =>
    intro offset s
    cases s with
    | nil => simp
    | cons b t =>
      rw [occurrencesFrom_succ, ih, List.drop_succ_cons, Nat.add_assoc, Nat.add_comm 1 n]

theorem mem_occurrencesFrom (hp : Positive find) {o : Occurrence α} {s : Text} :
    ∀ {offset : Nat}, o ∈ occurrencesFrom find offset 0 s →
      ∃ k n, o.start = offset + k ∧ find (s.drop k) = some (o.value, n) ∧
        o.text = (s.drop k).take n := by
  induction s using walk_induction hp with
  | nil => intro offset h; cases h
  | gap b t hf ih =>
    intro offset h
    rw [occurrencesFrom, hf] at h
    obtain ⟨k, n, hk, hn, ht⟩ := ih h
    exact ⟨k + 1, n, by rw [hk, Nat.add_assoc, Nat.add_comm 1 k], hn, ht⟩
  | hit s a n hs hf ih =>
    intro offset h
    obtain ⟨b, t, rfl⟩ := List.exists_cons_of_ne_nil hs
    have hn := hp _ _ _ hf
    rw [occurrencesFrom, hf] at h
    rcases List.mem_cons.mp h with rfl | h
    · exact ⟨0, n, rfl, hf, rfl⟩
    · obtain ⟨k, rfl⟩ : ∃ k, n = k + 1 := ⟨n - 1, by omega⟩
      rw [occurrencesFrom_eq_drop] at h
      obtain ⟨j, l, hj, hl, ht⟩ := ih h
      rw [List.drop_drop] at hl ht
      exact ⟨k + 1 + j, l, by rw [hj]; omega, hl, ht⟩

theorem mem_occurrences (hp : Positive find) {o : Occurrence α} {s : Text}
    (h : o ∈ occurrences find s) :
    ∃ n, find (s.drop o.start) = some (o.value, n) ∧ o.text = (s.drop o.start).take n := by
  obtain ⟨k, n, hk, hn, ht⟩ := mem_occurrencesFrom hp h
  rw [Nat.zero_add] at hk
  exact ⟨n, hk ▸ hn, hk ▸ ht⟩

/-! ### Texts without occurrences -/

theorem occurrencesFrom_eq_nil_iff : ∀ (s : Text) (offset : Nat),
    occurrencesFrom find offset 0 s = [] ↔ ∀ v, v ≠ [] → v <:+ s → find v = none := by
  intro s
  induction s with
  | nil =>
    intro offset
    refine ⟨fun _ v hv hs => absurd (List.suffix_nil.mp hs) hv, fun _ => rfl⟩
  | cons b t ih =>
    intro offset
    rw [occurrencesFrom]
    constructor
    · intro h v hv hs
      split at h
      · cases h
      · rename_i hf
        rcases List.suffix_cons_iff.mp hs with rfl | hs
        · exact hf
        · exact (ih (offset + 1)).mp h v hv hs
    · intro h
      rw [h (b :: t) (by simp) List.suffix_rfl]
      exact (ih (offset + 1)).mpr fun v hv hs => h v hv (hs.trans (List.suffix_cons b t))

/-- **A text has no occurrence exactly when nothing is recognised anywhere in it.** -/
theorem occurrences_eq_nil_iff {s : Text} :
    occurrences find s = [] ↔ ∀ v, v ≠ [] → v <:+ s → find v = none :=
  occurrencesFrom_eq_nil_iff s 0

theorem replace_of_occurrences_eq_nil {s : Text} (h : occurrences find s = []) :
    replace find write s = s := by
  rw [occurrences_eq_nil_iff] at h
  induction s with
  | nil => exact replace_nil
  | cons b t ih =>
    rw [replace_cons_of_none (h _ (by simp) List.suffix_rfl),
      ih fun v hv hs => h v hv (hs.trans (List.suffix_cons b t))]

/-! ### The first occurrence -/

/-- **Replacing changes nothing up to the first occurrence.**  Either there is
none and the text stays, or the text before it stays and the walk goes on behind
it. -/
theorem replace_eq_or_first (hp : Positive find) (write : α → Text) (s : Text) :
    replace find write s = s ∨ ∃ g r a n, s = g ++ r ∧ find r = some (a, n) ∧
      replace find write s = g ++ (write a ++ replace find write (r.drop n)) := by
  induction s using walk_induction hp with
  | nil => exact Or.inl replace_nil
  | gap b t hf ih =>
    rw [replace_cons_of_none hf]
    rcases ih with h | ⟨g, r, a, n, rfl, hr, h⟩
    · exact Or.inl (by rw [h])
    · exact Or.inr ⟨b :: g, r, a, n, rfl, hr, by rw [h, List.cons_append]⟩
  | hit s a n hs hf _ =>
    exact Or.inr ⟨[], s, a, n, rfl, hf, by rw [replace_of_some hp hs hf, List.nil_append]⟩

theorem exists_isInfix_write (hp : Positive find) (write : α → Text) {s : Text}
    (h : occurrences find s ≠ []) : ∃ a, write a <:+: replace find write s := by
  induction s using walk_induction hp with
  | nil => exact absurd rfl h
  | gap b t hf ih =>
    have ht : occurrences find t ≠ [] := by
      intro he
      refine h (occurrences_eq_nil_iff.mpr fun v hv hs => ?_)
      rcases List.suffix_cons_iff.mp hs with rfl | hs
      · exact hf
      · exact occurrences_eq_nil_iff.mp he v hv hs
    obtain ⟨a, ha⟩ := ih ht
    rw [replace_cons_of_none hf]
    exact ⟨a, List.infix_cons ha⟩
  | hit s a n hs hf _ =>
    rw [replace_of_some hp hs hf]
    exact ⟨a, (List.prefix_append _ _).isInfix⟩

end Text

end DateDisplay
