import DateDisplay.Proofs.Search

/-!
# Edits under a walk

A recogniser is `Local` if what it finds depends on the bytes that it takes and not
on those behind them.  `Walk find i u v os` says that the walk over `u ++ v` comes to
the front of `v`, and that it finds `os` on the way, numbered from `i` on.

With these an edit is seen through.  The walk over the front `u` stays the same when
what stands behind `u` changes, as long as nothing new is found at a place where
nothing was (`Walk.congr`).  Where no finding crosses from `u` into what stands
behind, there is such a walk (`walk_of_uncrossed`): the two parts can be searched one by
one (`occurrences_append`, `replace_append`), and a piece in which nothing is found can
be replaced by another (`found_of_replaced`).
-/

namespace DateDisplay

namespace Text

variable {α : Type} {find : Text → Option (α × Nat)}

/-- What is found depends on the bytes that it takes and not on those behind them. -/
def Local (find : Text → Option (α × Nat)) : Prop :=
  ∀ s a n, find s = some (a, n) → ∃ m r, s = m ++ r ∧ m ≠ [] ∧ n = m.length ∧
    ∀ r', find (m ++ r') = some (a, m.length)

theorem Local.positive (hl : Local find) : Positive find := by
  intro s a n h
  obtain ⟨m, r, -, hm, rfl, -⟩ := hl s a n h
  exact List.length_pos_of_ne_nil hm

/-! ### Offsets -/

/-- The occurrence, `k` bytes further on. -/
def Occurrence.shift (k : Nat) (o : Occurrence α) : Occurrence α := { o with start := o.start + k }

/-- What was found, and not where. -/
def Occurrence.found (o : Occurrence α) : α × Text := (o.value, o.text)

theorem occurrencesFrom_add (find : Text → Option (α × Nat)) (k : Nat) :
    ∀ (s : Text) (i skip : Nat), occurrencesFrom find (i + k) skip s
      = (occurrencesFrom find i skip s).map (·.shift k) := by
  intro s
  induction s with
  | nil => intro i skip; simp
  | cons b t ih =>
    intro i skip
    have hi : i + k + 1 = i + 1 + k := by omega
    cases skip with
    | succ skip => rw [occurrencesFrom_succ, occurrencesFrom_succ, hi, ih]
    | zero =>
      rw [occurrencesFrom, occurrencesFrom, hi]
      split
      · rw [ih, List.map_cons]
        rfl
      · rw [ih]

theorem occurrencesFrom_of_none {b : UInt8} {t : Text} (h : find (b :: t) = none) (i : Nat) :
    occurrencesFrom find i 0 (b :: t) = occurrencesFrom find (i + 1) 0 t := by
  rw [occurrencesFrom, h]

theorem occurrencesFrom_of_some {m t : Text} {a : α} (hm : m ≠ [])
    (h : find (m ++ t) = some (a, m.length)) (i : Nat) :
    occurrencesFrom find i 0 (m ++ t)
      = ⟨i, m, a⟩ :: occurrencesFrom find (i + m.length) 0 t := by
  obtain ⟨b, m, rfl⟩ := List.exists_cons_of_ne_nil hm
  rw [List.cons_append] at h
  rw [List.cons_append, occurrencesFrom, h]
  simp only [List.length_cons, Nat.add_sub_cancel, List.take_succ_cons, List.take_left]
  rw [occurrencesFrom_eq_drop, List.drop_left, Nat.add_assoc, Nat.add_comm 1]

/-! ### Walks over the front of a text -/

/-- The walk over `u ++ v` comes to the front of `v` and finds `os` on the way, at
offsets from `i` on. -/
inductive Walk (find : Text → Option (α × Nat)) :
    Nat → Text → Text → List (Occurrence α) → Prop
  | nil (i : Nat) (v : Text) : Walk find i [] v []
  | gap {i : Nat} {b : UInt8} {u v : Text} {os : List (Occurrence α)} :
      find (b :: (u ++ v)) = none → Walk find (i + 1) u v os → Walk find i (b :: u) v os
  | hit {i : Nat} {m u v : Text} {a : α} {os : List (Occurrence α)} : m ≠ [] →
      find (m ++ (u ++ v)) = some (a, m.length) → Walk find (i + m.length) u v os →
      Walk find i (m ++ u) v (⟨i, m, a⟩ :: os)

namespace Walk

variable {i : Nat} {u v w : Text} {os : List (Occurrence α)}

theorem occurrencesFrom_eq (h : Walk find i u v os) :
    occurrencesFrom find i 0 (u ++ v) = os ++ occurrencesFrom find (i + u.length) 0 v := by
  induction h with
  | nil i v => rfl
  | gap hf _ ih =>
    rw [List.cons_append, occurrencesFrom_of_none hf, ih, List.length_cons, Nat.add_assoc,
      Nat.add_comm 1]
  | hit hm hf _ ih =>
    rw [List.append_assoc, occurrencesFrom_of_some hm hf, ih, List.cons_append,
      List.length_append, Nat.add_assoc]

/-- **What stands behind can be changed**, unless something is found then at a place
where nothing was. -/
theorem congr (hl : Local find) (h : Walk find i u v os)
    (hgap : ∀ x, x <:+ u → x ≠ [] → find (x ++ v) = none → find (x ++ w) = none) :
    Walk find i u w os := by
  induction h with
  | nil i v => exact .nil i w
  | @gap i b u v os hf _ ih =>
    refine .gap (hgap (b :: u) List.suffix_rfl (by simp) hf) (ih fun x hx => ?_)
    exact hgap x (hx.trans (List.suffix_cons b u))
  | @hit i m u v a os hm hf _ ih =>
    obtain ⟨m', r, hs, -, hlen, hall⟩ := hl _ _ _ hf
    obtain ⟨rfl, -⟩ := List.append_inj hs hlen
    refine .hit hm (hall _) (ih fun x hx => ?_)
    exact hgap x (hx.trans (List.suffix_append m u))

end Walk

/-! ### Findings that cross -/

/-- Nothing that starts in `u` reaches into `v` behind it. -/
def Uncrossed (find : Text → Option (α × Nat)) (u v : Text) : Prop :=
  ∀ x a n, x <:+ u → x ≠ [] → find (x ++ v) = some (a, n) → n ≤ x.length

/-- Nothing that is found starts in `u`, with `v` behind it. -/
def Bare (find : Text → Option (α × Nat)) (u v : Text) : Prop :=
  ∀ x, x <:+ u → x ≠ [] → find (x ++ v) = none

theorem uncrossed_nil (hl : Local find) (u : Text) : Uncrossed find u [] := by
  intro x a n _ _ hf
  obtain ⟨m, r, hs, -, rfl, -⟩ := hl _ _ _ hf
  rw [List.append_nil] at hs
  rw [hs, List.length_append]
  omega

theorem bare_nil (v : Text) : Bare find [] v := by
  intro x hx hne
  exact absurd (List.suffix_nil.mp hx) hne

theorem walk_of_bare {v : Text} : ∀ {u : Text}, Bare find u v → ∀ i, Walk find i u v [] := by
  intro u
  induction u with
  | nil => intro _ i; exact .nil i v
  | cons b u ih =>
    intro h i
    refine .gap (h (b :: u) List.suffix_rfl (by simp)) (ih (fun x hx => ?_) (i + 1))
    exact h x (hx.trans (List.suffix_cons b u))

theorem walk_of_uncrossed (hl : Local find) {u v : Text} (h : Uncrossed find u v) (i : Nat) :
    ∃ os, Walk find i u v os := by
  induction hn : u.length using Nat.strong_induction_on generalizing u i with
  | _ n ih =>
    cases u with
    | nil => exact ⟨[], .nil i v⟩
    | cons b u =>
      cases hf : find (b :: u ++ v) with
      | none =>
        obtain ⟨os, hw⟩ := ih u.length (by rw [← hn]; simp)
          (fun x a n hx => h x a n (hx.trans (List.suffix_cons b u))) (i + 1) rfl
        exact ⟨os, .gap hf hw⟩
      | some p =>
        obtain ⟨a, k⟩ := p
        obtain ⟨m, r, hs, hm, rfl, hall⟩ := hl _ _ _ hf
        have hk := h _ _ _ List.suffix_rfl (by simp) hf
        obtain ⟨u', hu'⟩ := List.prefix_of_prefix_length_le ⟨r, hs.symm⟩
          (List.prefix_append (b :: u) v) hk
        have hm' := List.length_pos_of_ne_nil hm
        have hlen : u'.length < n := by
          rw [← hn, ← hu', List.length_append]
          omega
        have h' : Uncrossed find u' v := fun x a n hx => h x a n (hx.trans ⟨m, hu'⟩)
        obtain ⟨os, hw⟩ := ih u'.length hlen h' (i + m.length) rfl
        exact ⟨⟨i, m, a⟩ :: os, hu' ▸ .hit hm (hall _) hw⟩

/-! ### Texts cut where nothing crosses -/

theorem Local.none_of_append (hl : Local find) {s t : Text} (h : find (s ++ t) = none) :
    find s = none := by
  by_contra hsome
  obtain ⟨⟨a, n⟩, hf⟩ := Option.ne_none_iff_exists'.mp hsome
  obtain ⟨m, r, rfl, -, -, hall⟩ := hl _ _ _ hf
  rw [List.append_assoc, hall] at h
  cases h

namespace Walk

variable {i : Nat} {u v : Text} {os : List (Occurrence α)}

theorem occurrencesFrom_front (hl : Local find) (h : Walk find i u v os) :
    occurrencesFrom find i 0 u = os := by
  have hfront : Walk find i u [] os := by
    refine h.congr hl fun x _ _ hnone => ?_
    rw [List.append_nil]
    exact hl.none_of_append hnone
  have hos := hfront.occurrencesFrom_eq
  rwa [List.append_nil, occurrencesFrom_nil, List.append_nil] at hos

theorem replace_eq (hl : Local find) (write : α → Text) (h : Walk find i u v os) :
    replace find write (u ++ v) = replace find write u ++ replace find write v := by
  induction h with
  | nil i v => rw [replace_nil, List.nil_append, List.nil_append]
  | @gap i b u v os hf _ ih =>
    have hfront : find (b :: u) = none := hl.none_of_append (t := v) hf
    rw [List.cons_append, replace_cons_of_none hf, replace_cons_of_none hfront, ih,
      List.cons_append]
  | @hit i m u v a os hm hf _ ih =>
    obtain ⟨m', r, hs, -, hlen, hall⟩ := hl _ _ _ hf
    obtain ⟨rfl, -⟩ := List.append_inj hs hlen
    have hne : ∀ t, m ++ t ≠ [] := fun t h => hm (List.append_eq_nil_iff.mp h).1
    rw [List.append_assoc, replace_of_some hl.positive (hne _) (hall _),
      replace_of_some hl.positive (hne _) (hall _), List.drop_left, List.drop_left, ih,
      List.append_assoc]

end Walk

/-- **Where nothing crosses, a text is searched piece by piece.** -/
theorem occurrences_append (hl : Local find) {u v : Text} (h : Uncrossed find u v) :
    occurrences find (u ++ v)
      = occurrences find u ++ (occurrences find v).map (·.shift u.length) := by
  obtain ⟨os, hw⟩ := walk_of_uncrossed hl h 0
  rw [occurrences, occurrences, occurrences, hw.occurrencesFrom_eq, hw.occurrencesFrom_front hl,
    occurrencesFrom_add]

/-- **Where nothing crosses, a text is replaced piece by piece.** -/
theorem replace_append (hl : Local find) (write : α → Text) {u v : Text}
    (h : Uncrossed find u v) :
    replace find write (u ++ v) = replace find write u ++ replace find write v := by
  obtain ⟨os, hw⟩ := walk_of_uncrossed hl h 0
  exact hw.replace_eq hl write

/-- **A piece in which nothing is found can be replaced by another** without a change
in what is found, if nothing crosses into either. -/
theorem found_of_replaced (hl : Local find) {u x y v : Text} (hx : Uncrossed find u (x ++ v))
    (hy : Uncrossed find u (y ++ v)) (hbx : Bare find x v) (hby : Bare find y v) :
    (occurrences find (u ++ (y ++ v))).map (·.found)
      = (occurrences find (u ++ (x ++ v))).map (·.found) := by
  obtain ⟨os, hw⟩ := walk_of_uncrossed hl hx 0
  have hw' : Walk find 0 u (y ++ v) os := by
    refine hw.congr hl fun z hz hne hnone => ?_
    by_contra hsome
    obtain ⟨⟨a, n⟩, hf⟩ := Option.ne_none_iff_exists'.mp hsome
    obtain ⟨m, r, hs, -, rfl, hall⟩ := hl _ _ _ hf
    obtain ⟨z', rfl⟩ := List.prefix_of_prefix_length_le ⟨r, hs.symm⟩
      (List.prefix_append z (y ++ v)) (hy z a _ hz hne hf)
    rw [List.append_assoc, hall] at hnone
    cases hnone
  have hrest : ∀ i j, (occurrencesFrom find i 0 v).map (·.found)
      = (occurrencesFrom find j 0 v).map (·.found) := by
    intro i j
    rw [← Nat.zero_add i, ← Nat.zero_add j, occurrencesFrom_add, occurrencesFrom_add,
      List.map_map, List.map_map]
    rfl
  rw [occurrences, occurrences, hw.occurrencesFrom_eq, hw'.occurrencesFrom_eq,
    (walk_of_bare hbx _).occurrencesFrom_eq, (walk_of_bare hby _).occurrencesFrom_eq,
    List.nil_append, List.nil_append, List.map_append, List.map_append, hrest]

/-! ### One of the findings -/

/-- **The walk comes to every finding.** -/
theorem walk_to_occurrence (hl : Local find) {o : Occurrence α} {after : List (Occurrence α)}
    {s : Text} : ∀ {i : Nat} {before : List (Occurrence α)},
      occurrencesFrom find i 0 s = before ++ o :: after → ∃ u m v, s = u ++ (m ++ v) ∧
        Walk find i u (m ++ v) before ∧ m ≠ [] ∧ (∀ r, find (m ++ r) = some (o.value, m.length)) ∧
        o = ⟨i + u.length, m, o.value⟩ ∧
        after = occurrencesFrom find (i + u.length + m.length) 0 v := by
  induction s using walk_induction hl.positive with
  | nil => intro i before h; simp at h
  | gap b t hf ih =>
    intro i before h
    rw [occurrencesFrom_of_none hf] at h
    obtain ⟨u, m, v, rfl, hw, hm, hfind, ho, hafter⟩ := ih h
    have hi : i + 1 + u.length = i + (b :: u).length := by rw [List.length_cons]; omega
    rw [hi] at ho hafter
    exact ⟨b :: u, m, v, rfl, .gap hf hw, hm, hfind, ho, hafter⟩
  | hit s a n hs hf ih =>
    intro i before h
    obtain ⟨m, r, rfl, hm, rfl, hall⟩ := hl _ _ _ hf
    rw [List.drop_left] at ih
    rw [occurrencesFrom_of_some hm hf] at h
    cases before with
    | nil =>
      obtain ⟨rfl, rfl⟩ := List.cons.inj h
      exact ⟨[], m, r, rfl, .nil i _, hm, hall, rfl, rfl⟩
    | cons o' before =>
      rw [List.cons_append, List.cons.injEq] at h
      obtain ⟨rfl, h⟩ := h
      obtain ⟨u, m', v, rfl, hw, hm', hfind, ho, hafter⟩ := ih h
      have hi : i + m.length + u.length = i + (m ++ u).length := by
        rw [List.length_append, Nat.add_assoc]
      rw [hi] at ho hafter
      exact ⟨m ++ u, m', v, by rw [List.append_assoc], .hit hm (hall _) hw, hm', hfind, ho,
        hafter⟩

end Text

end DateDisplay
