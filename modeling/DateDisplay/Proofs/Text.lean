import DateDisplay.Text
import Mathlib.Data.List.Infix
import Mathlib.Data.List.TakeWhile

/-!
# Texts cut in two

Facts about the plain operations on texts: `occurs` decides whether one text is
a contiguous piece of another, `strip?` takes a leading piece off, and a text
that is cut at a byte in two ways is cut at the same place unless the byte also
stands further to the front.  `join_splitOn` says that the pieces of a text join to
the text again, and `splitOn_join` that pieces free of a byte can be joined by it and
cut apart again.
-/

namespace DateDisplay

namespace Text

/-! ### Pieces of a text -/

theorem occurs_iff_isInfix (p : Text) : ∀ s : Text, occurs p s = true ↔ p <:+: s := by
  intro s
  induction s with
  | nil => rw [occurs_nil, List.isEmpty_iff, List.infix_nil]
  | cons b t ih =>
    rw [occurs_cons, Bool.or_eq_true, ih, List.isPrefixOf_iff_prefix, List.infix_cons_iff]

theorem strip?_eq_some_iff : ∀ {p s r : Text}, strip? p s = some r ↔ s = p ++ r := by
  intro p
  induction p with
  | nil => intro s r; rw [strip?_nil, Option.some.injEq, List.nil_append]
  | cons a p ih =>
    intro s r
    cases s with
    | nil => simp [strip?]
    | cons b s =>
      rw [strip?]
      split
      · rename_i h
        rw [ih, eq_of_beq h, List.cons_append, List.cons.injEq, eq_self, true_and]
      · rename_i h
        simp only [reduceCtorEq, List.cons_append, List.cons.injEq, false_iff, not_and]
        intro he
        exact absurd (beq_iff_eq.mpr he.symm) h

theorem strip?_append (p r : Text) : strip? p (p ++ r) = some r :=
  strip?_eq_some_iff.mpr rfl

theorem strip?_append_right {t : Text} : ∀ {p s : Text}, p.length ≤ s.length →
    strip? p (s ++ t) = (strip? p s).map (· ++ t) := by
  intro p
  induction p with
  | nil => intro s _; rw [strip?_nil, strip?_nil, Option.map_some]
  | cons a p ih =>
    intro s h
    cases s with
    | nil => simp at h
    | cons b s =>
      rw [List.cons_append, strip?, strip?]
      split
      · exact ih (Nat.le_of_succ_le_succ h)
      · rfl

/-- What is cut at the byte `x` twice, the second time at its first occurrence,
is cut at the same place, or later the first time. -/
theorem cut_eq_or_later {x : UInt8} {u s v t : Text} (h : u ++ x :: s = v ++ x :: t) (hv : x ∉ v) :
    (u = v ∧ s = t) ∨ ∃ w, u = v ++ x :: w ∧ w ++ x :: s = t := by
  rcases List.append_eq_append_iff.mp h with ⟨w, rfl, hs⟩ | ⟨w, rfl, ht⟩
  · cases w with
    | nil => exact Or.inl ⟨by rw [List.append_nil], by simpa using hs⟩
    | cons c w =>
      obtain ⟨rfl, -⟩ : x = c ∧ _ := by simpa using hs
      exact absurd (by simp) hv
  · cases w with
    | nil => exact Or.inl ⟨by rw [List.append_nil], by simpa using ht.symm⟩
    | cons c w =>
      obtain ⟨rfl, rfl⟩ : x = c ∧ _ := by simpa using ht
      exact Or.inr ⟨w, rfl, rfl⟩

theorem cut_behind {x : UInt8} {a b u v : Text} (h : a ++ b = u ++ x :: v) (ha : x ∉ a) :
    ∃ w, u = a ++ w ∧ b = w ++ x :: v := by
  rcases List.append_eq_append_iff.mp h with ⟨w, rfl, hb⟩ | ⟨w, rfl, hb⟩
  · exact ⟨w, rfl, hb⟩
  · cases w with
    | nil => exact ⟨[], by simp, by simpa using hb.symm⟩
    | cons c w =>
      obtain ⟨rfl, -⟩ : x = c ∧ _ := by simpa using hb
      exact absurd (by simp) ha

theorem exists_concat_of_append_eq {a x u : Text} {b : UInt8} (h : a ++ x = u ++ [b])
    (hx : x ≠ []) : ∃ y, x = y ++ [b] := by
  obtain ⟨y, c, rfl⟩ := (List.eq_nil_or_concat' x).resolve_left hx
  rw [← List.append_assoc] at h
  obtain ⟨-, hc⟩ := List.append_inj' h rfl
  exact ⟨y, by rw [hc]⟩

theorem class_cut_inj {p : UInt8 → Bool} {x y : UInt8} {u s v t : Text}
    (h : u ++ x :: s = v ++ y :: t) (hu : ∀ b ∈ u, p b = true) (hv : ∀ b ∈ v, p b = true)
    (hx : p x = false) (hy : p y = false) : u = v ∧ x = y ∧ s = t := by
  induction u generalizing v with
  | nil =>
    cases v with
    | nil => simpa using h
    | cons c v =>
      obtain ⟨rfl, -⟩ : x = c ∧ _ := by simpa using h
      rw [hv x (by simp)] at hx
      cases hx
  | cons b u ih =>
    cases v with
    | nil =>
      obtain ⟨rfl, -⟩ : b = y ∧ _ := by simpa using h
      rw [hu b (by simp)] at hy
      cases hy
    | cons c v =>
      obtain ⟨rfl, ht⟩ := List.cons.inj h
      obtain ⟨rfl, hxy⟩ := ih ht (fun a ha => hu a (by simp [ha])) (fun a ha => hv a (by simp [ha]))
      exact ⟨rfl, hxy⟩

theorem takeWhile_cut {p : UInt8 → Bool} {x : UInt8} {u s : Text} (hu : ∀ b ∈ u, p b = true)
    (hx : p x = false) : (u ++ x :: s).takeWhile p = u := by
  rw [List.takeWhile_append_of_pos hu, List.takeWhile_cons_of_neg (by simp [hx]), List.append_nil]

theorem dropWhile_cut {p : UInt8 → Bool} {x : UInt8} {u s : Text} (hu : ∀ b ∈ u, p b = true)
    (hx : p x = false) : (u ++ x :: s).dropWhile p = x :: s := by
  rw [List.dropWhile_append_of_pos hu, List.dropWhile_cons_of_neg (by simp [hx])]

theorem infix_append_cons {x : UInt8} {p s t : Text} (hp : x ∉ p) (h : p <:+: s ++ x :: t) :
    p <:+: s ∨ p <:+: t := by
  obtain ⟨u, v, h⟩ := h
  rcases List.append_eq_append_iff.mp h with ⟨a, ha, -⟩ | ⟨c, hc, hv⟩
  · exact Or.inl ⟨u, a, ha.symm⟩
  · cases c with
    | nil => exact Or.inl ⟨u, [], by simpa using hc⟩
    | cons y c =>
      obtain ⟨rfl, rfl⟩ : x = y ∧ t = c ++ v := by simpa using hv
      rcases List.append_eq_append_iff.mp hc with ⟨a, -, ha⟩ | ⟨a, -, ha⟩
      · exact absurd (by rw [ha]; simp) hp
      · cases a with
        | nil => exact absurd (by rw [← List.nil_append p, ← ha]; simp) hp
        | cons z a =>
          have hc' : c = a ++ p := (List.cons.inj ha).2
          exact Or.inr ⟨a, v, by rw [hc']⟩

/-! ### Cutting and joining -/

theorem splitFrom_ne_nil (sep : Text) : ∀ (skip : Nat) (s : Text), splitFrom sep skip s ≠ [] := by
  intro skip s
  fun_induction splitFrom sep skip s with
  | case1 => simp
  | case2 _ _ _ ih => exact ih
  | case3 => simp
  | case4 => simp
  | case5 => simp

theorem join_cons {sep p : Text} {ps : List Text} (h : ps ≠ []) :
    join sep (p :: ps) = p ++ sep ++ join sep ps := by
  obtain ⟨q, ps, rfl⟩ := List.exists_cons_of_ne_nil h
  rfl

theorem join_splitFrom (sep : Text) : ∀ (skip : Nat) (s : Text), sep ≠ [] →
    join sep (splitFrom sep skip s) = s.drop skip := by
  intro skip s hsep
  fun_induction splitFrom sep skip s with
  | case1 => simp
  | case2 skip b t ih => rw [ih, List.drop_succ_cons]
  | case3 b t hp ih =>
    obtain ⟨r, hr⟩ := List.isPrefixOf_iff_prefix.mp hp
    obtain ⟨c, sep, rfl⟩ := List.exists_cons_of_ne_nil hsep
    obtain ⟨rfl, rfl⟩ := List.cons.inj hr
    rw [join_cons (splitFrom_ne_nil _ _ _), ih]
    simp
  | case4 b t _ he => exact absurd he (splitFrom_ne_nil _ _ _)
  | case5 b t _ p ps he ih =>
    rw [he] at ih
    cases ps with
    | nil =>
      rw [join_singleton] at ih
      rw [join_singleton, ih]
      rfl
    | cons q ps =>
      rw [join_cons (by simp)] at ih
      rw [join_cons (by simp), List.cons_append, List.cons_append, ih]
      rfl

/-- **The pieces of a text join to it.** -/
theorem join_splitOn {sep : Text} (h : sep ≠ []) (s : Text) : join sep (splitOn sep s) = s :=
  join_splitFrom sep 0 s h

theorem infix_join {sep p : Text} : ∀ {ps : List Text}, p ∈ ps → p <:+: join sep ps := by
  intro ps
  induction ps with
  | nil => intro h; cases h
  | cons q ps ih =>
    intro h
    cases ps with
    | nil =>
      obtain rfl : p = q := by simpa using h
      rw [join_singleton]
    | cons r ps =>
      rw [join]
      rcases List.mem_cons.mp h with rfl | h
      · rw [List.append_assoc]
        exact (List.prefix_append _ _).isInfix
      · exact (ih h).trans (List.suffix_append _ _).isInfix

theorem infix_of_infix_join {x : UInt8} {p : Text} (hp : x ∉ p) (hne : p ≠ []) :
    ∀ {ps : List Text}, p <:+: join [x] ps → ∃ q ∈ ps, p <:+: q := by
  intro ps
  induction ps with
  | nil => intro h; exact absurd (List.infix_nil.mp h) hne
  | cons q ps ih =>
    intro h
    by_cases hps : ps = []
    · subst hps
      exact ⟨q, by simp, h⟩
    · rw [join_cons hps, List.append_assoc, List.singleton_append] at h
      rcases infix_append_cons hp h with h | h
      · exact ⟨q, by simp, h⟩
      · obtain ⟨q', hq', h⟩ := ih h
        exact ⟨q', by simp [hq'], h⟩

/-! ### Cutting at a byte and joining by it -/

theorem splitOn_nil (x : UInt8) : splitOn [x] [] = [[]] := rfl

theorem splitOn_cons_self (x : UInt8) (t : Text) : splitOn [x] (x :: t) = [] :: splitOn [x] t := by
  simp [splitOn, splitFrom]

theorem splitOn_ne_nil (x : UInt8) (s : Text) : splitOn [x] s ≠ [] := by
  cases s with
  | nil => simp [splitOn_nil]
  | cons b t =>
    rw [splitOn, splitFrom]
    split
    · simp
    · split <;> simp

theorem splitOn_cons_of_ne {x b : UInt8} (h : b ≠ x) {t p : Text} {ps : List Text}
    (ht : splitOn [x] t = p :: ps) : splitOn [x] (b :: t) = (b :: p) :: ps := by
  have hn : ([x] : Text).isPrefixOf (b :: t) = false := by simp [List.isPrefixOf, Ne.symm h]
  rw [splitOn, splitFrom, hn]
  rw [splitOn] at ht
  rw [ht]
  rfl

theorem notMem_of_mem_splitOn (x : UInt8) (s : Text) : ∀ c ∈ splitOn [x] s, x ∉ c := by
  induction s with
  | nil => simp [splitOn_nil]
  | cons b t ih =>
    intro c hc
    by_cases hb : b = x
    · subst hb
      rw [splitOn_cons_self, List.mem_cons] at hc
      rcases hc with rfl | hc
      · simp
      · exact ih c hc
    · obtain ⟨p, ps, hp⟩ := List.exists_cons_of_ne_nil (splitOn_ne_nil x t)
      rw [splitOn_cons_of_ne hb hp, List.mem_cons] at hc
      rcases hc with rfl | hc
      · rw [List.mem_cons, not_or]
        exact ⟨Ne.symm hb, ih p (by rw [hp]; simp)⟩
      · exact ih c (by rw [hp]; simp [hc])

theorem splitOn_of_notMem {x : UInt8} : ∀ {s : Text}, x ∉ s → splitOn [x] s = [s] := by
  intro s
  induction s with
  | nil => intro _; rfl
  | cons b t ih =>
    intro h
    rw [List.mem_cons, not_or] at h
    exact splitOn_cons_of_ne (Ne.symm h.1) (ih h.2)

theorem splitOn_append_cons {x : UInt8} {t : Text} :
    ∀ {s : Text}, x ∉ s → splitOn [x] (s ++ x :: t) = s :: splitOn [x] t := by
  intro s
  induction s with
  | nil => intro _; exact splitOn_cons_self x t
  | cons b u ih =>
    intro h
    rw [List.mem_cons, not_or] at h
    exact splitOn_cons_of_ne (Ne.symm h.1) (ih h.2)

theorem splitOn_append (x : UInt8) (t : Text) : ∀ s : Text,
    splitOn [x] (s ++ x :: t) = splitOn [x] s ++ splitOn [x] t := by
  intro s
  induction s with
  | nil => exact splitOn_cons_self x t
  | cons b s ih =>
    by_cases hb : b = x
    · subst hb
      rw [List.cons_append, splitOn_cons_self, splitOn_cons_self, ih, List.cons_append]
    · obtain ⟨p, ps, hp⟩ := List.exists_cons_of_ne_nil (splitOn_ne_nil x s)
      rw [hp, List.cons_append] at ih
      rw [List.cons_append, splitOn_cons_of_ne hb ih, splitOn_cons_of_ne hb hp, List.cons_append]

theorem splitOn_append_of_notMem {x : UInt8} {g : Text} (hg : x ∉ g) : ∀ s : Text, ∃ ps p,
    splitOn [x] s = ps ++ [p] ∧ splitOn [x] (s ++ g) = ps ++ [p ++ g] := by
  intro s
  induction s with
  | nil => exact ⟨[], [], rfl, splitOn_of_notMem hg⟩
  | cons b s ih =>
    obtain ⟨ps, p, h, h'⟩ := ih
    by_cases hb : b = x
    · subst hb
      exact ⟨[] :: ps, p, by rw [splitOn_cons_self, h]; rfl,
        by rw [List.cons_append, splitOn_cons_self, h']; rfl⟩
    · cases ps with
      | nil => exact ⟨[], b :: p, splitOn_cons_of_ne hb h, splitOn_cons_of_ne hb h'⟩
      | cons q ps => exact ⟨(b :: q) :: ps, p, splitOn_cons_of_ne hb h, splitOn_cons_of_ne hb h'⟩

/-- **Pieces without a byte are recovered from what they join to.** -/
theorem splitOn_join {x : UInt8} : ∀ {cs : List Text}, cs ≠ [] → (∀ c ∈ cs, x ∉ c) →
    splitOn [x] (join [x] cs) = cs := by
  intro cs
  induction cs with
  | nil => intro h _; exact absurd rfl h
  | cons c cs ih =>
    intro _ h
    cases cs with
    | nil => rw [join_singleton, splitOn_of_notMem (h c (by simp))]
    | cons d cs =>
      rw [join, List.append_assoc, List.singleton_append, splitOn_append_cons (h c (by simp)),
        ih (by simp) (fun e he => h e (by simp [he]))]

/-! ### The end of a text -/

theorem trimEnd_append (p : UInt8 → Bool) (s : Text) :
    ∃ g, s = trimEnd p s ++ g ∧ ∀ b ∈ g, p b = true := by
  refine ⟨(s.reverse.takeWhile p).reverse, ?_, fun b hb => ?_⟩
  · rw [trimEnd, ← List.reverse_append, List.takeWhile_append_dropWhile, List.reverse_reverse]
  · exact List.mem_takeWhile_imp (List.mem_reverse.mp hb)

theorem trimEnd_eq_nil_or_concat (p : UInt8 → Bool) (s : Text) :
    trimEnd p s = [] ∨ ∃ w b, trimEnd p s = w ++ [b] ∧ p b = false := by
  rw [trimEnd]
  cases h : s.reverse.dropWhile p with
  | nil => exact Or.inl rfl
  | cons b t =>
    refine Or.inr ⟨t.reverse, b, List.reverse_cons, ?_⟩
    have hne : s.reverse.dropWhile p ≠ [] := by simp [h]
    have hb := List.head_dropWhile_not p hne
    simpa only [h, List.head_cons] using hb

/-! ### Lists without repetitions -/

theorem nodup_distinct : ∀ ts : List Text, (distinct ts).Nodup := by
  intro ts
  induction ts with
  | nil => exact List.nodup_nil
  | cons u ts ih =>
    rw [distinct, List.nodup_cons]
    exact ⟨by simp, ih.filter _⟩

theorem mem_distinct {t : Text} : ∀ {ts : List Text}, t ∈ distinct ts ↔ t ∈ ts := by
  intro ts
  induction ts with
  | nil => exact Iff.rfl
  | cons u ts ih =>
    rw [distinct, List.mem_cons, List.mem_cons, List.mem_filter, ih, bne_iff_ne]
    tauto

theorem distinct_append (ys : List Text) : ∀ xs : List Text,
    distinct (xs ++ ys) = distinct xs ++ (distinct ys).filter (· ∉ xs) := by
  intro xs
  induction xs with
  | nil => simp [distinct]
  | cons x xs ih =>
    have hnew : ∀ y, (y != x && decide (y ∉ xs)) = decide (y ∉ x :: xs) := by
      intro y
      rw [Bool.eq_iff_iff]
      simp
    rw [List.cons_append, distinct, ih, List.filter_append, List.filter_filter, distinct,
      List.cons_append]
    simp only [hnew]

theorem distinct_concat {t : Text} {ts : List Text} (h : t ∉ ts) :
    distinct (ts ++ [t]) = distinct ts ++ [t] := by
  rw [distinct_append, distinct, distinct, List.filter_nil,
    List.filter_cons_of_pos (by simpa using h), List.filter_nil]

end Text

end DateDisplay
