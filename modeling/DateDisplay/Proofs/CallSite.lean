import DateDisplay.CallSite
import DateDisplay.Proofs.Walk

/-!
# How call sites are spelled

`parse?` reads a call site off the front of a text.  `Spells locale e m` says,
without reading, that the text `m` is a call site for `locale` with the
expression `e`: the fixed pieces, the expression between them, and two quotes
around something that reads as the locale.

What is read off is spelled so (`spells_of_parse?`), and what is spelled so is
read off, whatever follows (`parse?_append`).  So whether there is a call site at a
place depends on its own bytes only, and not on what stands behind it, although the
locale may have a replacement character in it that stands for any stray byte: a stray
byte before a quote is stray whatever comes after the quote (`startsStray_of_quote`).
-/

namespace DateDisplay

open Text

namespace CallSite

/-! ### Expressions -/

/-- The text of the expression is a name, or a name and one property of it, as
its shape says. -/
def WellFormed (e : DateExpression) : Prop :=
  match e.shape with
  | .identifier => e.text ≠ [] ∧ ∀ b ∈ e.text, isWord b = true
  | .property => ∃ name field, e.text = name ++ '.'.toUInt8 :: field ∧ name ≠ [] ∧ field ≠ [] ∧
      (∀ b ∈ name, isWord b = true) ∧ ∀ b ∈ field, isWord b = true

theorem isWord_dot : isWord '.'.toUInt8 = false := by decide

theorem isWord_close : isWord ')'.toUInt8 = false := by decide

theorem expression?_sound {s r : Text} {e : DateExpression} (h : expression? s = some (e, r)) :
    s = e.text ++ r ∧ WellFormed e := by
  rw [expression?] at h
  have hs : s.takeWhile isWord ++ s.dropWhile isWord = s := List.takeWhile_append_dropWhile
  have hw : ∀ b ∈ s.takeWhile isWord, isWord b = true := fun b => List.mem_takeWhile_imp
  generalize s.takeWhile isWord = name at h hs hw
  generalize s.dropWhile isWord = rest at h hs
  split at h
  · cases h
  · rename_i hn
    rw [List.isEmpty_iff] at hn
    split at h
    · rename_i b t
      split at h
      · rename_i hb
        have ht : t.takeWhile isWord ++ t.dropWhile isWord = t := List.takeWhile_append_dropWhile
        have hf : ∀ b ∈ t.takeWhile isWord, isWord b = true := fun b => List.mem_takeWhile_imp
        dsimp only at h
        split at h
        · cases h
        · rename_i hne
          rw [List.isEmpty_iff] at hne
          simp only [Option.some.injEq, Prod.mk.injEq] at h
          obtain ⟨rfl, rfl⟩ := h
          refine ⟨by rw [List.append_assoc, List.cons_append, ht, hs], ?_⟩
          exact ⟨name, t.takeWhile isWord, by rw [eq_of_beq hb], hn, hne, hw, hf⟩
      · simp only [Option.some.injEq, Prod.mk.injEq] at h
        obtain ⟨rfl, rfl⟩ := h
        exact ⟨hs.symm, hn, hw⟩
    · simp only [Option.some.injEq, Prod.mk.injEq] at h
      obtain ⟨rfl, rfl⟩ := h
      exact ⟨hs.symm, hn, hw⟩

theorem expression?_append {e : DateExpression} (h : WellFormed e) (r : Text) :
    expression? (e.text ++ ')'.toUInt8 :: r) = some (e, ')'.toUInt8 :: r) := by
  obtain ⟨shape, text⟩ := e
  cases shape with
  | identifier =>
    obtain ⟨hne, hw⟩ := h
    have hne' : text.isEmpty = false := by simpa using hne
    have hb : (')'.toUInt8 == '.'.toUInt8) = false := by decide
    rw [expression?, takeWhile_cut hw isWord_close, dropWhile_cut hw isWord_close]
    simp only [hne', hb, Bool.false_eq_true, if_false]
  | property =>
    obtain ⟨name, field, rfl, hn, hf, hw, hw'⟩ := h
    have hn' : name.isEmpty = false := by simpa using hn
    have hf' : field.isEmpty = false := by simpa using hf
    rw [expression?]
    simp only [List.append_assoc, List.cons_append]
    rw [takeWhile_cut hw isWord_dot, dropWhile_cut hw isWord_dot]
    simp only [hn', Bool.false_eq_true, if_false, beq_self_eq_true, if_true,
      takeWhile_cut hw' isWord_close, dropWhile_cut hw' isWord_close, hf']

theorem WellFormed.mem {e : DateExpression} (h : WellFormed e) {b : UInt8} (hb : b ∈ e.text) :
    isWord b = true ∨ b = '.'.toUInt8 := by
  obtain ⟨shape, text⟩ := e
  cases shape with
  | identifier => exact Or.inl (h.2 b hb)
  | property =>
    obtain ⟨name, field, he, -, -, hw, hw'⟩ := h
    simp only at he hb
    rw [he, List.mem_append, List.mem_cons] at hb
    rcases hb with hb | rfl | hb
    · exact Or.inl (hw b hb)
    · exact Or.inr rfl
    · exact Or.inl (hw' b hb)

theorem WellFormed.head {e : DateExpression} (h : WellFormed e) :
    ∃ b t, e.text = b :: t ∧ isWord b = true := by
  obtain ⟨shape, text⟩ := e
  cases shape with
  | identifier =>
    obtain ⟨b, t, rfl⟩ := List.exists_cons_of_ne_nil h.1
    exact ⟨b, t, rfl, h.2 b (by simp)⟩
  | property =>
    obtain ⟨name, field, rfl, hn, -, hw, -⟩ := h
    obtain ⟨b, t, rfl⟩ := List.exists_cons_of_ne_nil hn
    exact ⟨b, _, rfl, hw b (by simp)⟩

/-! ### Locales -/

theorem eq_of_isQuote {q : UInt8} (h : isQuote q = true) : q = 39 ∨ q = 34 := by
  rw [isQuote, Bool.or_eq_true, beq_iff_eq, beq_iff_eq] at h
  exact h

theorem startsStray_nil : startsStray [] = false := rfl

theorem le_of_startsStray {b : UInt8} {s : Text} (h : startsStray (b :: s) = true) : 0x80 ≤ b := by
  rcases UInt8.lt_or_le b 0x80 with hb | hb
  · simp [startsStray, decodeHead, hb] at h
  · exact hb

theorem isContinuation_quote {q : UInt8} (h : isQuote q = true) : isContinuation q = false := by
  rcases eq_of_isQuote h with rfl | rfl <;> decide

theorem secondOk_quote (a : UInt8) {q : UInt8} (h : isQuote q = true) : secondOk a q = false := by
  have hc := isContinuation_quote h
  rw [secondOk]
  rcases eq_of_isQuote h with rfl | rfl
  · simp [hc]
  · simp [hc]

/-- **A stray byte stays stray** when only what stands behind a later quote
changes. -/
theorem startsStray_of_quote {b q q' : UInt8} {l r r' : Text} (hq' : isQuote q' = true)
    (h : startsStray (b :: (l ++ q :: r)) = true) : startsStray (b :: (l ++ q' :: r')) = true := by
  have hb := UInt8.not_lt.mpr (le_of_startsStray h)
  have hc := isContinuation_quote hq'
  have hs := fun a => secondOk_quote a hq'
  -- a character has at most three bytes behind its first: the quote is one of them, or none of
  -- them has changed
  match l with
  | [] =>
    simp only [startsStray, decodeHead, List.nil_append, hc, hb, if_false]
    grind
  | [x] =>
    simp only [startsStray, decodeHead, List.cons_append, List.nil_append, hc] at h ⊢
    grind
  | [x, y] =>
    simp only [startsStray, decodeHead, List.cons_append, List.nil_append, hc] at h ⊢
    grind
  | x :: y :: z :: l => exact h

theorem strip?_replacement_of_startsStray {s : Text} (h : startsStray s = true) :
    strip? replacement s = none := by
  cases hs : strip? replacement s with
  | none => rfl
  | some r =>
    rw [strip?_eq_some_iff.mp hs] at h
    exact absurd h (by simp [startsStray, decodeHead, replacement, secondOk, isContinuation])

/-- `l` reads as the locale, whichever quote and whatever text stand behind it. -/
def ReadsAs (locale l : Text) : Prop :=
  ∀ q r, isQuote q = true → afterLocale? locale (l ++ q :: r) = some (q :: r)

/-- **What is read as a locale before a quote reads as it before any other.** -/
theorem readsAs_of_afterLocale? {q : UInt8} {r : Text} : ∀ {locale s : Text},
    afterLocale? locale s = some (q :: r) → ∃ l, s = l ++ q :: r ∧ ReadsAs locale l := by
  intro locale s h
  fun_induction afterLocale? locale s with
  | case1 s =>
    obtain rfl : s = q :: r := by simpa using h
    exact ⟨[], rfl, fun q' r' _ => by rw [List.nil_append, afterLocale?]⟩
  | case2 locale s rest hs ih =>
    obtain ⟨l, rfl, hl⟩ := ih h
    refine ⟨replacement ++ l, by rw [strip?_eq_some_iff.mp hs, List.append_assoc], ?_⟩
    intro q' r' hq'
    rw [afterLocale?, List.append_assoc, strip?_append]
    exact hl q' r' hq'
  | case3 locale s hs hstray ih =>
    cases s with
    | nil => rw [startsStray_nil] at hstray; cases hstray
    | cons b s =>
      obtain ⟨l, hsl, hl⟩ := ih h
      obtain rfl : s = l ++ q :: r := hsl
      refine ⟨b :: l, rfl, fun q' r' hq' => ?_⟩
      have hstray' : startsStray (b :: (l ++ q' :: r')) = true := startsStray_of_quote hq' hstray
      rw [afterLocale?, List.cons_append, strip?_replacement_of_startsStray hstray']
      simp only [hstray', if_true]
      exact hl q' r' hq'
  | case4 => cases h
  | case5 => cases h
  | case6 a locale b s hne hab ih =>
    obtain ⟨l, rfl, hl⟩ := ih h
    refine ⟨b :: l, rfl, fun q' r' hq' => ?_⟩
    rw [List.cons_append, afterLocale?]
    · rw [if_pos hab]
      exact hl q' r' hq'
    · exact hne
  | case7 => cases h

theorem mem_of_afterLocale? : ∀ {locale s r : Text}, afterLocale? locale s = some r →
    ∃ l, s = l ++ r ∧ ∀ b ∈ l, b < 0x80 → b ∈ locale := by
  intro locale s r h
  fun_induction afterLocale? locale s with
  | case1 s =>
    obtain rfl : s = r := by simpa using h
    exact ⟨[], rfl, by simp⟩
  | case2 locale s rest hs ih =>
    obtain ⟨l, rfl, hl⟩ := ih h
    refine ⟨replacement ++ l, by rw [strip?_eq_some_iff.mp hs, List.append_assoc], ?_⟩
    intro b hb hlt
    rw [List.mem_append] at hb
    rcases hb with hb | hb
    · have hr : replacement.all (fun b => !decide (b < 0x80)) = true := by decide
      have hb := List.all_eq_true.mp hr b hb
      simp [hlt] at hb
    · simp [hl b hb hlt]
  | case3 locale s hs hstray ih =>
    cases s with
    | nil => rw [startsStray_nil] at hstray; cases hstray
    | cons c s =>
      obtain ⟨l, hsl, hl⟩ := ih h
      obtain rfl : s = l ++ r := hsl
      refine ⟨c :: l, rfl, fun b hb hlt => ?_⟩
      rcases List.mem_cons.mp hb with rfl | hb
      · exact absurd hlt (UInt8.not_lt.mpr (le_of_startsStray hstray))
      · simp [hl b hb hlt]
  | case4 => cases h
  | case5 => cases h
  | case6 a locale c s hne hab ih =>
    obtain ⟨l, rfl, hl⟩ := ih h
    refine ⟨c :: l, rfl, fun b hb hlt => ?_⟩
    rcases List.mem_cons.mp hb with rfl | hb
    · rw [eq_of_beq hab]; simp
    · exact List.mem_cons_of_mem a (hl b hb hlt)
  | case7 => cases h

theorem ReadsAs.mem {locale l : Text} (h : ReadsAs locale l) {b : UInt8} (hb : b ∈ l)
    (hlt : b < 0x80) : b ∈ locale := by
  obtain ⟨l', he, hl'⟩ := mem_of_afterLocale? (h 39 [] (by decide))
  exact hl' b (List.append_cancel_right he ▸ hb) hlt

/-! ### Call sites -/

/-- `m` is a call site for `locale` with the expression `e`. -/
def Spells (locale : Text) (e : DateExpression) (m : Text) : Prop :=
  ∃ q l q', m = opening ++ (e.text ++ (middle ++ q :: (l ++ [q', ')'.toUInt8]))) ∧
    isQuote q = true ∧ isQuote q' = true ∧ WellFormed e ∧ ReadsAs locale l

theorem afterQuote?_eq_some_iff {s r : Text} :
    afterQuote? s = some r ↔ ∃ q, s = q :: r ∧ isQuote q = true := by
  cases s with
  | nil => simp [afterQuote?]
  | cons b t => simp [afterQuote?]; grind

theorem afterQuote?_cons {q : UInt8} (hq : isQuote q = true) (r : Text) :
    afterQuote? (q :: r) = some r := afterQuote?_eq_some_iff.mpr ⟨q, rfl, hq⟩

theorem spells_of_parse? {locale s r : Text} {e : DateExpression}
    (h : parse? locale s = some (e, r)) : ∃ m, s = m ++ r ∧ Spells locale e m := by
  simp only [parse?, Option.bind_eq_bind, Option.bind_eq_some_iff, Prod.exists, Option.pure_def,
    Option.some.injEq, Prod.mk.injEq] at h
  obtain ⟨s₁, h₁, e', s₂, h₂, s₃, h₃, s₄, h₄, s₅, h₅, s₆, h₆, s₇, h₇, rfl, rfl⟩ := h
  obtain ⟨rfl, he⟩ := expression?_sound h₂
  obtain ⟨q, rfl, hq⟩ := afterQuote?_eq_some_iff.mp h₄
  obtain ⟨q', rfl, hq'⟩ := afterQuote?_eq_some_iff.mp h₆
  obtain ⟨l, rfl, hl⟩ := readsAs_of_afterLocale? h₅
  rw [strip?_eq_some_iff] at h₁ h₃ h₇
  refine ⟨_, ?_, q, l, q', rfl, hq, hq', he, hl⟩
  rw [h₁, h₃, h₇]
  simp

theorem parse?_append {locale m : Text} {e : DateExpression} (h : Spells locale e m) (r : Text) :
    parse? locale (m ++ r) = some (e, r) := by
  obtain ⟨q, l, q', rfl, hq, hq', he, hl⟩ := h
  have hm : middle = ')'.toUInt8 :: middle.tail := by decide
  have h₂ := expression?_append he (middle.tail ++ q :: (l ++ q' :: ')'.toUInt8 :: r))
  rw [← List.cons_append, ← hm] at h₂
  have h₇ : strip? [')'.toUInt8] (')'.toUInt8 :: r) = some r := strip?_append [')'.toUInt8] r
  simp only [parse?, List.append_assoc, List.cons_append, List.nil_append, Option.bind_eq_bind,
    strip?_append, Option.bind_some, h₂, afterQuote?_cons hq, hl q' _ hq', afterQuote?_cons hq',
    h₇, Option.pure_def]

theorem spells_of_recognise {locale s : Text} {e : DateExpression} {n : Nat}
    (h : recognise locale s = some (e, n)) :
    ∃ m r, s = m ++ r ∧ n = m.length ∧ Spells locale e m := by
  rw [recognise, Option.map_eq_some_iff] at h
  obtain ⟨⟨e', r⟩, hp, hn⟩ := h
  obtain ⟨rfl, rfl⟩ := Prod.mk.inj hn
  obtain ⟨m, rfl, hm⟩ := spells_of_parse? hp
  exact ⟨m, r, rfl, by rw [List.length_append, Nat.add_sub_cancel], hm⟩

theorem recognise_append {locale m : Text} {e : DateExpression} (h : Spells locale e m) (r : Text) :
    recognise locale (m ++ r) = some (e, m.length) := by
  rw [recognise, parse?_append h, Option.map_some]
  simp only [List.length_append, Nat.add_sub_cancel]

theorem not_spells_of_recognise {locale m r : Text} {e : DateExpression}
    (h : recognise locale (m ++ r) = none) : ¬Spells locale e m := by
  intro hm
  rw [recognise_append hm] at h
  cases h

theorem positive_recognise (locale : Text) : Positive (recognise locale) := by
  intro s e n h
  obtain ⟨m, r, -, rfl, q, l, q', rfl, -⟩ := spells_of_recognise h
  rw [List.length_append]
  have : 0 < opening.length := by decide
  omega

theorem local_recognise (locale : Text) : Local (recognise locale) := by
  intro s e n h
  obtain ⟨m, r, rfl, rfl, hm⟩ := spells_of_recognise h
  refine ⟨m, r, rfl, ?_, rfl, recognise_append hm⟩
  rintro rfl
  exact absurd (positive_recognise locale _ _ _ h) (by simp)

end CallSite

end DateDisplay
