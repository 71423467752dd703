import DateDisplay.Plan
import DateDisplay.Proofs.CallSite
import DateDisplay.Substitution

/-!
# Substitution leaves no call site

A substitution goes through a text once, and what it has written is not read
again.  It could leave a call site behind all the same: what it writes might
join what stands around it.  `scan_substitute` says that this does not happen if
the locale has no opening parenthesis and the helper is a name other than `e`,
`te`, `ate` and `Date`.

A call site has two opening parentheses, one behind `new Date` and one behind
`toLocaleDateString`.  The parenthesis of a helper call is not the first, unless
the helper is one of those four names, and not the second, since no quote comes
after it.  So a call site that reaches into a helper call from the left would
have to end in the helper's name (`not_spells_into_call`), and one that starts in
a helper call has no blank where it needs one (`not_spells_of_class`).
-/

namespace DateDisplay

open Text CallSite

/-- The names that end `new Date`. -/
def CallSite.constructorTails : List Text := [lit "e", lit "te", lit "ate", lit "Date"]

namespace Substitution

/-- The locale has no opening parenthesis, and the helper is a name that does not
end `new Date`. -/
structure Safe (r : Substitution) : Prop where
  locale : '('.toUInt8 ∉ r.locale
  name : Plan.isName r.helper = true
  helper : r.helper ∉ constructorTails

/-! ### Names -/

/-- The bytes of names and of expressions. -/
def isCallByte (b : UInt8) : Bool := Plan.startsName b || isDigit b || b == '.'.toUInt8

theorem isCallByte_of_isWord {b : UInt8} (h : isWord b = true) : isCallByte b = true := by
  simp only [isWord, isCallByte, Plan.startsName, Bool.or_eq_true] at h ⊢
  tauto

theorem ne_nil_of_isName {h : Text} (hn : Plan.isName h = true) : h ≠ [] := by
  rintro rfl
  cases hn

theorem isCallByte_of_isName {h : Text} (hn : Plan.isName h = true) :
    ∀ b ∈ h, isCallByte b = true := by
  cases h with
  | nil => cases hn
  | cons c t =>
    rw [Plan.isName, Bool.and_eq_true, List.all_eq_true] at hn
    intro b hb
    rw [isCallByte, Bool.or_eq_true]
    rcases List.mem_cons.mp hb with rfl | hb
    · exact Or.inl (by rw [hn.1, Bool.true_or])
    · exact Or.inl (hn.2 b hb)

theorem isCallByte_of_wellFormed {e : DateExpression} (h : WellFormed e) :
    ∀ b ∈ e.text, isCallByte b = true := by
  intro b hb
  rcases h.mem hb with hw | rfl
  · exact isCallByte_of_isWord hw
  · decide

theorem mem_constructorTails {h : Text} (hn : Plan.isName h = true) (hs : h <:+ lit "new Date") :
    h ∈ constructorTails := by
  have hall : ∀ s ∈ (lit "new Date").tails, Plan.isName s = true → s ∈ constructorTails := by decide
  exact hall h ((List.mem_tails _ _).mpr hs) hn

/-! ### The parentheses of a call site -/

/-- The parts of a call site between its opening parentheses, of which there are
two. -/
theorem spells_parens {locale m : Text} {e : DateExpression} (h : Spells locale e m)
    (hl : '('.toUInt8 ∉ locale) : ∃ c q t,
      m = lit "new Date" ++ '('.toUInt8 :: (c ++ '('.toUInt8 :: (q :: t)) ∧
      '('.toUInt8 ∉ c ∧ isQuote q = true ∧ '('.toUInt8 ∉ q :: t := by
  obtain ⟨q, l, q', rfl, hq, hq', he, hr⟩ := h
  refine ⟨e.text ++ lit ").toLocaleDateString", q, l ++ [q', ')'.toUInt8], ?_, ?_, hq, ?_⟩
  · have ho : opening = lit "new Date" ++ ['('.toUInt8] := by decide
    have hm : middle = lit ").toLocaleDateString" ++ ['('.toUInt8] := by decide
    rw [ho, hm]
    simp only [List.append_assoc, List.cons_append, List.nil_append]
  · rw [List.mem_append, not_or]
    refine ⟨fun hm => ?_, by decide⟩
    have := isCallByte_of_wellFormed he _ hm
    revert this
    decide
  · have hne : ∀ x : UInt8, isQuote x = true → '('.toUInt8 ≠ x := by
      intro x hx
      rcases eq_of_isQuote hx with rfl | rfl <;> decide
    simp only [List.mem_cons, List.mem_append, List.not_mem_nil, or_false, not_or]
    exact ⟨hne q hq, fun hm => hl (hr.mem hm (by decide)), hne q' hq', by decide⟩

theorem spells_last {locale m : Text} {e : DateExpression} (h : Spells locale e m) :
    m.getLast? = some ')'.toUInt8 := by
  obtain ⟨q, l, q', rfl, -⟩ := h
  have hc : opening ++ (e.text ++ (middle ++ q :: (l ++ [q', ')'.toUInt8])))
      = opening ++ (e.text ++ (middle ++ q :: (l ++ [q']))) ++ [')'.toUInt8] := by simp
  rw [hc, List.getLast?_concat]

theorem not_spells_of_class {locale m rest u t : Text} {x : UInt8} {e : DateExpression}
    (h : m ++ rest = u ++ x :: t) (hu : ∀ b ∈ u, isCallByte b = true)
    (hx : isCallByte x = false) (hb : x ≠ 32) : ¬Spells locale e m := by
  rintro ⟨q, l, q', rfl, -⟩
  have ho : opening = lit "new" ++ 32 :: lit "Date(" := by decide
  rw [ho, List.append_assoc, List.append_assoc, List.cons_append] at h
  obtain ⟨-, he, -⟩ := class_cut_inj h.symm hu (List.all_eq_true.mp (by decide)) hx (by decide)
  exact hb he

theorem not_spells_into_call {r : Substitution} (hr : r.Safe) {e e' : DateExpression}
    (he : WellFormed e) {g x rest s : Text} (hx : x ≠ [])
    (h : x ++ rest = r.call e.text ++ s) : ¬Spells r.locale e' (g ++ x) := by
  intro hm
  have hlast : ∀ y, y ≠ [] → y <:+ x → (∀ b ∈ y, isCallByte b = true) → False := by
    rintro y hy ⟨u, rfl⟩ hall
    have hl := spells_last hm
    rw [← List.append_assoc, List.getLast?_append_of_ne_nil _ hy,
      List.getLast?_eq_some_getLast hy, Option.some.injEq] at hl
    have := hall _ (List.getLast_mem hy)
    rw [hl] at this
    revert this
    decide
  rw [call, List.append_assoc, List.cons_append, List.append_assoc, List.cons_append] at h
  have hname := isCallByte_of_isName hr.name
  rcases List.append_eq_append_iff.mp h with ⟨a, ha, -⟩ | ⟨c, rfl, hc⟩
  · exact hlast x hx List.suffix_rfl fun b hb => hname b (by rw [ha]; simp [hb])
  · cases c with
    | nil => exact hlast r.helper (ne_nil_of_isName hr.name) (by simp) hname
    | cons p y =>
      rw [List.cons_append, List.cons.injEq] at hc
      obtain ⟨rfl, hy⟩ := hc
      obtain ⟨c, q, t, hc, hnc, hq, hnt⟩ := spells_parens hm hr.locale
      rw [← List.append_assoc] at hc
      -- the parenthesis of the helper call is the first of the call site, the second, or neither
      rcases cut_eq_or_later hc (by decide) with ⟨hd, -⟩ | ⟨w, -, hw⟩
      · exact hr.helper (mem_constructorTails hr.name ⟨g, hd⟩)
      · rcases cut_eq_or_later hw hnc with ⟨-, rfl⟩ | ⟨w', -, hw'⟩
        · obtain ⟨b, t', hb, hword⟩ := he.head
          rw [hb, List.cons_append, List.cons_append, List.cons.injEq] at hy
          rw [← hy.1] at hq
          rcases eq_of_isQuote hq with rfl | rfl <;> revert hword <;> decide
        · exact hnt (by rw [← hw']; simp)

/-! ### The text behind a substitution -/

theorem wellFormed_of_recognise {locale s : Text} {e : DateExpression} {n : Nat}
    (h : recognise locale s = some (e, n)) : WellFormed e := by
  obtain ⟨m, t, -, -, q, l, q', -, -, -, he, -⟩ := spells_of_recognise h
  exact he

/-- Nothing is recognised at the front of what a byte and a substituted text
spell, if nothing was before the substitution. -/
theorem recognise_cons_substitute {r : Substitution} (hr : r.Safe) {b : UInt8} {t : Text}
    (h : recognise r.locale (b :: t) = none) :
    recognise r.locale (b :: r.substitute t) = none := by
  by_contra hne
  obtain ⟨⟨e', n⟩, hs⟩ := Option.ne_none_iff_exists'.mp hne
  obtain ⟨m, rest, hmr, -, hm⟩ := spells_of_recognise hs
  rcases replace_eq_or_first (positive_recognise r.locale)
    (fun e : DateExpression => r.call e.text) t with ht | ⟨g, u, a, k, rfl, hu, ht⟩
  · rw [substitute, ht] at hmr
    exact not_spells_of_recognise (hmr ▸ h) hm
  · rw [substitute, ht, ← List.cons_append] at hmr
    rcases List.append_eq_append_iff.mp hmr.symm with ⟨x, hx, -⟩ | ⟨x, rfl, hx⟩
    · rw [← List.cons_append, hx, List.append_assoc] at h
      exact not_spells_of_recognise h hm
    · cases x with
      | nil =>
        rw [List.append_nil] at hm
        exact not_spells_of_recognise (m := b :: g) h hm
      | cons c x =>
        exact not_spells_into_call hr (wellFormed_of_recognise hu) (by simp) hx.symm hm

theorem recognise_in_call {r : Substitution} (hr : r.Safe) {e : DateExpression} (he : WellFormed e)
    {v s : Text} (hv : v ≠ []) (hs : v <:+ r.call e.text) :
    recognise r.locale (v ++ s) = none := by
  by_contra hne
  obtain ⟨⟨e', n⟩, hrec⟩ := Option.ne_none_iff_exists'.mp hne
  obtain ⟨m, rest, hmr, -, hm⟩ := spells_of_recognise hrec
  obtain ⟨u, hu⟩ := hs
  rw [call, List.append_assoc, List.cons_append] at hu
  rcases List.append_eq_append_iff.mp hu.symm with ⟨w, -, hw⟩ | ⟨w, hw, rfl⟩
  · cases w with
    | nil =>
      obtain rfl : '('.toUInt8 :: (e.text ++ [')'.toUInt8]) = v := by simpa using hw
      exact not_spells_of_class (u := []) hmr.symm (by simp) (by decide) (by decide) hm
    | cons p w =>
      rw [List.cons_append, List.cons.injEq] at hw
      rcases List.append_eq_append_iff.mp hw.2 with ⟨a, -, ha⟩ | ⟨a, ha, rfl⟩
      · cases a with
        | nil =>
          obtain rfl : [')'.toUInt8] = v := by simpa using ha
          exact not_spells_of_class (u := []) hmr.symm (by simp) (by decide) (by decide) hm
        | cons c a => exact hv (List.append_eq_nil_iff.mp (List.cons.inj ha).2.symm).2
      · have hexpr := isCallByte_of_wellFormed he
        rw [List.append_assoc, List.singleton_append] at hmr
        exact not_spells_of_class hmr.symm (fun b hb => hexpr b (by rw [ha]; simp [hb])) (by decide)
          (by decide) hm
  · have hname := isCallByte_of_isName hr.name
    rw [List.append_assoc, List.cons_append] at hmr
    exact not_spells_of_class hmr.symm (fun b hb => hname b (by rw [hw]; simp [hb])) (by decide)
      (by decide) hm

/-- **Substitution leaves no call site.** -/
theorem scan_substitute {r : Substitution} (hr : r.Safe) (content : Text) :
    r.scan (r.substitute content) = [] := by
  rw [scan, CallSite.scan, occurrences_eq_nil_iff]
  induction content using walk_induction (positive_recognise r.locale) with
  | nil =>
    intro v hv hs
    rw [substitute, replace_nil, List.suffix_nil] at hs
    exact absurd hs hv
  | gap b t hf ih =>
    intro v hv hs
    rw [substitute, replace_cons_of_none hf] at hs
    rcases List.suffix_cons_iff.mp hs with rfl | hs
    · exact recognise_cons_substitute hr hf
    · exact ih v hv hs
  | hit s e n hs hf ih =>
    intro v hv hsuf
    rw [substitute, replace_of_some (positive_recognise r.locale) hs hf] at hsuf
    obtain ⟨u, hu⟩ := hsuf
    rcases List.append_eq_append_iff.mp hu with ⟨w, hw, rfl⟩ | ⟨w, -, hw⟩
    · cases w with
      | nil => exact ih _ hv (by simp [substitute])
      | cons c w =>
        exact recognise_in_call hr (wellFormed_of_recognise hf) (by simp) ⟨u, hw.symm⟩
    · exact ih v hv ⟨w, hw.symm⟩

theorem occurs_helper_substitute {r : Substitution} {content : Text} (h : r.scan content ≠ []) :
    occurs r.helper (r.substitute content) = true := by
  obtain ⟨e, he⟩ := exists_isInfix_write (positive_recognise r.locale)
    (fun e : DateExpression => r.call e.text) h
  rw [occurs_iff_isInfix]
  refine List.IsInfix.trans ?_ he
  rw [call, List.append_assoc]
  exact (List.prefix_append _ _).isInfix

theorem substitute_of_scan_eq_nil {r : Substitution} {content : Text} (h : r.scan content = []) :
    r.substitute content = content :=
  replace_of_occurrences_eq_nil h

end Substitution

end DateDisplay
