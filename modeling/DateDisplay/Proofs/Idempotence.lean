import DateDisplay.Proofs.Occurrences
import DateDisplay.Proofs.Substitution

/-!
# When a second substitution finds nothing

`scan_substitute` says that a substitution leaves no call site if the helper is not one
of the four names that end `new Date`.  Here it is shown that these four have to be left
out, whatever the locale.  In front of a call site stands the part of `new Date` that the
helper lacks, and behind it what a call site has behind its expression:

    new Dat new Date(x).toLocaleDateString('L') .toLocaleDateString('L')

without the two blanks.  With `e` for the helper this becomes a call site again
(`substitute_bait`).

`idempotent_iff_notMem_constructorTails` puts the two together.
-/

namespace DateDisplay

open Text

namespace CallSite

/-! ### A call site for every locale -/

theorem afterLocale?_append (locale s : Text) : afterLocale? locale (locale ++ s) = some s := by
  generalize ht : locale ++ s = t
  have hstrip : ∀ l : Text, strip? replacement (0xEF :: 0xBF :: 0xBD :: l ++ s) = some (l ++ s) :=
    fun l => strip?_append replacement (l ++ s)
  fun_induction afterLocale? locale t with
  | case1 t => rw [← ht, List.nil_append]
  | case2 locale t rest hs ih =>
    rw [← ht, hstrip, Option.some.injEq] at hs
    exact ih hs
  | case3 locale t hs _ _ =>
    rw [← ht, hstrip] at hs
    cases hs
  | case4 locale t hs _ =>
    rw [← ht, hstrip] at hs
    cases hs
  | case5 => cases ht
  | case6 a locale b t _ _ ih => exact ih (List.cons.inj ht).2
  | case7 a locale b t _ hab => exact absurd (beq_iff_eq.mpr (List.cons.inj ht).1) hab

theorem readsAs_self (locale : Text) : ReadsAs locale locale :=
  fun q r _ => afterLocale?_append locale (q :: r)

/-- What stands behind `new Date(x)` in a call site. -/
def ending (locale : Text) : Text :=
  lit ".toLocaleDateString('" ++ (locale ++ lit "')")

theorem spells_ending (locale : Text) :
    Spells locale ⟨.identifier, lit "x"⟩ (opening ++ (lit "x)" ++ ending locale)) := by
  refine ⟨39, locale, 39, ?_, by decide, by decide,
    ⟨by decide, List.forall_mem_singleton.mpr (by decide)⟩, readsAs_self locale⟩
  have h₁ : lit "x)" ++ lit ".toLocaleDateString('" = lit "x" ++ (middle ++ [39]) := by decide
  have h₂ : lit "')" = [39, ')'.toUInt8] := by decide
  rw [ending, ← List.append_assoc (lit "x)"), h₁, h₂]
  simp only [List.append_assoc, List.cons_append, List.nil_append]

/-- A call site has two opening parentheses, and what stands behind `new Date(x)` has
one. -/
theorem scan_ending {locale : Text} (hl : '('.toUInt8 ∉ locale) :
    scan locale (ending locale) = [] := by
  rw [scan, occurrences_eq_nil_iff]
  intro v _ hv
  by_contra hsome
  obtain ⟨⟨e, n⟩, hf⟩ := Option.ne_none_iff_exists'.mp hsome
  obtain ⟨m, r, rfl, -, hm⟩ := spells_of_recognise hf
  obtain ⟨c, q, t, rfl, -⟩ := Substitution.spells_parens hm hl
  have hone : (ending locale).count '('.toUInt8 = 1 := by
    rw [ending, List.count_append, List.count_append, List.count_eq_zero.mpr hl]
    decide
  have hle := (List.prefix_append _ r).sublist.count_le '('.toUInt8 |>.trans
    (hv.sublist.count_le '('.toUInt8)
  simp only [List.count_append, List.count_cons_self, hone] at hle
  omega

theorem bare_of_not_prefix {front : Text}
    (h : ∀ x ∈ front.tails, x = [] ∨ opening.isPrefixOf (x ++ opening) = false)
    (locale t : Text) : Bare (recognise locale) front (opening ++ t) := by
  intro x hx hne
  by_contra hsome
  obtain ⟨⟨e, n⟩, hf⟩ := Option.ne_none_iff_exists'.mp hsome
  obtain ⟨m, r, hr, -, q, l, q', rfl, -⟩ := spells_of_recognise hf
  have hlong : opening <+: x ++ opening ++ t := by
    rw [List.append_assoc, hr, List.append_assoc]
    exact List.prefix_append _ _
  have hshort : opening <+: x ++ opening :=
    List.prefix_of_prefix_length_le hlong (List.prefix_append _ _) (by simp)
  have hno := (h x ((List.mem_tails x front).mpr hx)).resolve_left hne
  rw [List.isPrefixOf_iff_prefix.mpr hshort] at hno
  cases hno

end CallSite

namespace Substitution

open CallSite

/-! ### Names that end `new Date` -/

/-- The part of `new Date` before the helper. -/
def lack (helper : Text) : Text := (lit "new Date").take (8 - helper.length)

theorem lack_append : ∀ h ∈ constructorTails, lack h ++ h = lit "new Date" := by decide

theorem lack_tails : ∀ h ∈ constructorTails, ∀ x ∈ (lack h).tails,
    x = [] ∨ opening.isPrefixOf (x ++ opening) = false := by decide

/-- A text in which a call site joins what is around it once it is replaced. -/
def bait (r : Substitution) : Text :=
  lack r.helper ++ (opening ++ (lit "x)" ++ ending r.locale) ++ ending r.locale)

theorem substitute_bait {r : Substitution} (hl : '('.toUInt8 ∉ r.locale)
    (hh : r.helper ∈ constructorTails) :
    r.substitute r.bait = opening ++ (lit "x)" ++ ending r.locale) := by
  have hsite := recognise_append (spells_ending r.locale) (ending r.locale)
  have hbare := bare_of_not_prefix (lack_tails r.helper hh) r.locale
    (lit "x)" ++ ending r.locale ++ ending r.locale)
  rw [← List.append_assoc] at hbare
  have hne : opening ≠ [] := by decide
  have hrest : r.substitute (ending r.locale) = ending r.locale :=
    substitute_of_scan_eq_nil (scan_ending hl)
  have hcall : lack r.helper ++ r.call (lit "x") = opening ++ lit "x)" := by
    have ho : opening ++ lit "x)" = lit "new Date" ++ '('.toUInt8 :: (lit "x" ++ [')'.toUInt8]) := by
      decide
    rw [ho, ← lack_append r.helper hh, call]
    simp only [List.append_assoc, List.cons_append]
  calc r.substitute r.bait
      = lack r.helper ++ (r.call (lit "x") ++ r.substitute (ending r.locale)) := by
        rw [bait, substitute, replace_append_of_bare hbare,
          replace_of_some (positive_recognise r.locale) (by simp [hne]) hsite,
          List.drop_left]
        rfl
    _ = opening ++ (lit "x)" ++ ending r.locale) := by
        rw [hrest, ← List.append_assoc, hcall, List.append_assoc]

theorem scan_substitute_bait {r : Substitution} (hl : '('.toUInt8 ∉ r.locale)
    (hh : r.helper ∈ constructorTails) : r.scan (r.substitute r.bait) ≠ [] := by
  have hsite := recognise_append (spells_ending r.locale) []
  rw [List.append_nil] at hsite
  obtain ⟨o, ho, -⟩ := exists_covering_occurrence (local_recognise r.locale) (k := 0) hsite
  rw [substitute_bait hl hh]
  exact List.ne_nil_of_mem ho

/-- **Substituting again changes nothing, unless the helper ends `new Date`.**  This is
so for every locale without an opening parenthesis: with any other name no text has a
call site left behind a substitution, and with each of the four some text has. -/
theorem idempotent_iff_notMem_constructorTails {r : Substitution} (hl : '('.toUInt8 ∉ r.locale)
    (hn : Plan.isName r.helper = true) :
    (∀ content, (r.apply (r.apply content).content).content = (r.apply content).content ∧
      (r.apply (r.apply content).content).count = 0) ↔ r.helper ∉ constructorTails := by
  constructor
  · intro h hh
    have hcount : (r.scan (r.substitute r.bait)).length = 0 := (h r.bait).2
    exact scan_substitute_bait hl hh (List.length_eq_zero_iff.mp hcount)
  · intro hh content
    have hscan : r.scan (r.substitute content) = [] := scan_substitute ⟨hl, hn, hh⟩ content
    exact ⟨substitute_of_scan_eq_nil hscan, List.length_eq_zero_iff.mpr hscan⟩

/-- The name `late` is none of the four although it ends in one of them, and `ate` is. -/
theorem idempotent_iff_notMem_constructorTails_late :
    let late : Substitution := ⟨lit "pt-BR", lit "late"⟩
    let ate : Substitution := ⟨lit "pt-BR", lit "ate"⟩
    (∀ content, (late.apply (late.apply content).content).content = (late.apply content).content ∧
      (late.apply (late.apply content).content).count = 0) ∧
    ¬∀ content, (ate.apply (ate.apply content).content).content = (ate.apply content).content ∧
      (ate.apply (ate.apply content).content).count = 0 := by
  intro late ate
  constructor
  · exact (idempotent_iff_notMem_constructorTails (r := late) (by decide) (by decide)).mpr
      (by decide)
  · intro h
    exact (idempotent_iff_notMem_constructorTails (r := ate) (by decide) (by decide)).mp h
      (by decide)

end Substitution

end DateDisplay
