import DateDisplay.Proofs.CallSite
import DateDisplay.Proofs.Occurrences
import DateDisplay.Substitution

/-!
# The call sites that a scan reports

`Written locale e m` says what a call site looks like: the two fixed pieces with a date
expression between them, then the locale between two quotes, each of either kind, and a
closing parenthesis.

A locale may have a replacement character in it, which also stands for a stray byte of
the file.  Without one it reads as itself only (`readsAs_iff`), and then the reader finds
what is written in this form and nothing else (`spells_iff_written`).
`substitution_follows_scan` says what this makes of a whole file: which call sites are
reported, that none is missed, and that a substitution touches these and no other byte.
-/

namespace DateDisplay

open Text

namespace CallSite

/-- `m` is a call site with the expression `e` and with the locale itself between the
quotes. -/
def Written (locale : Text) (e : DateExpression) (m : Text) : Prop :=
  ∃ q q', isQuote q = true ∧ isQuote q' = true ∧ WellFormed e ∧
    m = opening ++ e.text ++ middle ++ [q] ++ locale ++ [q', ')'.toUInt8]

/-! ### Locales that read as themselves -/

theorem afterLocale?_eq_strip? {locale s : Text} (h : ¬replacement <:+: locale) :
    afterLocale? locale s = strip? locale s := by
  have htail : ∀ {a : UInt8} {t : Text}, ¬replacement <:+: a :: t → ¬replacement <:+: t :=
    fun ha ht => ha (List.infix_cons ht)
  fun_induction afterLocale? locale s with
  | case1 s => rw [strip?_nil]
  | case2 locale _ _ _ _ => exact absurd (List.prefix_append replacement locale).isInfix h
  | case3 locale _ _ _ _ => exact absurd (List.prefix_append replacement locale).isInfix h
  | case4 locale _ _ _ => exact absurd (List.prefix_append replacement locale).isInfix h
  | case5 => rfl
  | case6 a locale b s _ hab ih => rw [strip?, if_pos hab, ih (htail h)]
  | case7 a locale b s _ hab => rw [strip?, if_neg hab]

theorem readsAs_iff {locale l : Text} (h : ¬replacement <:+: locale) :
    ReadsAs locale l ↔ l = locale := by
  constructor
  · intro hr
    have hread := hr 39 [] (by decide)
    rw [afterLocale?_eq_strip? h, strip?_eq_some_iff] at hread
    exact List.append_cancel_right hread
  · rintro rfl q r _
    rw [afterLocale?_eq_strip? h, strip?_append]

theorem spells_iff_written {locale m : Text} {e : DateExpression} (h : ¬replacement <:+: locale) :
    Spells locale e m ↔ Written locale e m := by
  constructor
  · rintro ⟨q, l, q', rfl, hq, hq', he, hl⟩
    rw [(readsAs_iff h).mp hl]
    exact ⟨q, q', hq, hq', he, by simp⟩
  · rintro ⟨q, q', hq, hq', he, rfl⟩
    exact ⟨q, locale, q', by simp, hq, hq', he, (readsAs_iff h).mpr rfl⟩

/-! ### Reported call sites -/

theorem written_of_mem_scan {locale content : Text} (h : ¬replacement <:+: locale) {o : CallSite}
    (ho : o ∈ scan locale content) : Written locale o.value o.text := by
  obtain ⟨n, hf, htext⟩ := mem_occurrences (positive_recognise locale) ho
  obtain ⟨m, r, hs, rfl, hm⟩ := spells_of_recognise hf
  rw [htext, hs, List.take_left]
  exact (spells_iff_written h).mp hm

theorem exists_site_covering {locale content m : Text} {e : DateExpression} {k : Nat}
    (h : ¬replacement <:+: locale) (hm : Written locale e m) (hk : m <+: content.drop k) :
    ∃ o ∈ scan locale content, o.start ≤ k ∧ k < o.stop := by
  obtain ⟨r, hr⟩ := hk
  have hf := recognise_append ((spells_iff_written h).mpr hm) r
  rw [hr] at hf
  exact exists_covering_occurrence (local_recognise locale) hf

end CallSite

namespace Substitution

/-- **A substitution replaces the written call sites and nothing else.**  The call sites
of a scan come in order and apart, each of them is written as it has to be, and every
place where such a text starts lies in one of them.  The file behind the substitution is
the file before it with a helper call in the place of each. -/
theorem substitution_follows_scan {r : Substitution} (hl : ¬replacement <:+: r.locale)
    (content : Text) :
    (r.scan content).Pairwise (fun o o' => o.stop ≤ o'.start) ∧
    (∀ o ∈ r.scan content, o.start < o.stop ∧ o.stop ≤ content.length ∧
      o.text = (content.take o.stop).drop o.start ∧
      CallSite.Written r.locale o.value o.text) ∧
    (∀ k e m, CallSite.Written r.locale e m → m <+: content.drop k →
      ∃ o ∈ r.scan content, o.start ≤ k ∧ k < o.stop) ∧
    (r.apply content).content = splice (fun e : DateExpression =>
      r.helper ++ lit "(" ++ e.text ++ lit ")") content 0 (r.scan content) ∧
    (r.apply content).sites = r.scan content ∧
    (r.apply content).count = (r.scan content).length ∧
    ((r.apply content).isModified = true ↔ ∃ o, o ∈ r.scan content) := by
  have hlocal := CallSite.local_recognise r.locale
  refine ⟨pairwise_occurrences hlocal content, fun o ho => ?_, fun k e m hm hk => ?_, ?_, rfl, rfl,
    ?_⟩
  · obtain ⟨hlt, hle⟩ := bounds_of_mem_occurrences hlocal ho
    exact ⟨hlt, hle, text_of_mem_occurrences hlocal ho, CallSite.written_of_mem_scan hl ho⟩
  · exact CallSite.exists_site_covering hl hm hk
  · have hcall : (fun e : DateExpression => r.call e.text)
        = fun e => r.helper ++ lit "(" ++ e.text ++ lit ")" := by
      funext e
      rw [call, List.append_assoc r.helper (lit "(")]
      rfl
    rw [← hcall]
    exact replace_eq_splice hlocal _ content
  · rw [Substituted.isModified, Bool.not_eq_true', List.isEmpty_eq_false_iff_exists_mem]
    rfl

/-- The locale looks like the front of a call site, so that a call site starts inside
another one.  Only the first is reported, and the second starts within it. -/
theorem substitution_follows_scan_nested :
    let r : Substitution := ⟨lit ")new Date(c).toLocaleDateString(", lit "show"⟩
    let inner := lit "new Date(c).toLocaleDateString(')new Date(c).toLocaleDateString(')"
    let content := lit "new Date(a.b).toLocaleDateString(')" ++ inner
    ¬replacement <:+: r.locale ∧
      (r.scan content).map (·.value) = [⟨.property, lit "a.b"⟩] ∧
      (r.apply content).content = lit "show(a.b)new Date(c).toLocaleDateString(')" ∧
      (r.apply content).content = splice (fun e : DateExpression =>
        r.helper ++ lit "(" ++ e.text ++ lit ")") content 0 (r.scan content) ∧
      CallSite.Written r.locale ⟨.identifier, lit "c"⟩ inner ∧
      ∃ o ∈ r.scan content, o.start ≤ 35 ∧ 35 < o.stop := by
  intro r inner content
  have hl : ¬replacement <:+: r.locale := by decide
  have hinner : CallSite.Written r.locale ⟨.identifier, lit "c"⟩ inner :=
    ⟨39, 39, by decide, by decide, ⟨by decide, List.forall_mem_singleton.mpr (by decide)⟩,
      by decide +kernel⟩
  obtain ⟨-, -, hcover, hsplice, -⟩ := substitution_follows_scan hl content
  exact ⟨hl, by decide +kernel, by decide +kernel, hsplice, hinner,
    hcover 35 _ inner hinner ⟨[], by decide +kernel⟩⟩

end Substitution

end DateDisplay
