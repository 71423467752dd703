import DateDisplay.Proofs.Substitution

/-!
# Call sites stay on their lines

A byte is foreign to call sites if none can have it in it.  A line feed is foreign unless the
locale has one, whatever the locale stands for in the file: it may stand for stray bytes, but a
line feed is not stray (`foreign_of_notMem`).

No call site reaches over a foreign byte (`uncrossed_append`).  So a file can be cut at its line
feeds, and each line scanned and rewritten without the others (`substitution_acts_linewise`).
-/

namespace DateDisplay

open Text

namespace CallSite

/-! ### Bytes that are in no call site -/

/-- No call site for the locale has the byte in it. -/
def Foreign (locale : Text) (b : UInt8) : Prop := ∀ e m, Spells locale e m → b ∉ m

theorem foreign_of_notMem {locale : Text} {b : UInt8} (hlt : b < 0x80)
    (hfixed : b ∉ opening ++ middle ++ [')'.toUInt8]) (hcall : Substitution.isCallByte b = false)
    (hquote : isQuote b = false) (hlocale : b ∉ locale) : Foreign locale b := by
  rintro e m ⟨q, l, q', rfl, hq, hq', he, hr⟩
  simp only [List.mem_append, not_or] at hfixed
  have hexpr : b ∉ e.text := by
    intro hm
    rw [Substitution.isCallByte_of_wellFormed he b hm] at hcall
    cases hcall
  have hne : ∀ {x : UInt8}, isQuote x = true → b ≠ x := by
    rintro x hx rfl
    rw [hx] at hquote
    cases hquote
  simp only [List.mem_append, List.mem_cons, List.not_mem_nil, or_false, not_or]
  exact ⟨hfixed.1.1, hexpr, hfixed.1.2, hne hq, fun hm => hlocale (hr.mem hm hlt), hne hq',
    fun hb => hfixed.2 (by simp [hb])⟩

theorem uncrossed_concat {locale : Text} {b : UInt8} (hb : Foreign locale b) (u v : Text) :
    Uncrossed (recognise locale) (u ++ [b]) v := by
  rintro x e n ⟨w, hw⟩ hx hf
  obtain ⟨m, r, hr, rfl, hm⟩ := spells_of_recognise hf
  obtain ⟨x, rfl⟩ := exists_concat_of_append_eq hw hx
  rw [List.append_assoc, List.singleton_append] at hr
  obtain ⟨y, rfl, -⟩ := cut_behind hr.symm (hb e m hm)
  rw [List.length_append, List.length_append]
  omega

theorem uncrossed_append {locale : Text} {b : UInt8} (hb : Foreign locale b) {g : Text}
    (hg : ')'.toUInt8 ∉ g) (u v : Text) : Uncrossed (recognise locale) u (g ++ b :: v) := by
  intro x e n _ _ hf
  obtain ⟨m, r, hr, rfl, hm⟩ := spells_of_recognise hf
  rw [← List.append_assoc] at hr
  obtain ⟨y, hy, -⟩ := cut_behind hr.symm (hb e m hm)
  rcases List.append_eq_append_iff.mp hy with ⟨a, rfl, rfl⟩ | ⟨a, rfl, -⟩
  · rcases List.eq_nil_or_concat' a with rfl | ⟨a, c, rfl⟩
    · rw [List.append_nil]
    · -- the last byte of the call site is behind `x`, and it is a parenthesis
      have hlast := Substitution.spells_last hm
      rw [← List.append_assoc, List.getLast?_concat, Option.some.injEq] at hlast
      subst hlast
      exact absurd (by simp) hg
  · rw [List.length_append]
    omega

theorem bare_of_uncrossed {locale y v : Text} (h : Uncrossed (recognise locale) y v)
    (hy : ¬opening <:+: y) : Bare (recognise locale) y v := by
  intro x hx hne
  by_contra hsome
  obtain ⟨⟨e, n⟩, hf⟩ := Option.ne_none_iff_exists'.mp hsome
  obtain ⟨m, r, hr, rfl, hm⟩ := spells_of_recognise hf
  have hpre : m <+: x := List.prefix_of_prefix_length_le ⟨r, hr.symm⟩ (List.prefix_append x v)
    (h x e _ hx hne hf)
  obtain ⟨q, l, q', rfl, -⟩ := hm
  exact hy ((List.prefix_append opening _).trans hpre |>.isInfix.trans hx.isInfix)

theorem recognise_cons_of_foreign {locale : Text} {b : UInt8} (hb : Foreign locale b) (t : Text) :
    recognise locale (b :: t) = none := by
  by_contra hsome
  obtain ⟨⟨e, n⟩, hf⟩ := Option.ne_none_iff_exists'.mp hsome
  obtain ⟨m, r, hr, rfl, hm⟩ := spells_of_recognise hf
  have hpos := positive_recognise locale _ _ _ hf
  obtain ⟨c, m, rfl⟩ := List.exists_cons_of_ne_nil (List.ne_nil_of_length_pos hpos)
  obtain ⟨rfl, -⟩ := List.cons.inj hr
  exact hb e _ hm (by simp)

/-- **Call sites are found on either side of a foreign byte.** -/
theorem scan_append_cons {locale : Text} {b : UInt8} (hb : Foreign locale b) (u v : Text) :
    scan locale (u ++ b :: v)
      = scan locale u ++ (scan locale v).map (·.shift (u.length + 1)) := by
  have hcut : Uncrossed (recognise locale) u (b :: v) := uncrossed_append (g := []) hb (by simp) u v
  have hrest : occurrences (recognise locale) (b :: v)
      = (occurrences (recognise locale) v).map (·.shift 1) := by
    rw [occurrences, occurrences, occurrencesFrom_of_none (recognise_cons_of_foreign hb v),
      occurrencesFrom_add]
  have hshift : ∀ o : CallSite, (o.shift 1).shift u.length = o.shift (u.length + 1) := by
    intro o
    simp only [Occurrence.shift]
    congr 1
    omega
  rw [scan, occurrences_append (local_recognise locale) hcut, hrest, List.map_map]
  exact congrArg _ (List.map_congr_left fun o _ => hshift o)

end CallSite

namespace Substitution

open CallSite

variable {r : Substitution}

theorem foreign_newline (hl : 10 ∉ r.locale) : Foreign r.locale 10 :=
  foreign_of_notMem (by decide) (by decide) (by decide) (by decide) hl

theorem substitute_append_cons {b : UInt8} (hb : Foreign r.locale b) (u v : Text) :
    r.substitute (u ++ b :: v) = r.substitute u ++ b :: r.substitute v := by
  have hcut : Uncrossed (recognise r.locale) u (b :: v) :=
    uncrossed_append (g := []) hb (by simp) u v
  rw [substitute, replace_append (local_recognise r.locale) _ hcut,
    replace_cons_of_none (recognise_cons_of_foreign hb v)]
  rfl

theorem substitute_join (hl : 10 ∉ r.locale) : ∀ lines : List Text,
    r.substitute (join [10] lines) = join [10] (lines.map r.substitute) := by
  intro lines
  induction lines with
  | nil => exact replace_nil
  | cons line lines ih =>
    by_cases hne : lines = []
    · rw [hne]
      rfl
    · rw [join_cons hne, List.append_assoc, List.singleton_append,
        substitute_append_cons (foreign_newline hl), ih, List.map_cons,
        join_cons (by simpa using hne), List.append_assoc, List.singleton_append]

/-- **A substitution acts on each line by itself.**  Two texts with a line feed between them are
scanned and rewritten one by one, and so are the lines of a file. -/
theorem substitution_acts_linewise (hl : 10 ∉ r.locale) :
    (∀ a b : Text,
      (r.apply (a ++ 10 :: b)).content = (r.apply a).content ++ 10 :: (r.apply b).content ∧
      (r.apply (a ++ 10 :: b)).count = (r.apply a).count + (r.apply b).count ∧
      r.scan (a ++ 10 :: b) = r.scan a ++ (r.scan b).map (·.shift (a.length + 1))) ∧
    ∀ content : Text,
      (r.apply content).content = join [10] ((splitOn [10] content).map r.substitute) := by
  have hscan : ∀ a b : Text,
      r.scan (a ++ 10 :: b) = r.scan a ++ (r.scan b).map (·.shift (a.length + 1)) :=
    scan_append_cons (foreign_newline hl)
  refine ⟨fun a b => ⟨substitute_append_cons (foreign_newline hl) a b, ?_, hscan a b⟩,
    fun content => ?_⟩
  · show (r.scan (a ++ 10 :: b)).length = (r.scan a).length + (r.scan b).length
    rw [hscan, List.length_append, List.length_map]
  · rw [← substitute_join hl, join_splitOn (by simp)]
    rfl

/-- The first line breaks off within a call site that the second would complete.  The locale also
stands for stray bytes, and there is one in the first line. -/
theorem substitution_acts_linewise_open :
    let r : Substitution := ⟨replacement, lit "show"⟩
    let a := lit "f(new Date(a.b).toLocaleDateString('" ++ 0xC3 :: lit "'), new Date(c"
    let b := lit ").toLocaleDateString('" ++ replacement ++ lit "'))"
    10 ∉ r.locale ∧ (r.apply (a ++ 10 :: b)).content = lit "f(show(a.b), new Date(c" ++ 10 :: b ∧
      (r.apply (a ++ 10 :: b)).content = (r.apply a).content ++ 10 :: (r.apply b).content ∧
      (r.apply (a ++ 10 :: b)).count = 1 ∧
      r.scan (a ++ 10 :: b) = r.scan a ++ (r.scan b).map (·.shift (a.length + 1)) := by
  intro r a b
  have hl : 10 ∉ r.locale := by decide
  obtain ⟨hcontent, -, hscan⟩ := (substitution_acts_linewise hl).1 a b
  exact ⟨hl, by decide +kernel, hcontent, by decide +kernel, hscan⟩

end Substitution

end DateDisplay
