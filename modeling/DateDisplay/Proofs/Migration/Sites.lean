import DateDisplay.Proofs.Linewise
import DateDisplay.Proofs.Migration.Setup
import DateDisplay.Proofs.Statement

/-!
# An import keeps the call sites

The call sites of a file are counted twice, in the file as it was found and again once
the helper is importable.  `injection_keeps_call_sites` says that the two counts agree:
the call sites are the same ones, with the same texts in the same order.

A call site has no closing brace and no line feed in it (`Foreign`), if the locale has
none, and it ends with a parenthesis.  So none reaches over the end of a line or of a
brace list (`uncrossed_concat`, `uncrossed_append`), and where a name or a statement is
put in, none starts unless the import path spells the front of one
(`bare_of_uncrossed`).
-/

namespace DateDisplay

open Text

namespace Declaration

/-- A list with one more name has a new end in the place of its blanks. -/
theorem exists_end_extendList (list name : Text) : ∃ body blanks new, list = body ++ blanks ∧
    extendList list name = body ++ new ∧ (∀ b ∈ blanks, isListBlank b = true) ∧
    ∀ b ∈ new, b = 32 ∨ b = ','.toUInt8 ∨ b ∈ name ∨ b ∈ blanks := by
  obtain ⟨body, blanks, hlist, hblanks, ⟨rfl, he⟩ | ⟨-, -, he⟩ | he⟩ :=
    extendList_cases list name <;>
    · refine ⟨_, blanks, _, hlist, he, hblanks, fun b hb => ?_⟩
      simp only [List.mem_cons, List.mem_append, List.not_mem_nil, or_false] at hb
      tauto

theorem exists_end_without_parens {name : Text} (hn : Plan.isName name = true) (list : Text) :
    ∃ body old new, list = body ++ old ∧ extendList list name = body ++ new ∧
      ∀ x ∈ ['('.toUInt8, ')'.toUInt8], x ∉ old ∧ x ∉ new := by
  obtain ⟨body, blanks, new, hlist, he, hblanks, hnew⟩ := exists_end_extendList list name
  refine ⟨body, blanks, new, hlist, he, fun x hx => ?_⟩
  have hclass : isListBlank x = false ∧ Substitution.isCallByte x = false ∧ x ≠ 32 ∧
      x ≠ ','.toUInt8 := by
    simp only [List.mem_cons, List.not_mem_nil, or_false] at hx
    rcases hx with rfl | rfl <;> decide
  have hold : x ∉ blanks := notMem_of_isListBlank hblanks hclass.1
  refine ⟨hold, fun hm => ?_⟩
  rcases hnew x hm with h | h | h | h
  · exact hclass.2.2.1 h
  · exact hclass.2.2.2 h
  · exact Plan.notMem_of_isName hn hclass.2.1 h
  · exact hold h

theorem not_opening_infix_statement {name path g g' : Text} (hn : Plan.isName name = true)
    (hp : ¬CallSite.opening <:+: path) (hg : ∀ b ∈ g, isGap b = true)
    (hg' : ∀ b ∈ g', isGap b = true) :
    ¬CallSite.opening <:+: g ++ (statement name path ++ g') := by
  have hparen : '('.toUInt8 ∈ CallSite.opening := by decide
  have hquote : '\''.toUInt8 ∉ CallSite.opening := by decide
  have hlayout : g ++ (statement name path ++ g') = (g ++ (lit "import \x7b " ++ (name ++
      lit " \x7d from "))) ++ '\''.toUInt8 :: (path ++ '\''.toUInt8 :: (';'.toUInt8 :: g')) := by
    have h₁ : lit " \x7d from '" = lit " \x7d from " ++ ['\''.toUInt8] := by decide
    have h₂ : lit "';" = ['\''.toUInt8, ';'.toUInt8] := by decide
    simp [statement, h₁, h₂]
  rw [hlayout]
  intro h
  rcases infix_append_cons hquote h with h | h
  · have hm := h.subset hparen
    simp only [List.mem_append] at hm
    rcases hm with hm | hm | hm | hm
    · exact notMem_of_isGap hg (by decide) hm
    · exact absurd hm (by decide)
    · exact Plan.notMem_of_isName hn (by decide) hm
    · exact absurd hm (by decide)
  · rcases infix_append_cons hquote h with h | h
    · exact hp h
    · rcases List.mem_cons.mp (h.subset hparen) with hm | hm
      · exact absurd hm (by decide)
      · exact notMem_of_isGap hg' (by decide) hm

end Declaration

namespace Injector

open CallSite

variable {i : Injector} {locale content : Text}

/-- **Call sites stay when the helper joins an import.** -/
theorem scan_augment {d : Declaration} (hbrace : Foreign locale '}'.toUInt8)
    (hn : Plan.isName i.helper = true) (hd : d ∈ Declaration.declarations content) :
    (scan locale (i.augment content d)).map (·.found) = (scan locale content).map (·.found) := by
  cases hb : d.binds i.helper with
  | true => rw [augment_of_binds hd hb]
  | false =>
    obtain ⟨body, old, new, hlist, hext, hparens⟩ :=
      Declaration.exists_end_without_parens hn d.list
    have hopen := hparens '('.toUInt8 (by simp)
    have hclose := hparens ')'.toUInt8 (by simp)
    have hbare : ∀ {y : Text} (v : Text), '('.toUInt8 ∉ y →
        Bare (recognise locale) y ('}'.toUInt8 :: v) := by
      intro y v hy
      have hin : '('.toUInt8 ∈ opening := by decide
      refine bare_of_uncrossed ?_ fun h => hy (h.subset hin)
      exact uncrossed_append (g := []) hbrace (by simp) y v
    have hfound := found_of_replaced (local_recognise locale)
      (uncrossed_append hbrace hclose.1 (content.take d.start ++ d.head ++ body)
        (d.tail.tail ++ content.drop d.stop))
      (uncrossed_append hbrace hclose.2 _ _) (hbare _ hopen.1) (hbare _ hopen.2)
    have htail : d.tail = '}'.toUInt8 :: d.tail.tail := rfl
    have htext : (d.withSymbol i.helper).text = d.head ++ (body ++ new) ++ d.tail := by
      rw [Declaration.withSymbol_of_not_binds hb, ← hext]
      rfl
    nth_rewrite 2 [Declaration.split_at_declaration hd]
    rw [augment, htext, Declaration.text, hlist, htail]
    simpa [scan] using hfound

/-- **Call sites stay when a statement is put between the lines** of a file. -/
theorem scan_between {statement front rest eol : Text} (he : LineEnd eol)
    (hfeed : Foreign locale 10) (hfront : front = [] ∨ ∃ w, front = w ++ eol)
    (hs : ¬opening <:+: statement ++ eol) :
    (scan locale (front ++ (statement ++ (eol ++ rest)))).map (·.found)
      = (scan locale (front ++ rest)).map (·.found) := by
  obtain ⟨c, rfl, -⟩ := he
  have hu : ∀ w, Uncrossed (recognise locale) front w := by
    intro w
    rcases hfront with rfl | ⟨u, rfl⟩
    · intro x e n hx hne
      exact absurd (List.suffix_nil.mp hx) hne
    · rw [← List.append_assoc]
      exact uncrossed_concat hfeed _ w
  have hy : Uncrossed (recognise locale) (statement ++ (c ++ [10])) rest := by
    rw [← List.append_assoc]
    exact uncrossed_concat hfeed _ rest
  have hfound := found_of_replaced (local_recognise locale) (hu ([] ++ rest)) (hu _)
    (bare_nil rest) (bare_of_uncrossed hy hs)
  simpa [scan] using hfound

/-- **Call sites stay when a statement is put behind the last line** of a file. -/
theorem scan_behind {statement eol : Text} (he : LineEnd eol) (hfeed : Foreign locale 10)
    (hs : ¬opening <:+: eol ++ statement) :
    (scan locale (content ++ (eol ++ statement))).map (·.found)
      = (scan locale content).map (·.found) := by
  have hl := local_recognise locale
  obtain ⟨c, rfl, hc⟩ := he
  have hclose : ')'.toUInt8 ∉ c := fun hm => absurd (hc _ hm) (by decide)
  have hu : Uncrossed (recognise locale) content (c ++ [10] ++ statement ++ []) := by
    rw [List.append_nil, List.append_assoc]
    exact uncrossed_append hfeed hclose content _
  have hfound := found_of_replaced hl (uncrossed_nil hl content) hu (bare_nil [])
    (bare_of_uncrossed (uncrossed_nil hl _) hs)
  simpa [scan] using hfound

/-- **Call sites stay when a new import is written.** -/
theorem scan_insert {path : Text} (hfeed : Foreign locale 10) (hn : Plan.isName i.helper = true)
    (hp : ¬opening <:+: path) :
    (scan locale (Placement.insert content (Declaration.statement i.helper path))).map (·.found)
      = (scan locale content).map (·.found) := by
  have he := lineEnd_lineEnding content
  have hnone : ∀ b ∈ ([] : Text), isGap b = true := by simp
  rcases Placement.insert_cases content (Declaration.statement i.helper path) with
    ⟨rest, hc, -, hins⟩ | hins
  · rw [hins, scan_between he hfeed (Placement.front_eq content)
      (Declaration.not_opening_infix_statement hn hp hnone he.isGap), ← hc]
  · have hs := Declaration.not_opening_infix_statement hn hp he.isGap hnone
    rw [List.append_nil] at hs
    rw [hins, scan_behind he hfeed hs]

/-- **An injection keeps the call sites**, whatever it does to the file. -/
theorem scan_ensure {file : Text} (hbrace : Foreign locale '}'.toUInt8) (hfeed : Foreign locale 10)
    (hn : Plan.isName i.helper = true) (hp : ¬opening <:+: i.paths.resolve file) :
    (scan locale (i.ensure content file).content).map (·.found)
      = (scan locale content).map (·.found) := by
  rw [ensure]
  split
  · rfl
  · split
    · rfl
    · split
      · rename_i d hd
        exact scan_augment hbrace hn (List.mem_of_find?_eq_some hd)
      · exact scan_insert hfeed hn hp

end Injector

namespace Migration

theorem Step.sites {m : Migration} {t t' : FileTree} {path : Text} {r : FileResult}
    (h : Step m t path r t') {l : Location} {content : Text} (hn : m.store.Names t path l content) :
    r.sites = m.substitution.scan content := by
  cases h with
  | missing hc => exact absurd hn (FileStore.not_names_of_contains hc l content)
  | unchanged hn' hs =>
    rw [FileStore.eq_of_names hn hn', hs]
    rfl
  | checked _ hn' _ =>
    rw [FileStore.eq_of_names hn hn']
    rfl
  | changed _ hn' _ =>
    rw [FileStore.eq_of_names hn hn']
    rfl

theorem Step.replacements {m : Migration} {t t' : FileTree} {path : Text} {r : FileResult}
    (h : Step m t path r t') (hscan : ∀ content,
      (m.substitution.scan (m.injector.ensure content path).content).length
        = (m.substitution.scan content).length) : r.replacements = r.sites.length := by
  cases h with
  | missing _ => rfl
  | unchanged _ _ => rfl
  | checked _ _ _ => exact hscan _
  | changed _ _ _ => exact hscan _

/-- **The call sites of a file stay when its import is seen to**, so that as many are
replaced as were found.  The locale must have no closing brace and no line feed in it,
and no import path the front of a call site. -/
theorem injection_keeps_call_sites {p : Plan} {root : Text} {dry : Bool} {c : Console}
    {sabotage : Sabotage} {scope : Scope} {m : Migration}
    (hm : new (some p) root dry (some c) sabotage scope = .ok m)
    (hbrace : '}'.toUInt8 ∉ p.locale) (hfeed : 10 ∉ p.locale)
    (hpaths : ∀ path ∈ (p.helper.getD {}).paths.targets, ¬CallSite.opening <:+: path) :
    (∀ content file, (m.substitution.scan (m.injector.ensure content file).content).map (·.found)
      = (m.substitution.scan content).map (·.found)) ∧
    ∀ t path r, (m.process t path).outcome = .ok r → r.replacements = r.sites.length ∧
      ∀ l content, m.store.Names t path l content → r.sites = m.substitution.scan content := by
  obtain ⟨hfor, -, -⟩ := isFor_of_new hm
  have hscan : ∀ content file,
      (m.substitution.scan (m.injector.ensure content file).content).map (·.found)
        = (m.substitution.scan content).map (·.found) := by
    intro content file
    rw [Substitution.scan, Substitution.scan, hfor.substitution_locale]
    refine Injector.scan_ensure ?_ ?_ ?_ ?_
    · exact CallSite.foreign_of_notMem (by decide) (by decide) (by decide) (by decide) hbrace
    · exact CallSite.foreign_of_notMem (by decide) (by decide) (by decide) (by decide) hfeed
    · rw [hfor.injector_helper]
      exact hfor.isName_helper
    · refine hpaths _ ?_
      rw [← hfor.helper]
      exact PathTable.resolve_mem_targets _ file
  refine ⟨hscan, fun t path r hr => ?_⟩
  have hstep := step_of_process hr
  refine ⟨hstep.replacements fun content => ?_, fun l content => hstep.sites⟩
  have := congrArg List.length (hscan content path)
  rwa [List.length_map, List.length_map] at this

/-- The helper joins an import that stands between two call sites. -/
theorem injection_keeps_two_call_sites :
    let m := sample [lit "a"] true {}
    let content := lit "new Date(d).toLocaleDateString('pt-BR')import \x7b x \x7d from './dates'"
      ++ lit "new Date(e.f).toLocaleDateString(\"pt-BR')"
    let t : FileTree := { entries := [([lit "a"], .file content)] }
    (m.injector.ensure content (lit "a")).action = .augmented ∧
      (m.substitution.scan content).map (·.found)
        = [(⟨.identifier, lit "d"⟩, lit "new Date(d).toLocaleDateString('pt-BR')"),
          (⟨.property, lit "e.f"⟩, lit "new Date(e.f).toLocaleDateString(\"pt-BR')")] ∧
      (m.substitution.scan (m.injector.ensure content (lit "a")).content).map (·.found)
        = (m.substitution.scan content).map (·.found) ∧
      ∃ r, (m.process t (lit "a")).outcome = .ok r ∧ r.replacements = 2 ∧
        r.replacements = r.sites.length := by
  intro m content t
  have hm : new (some (.sample [lit "a"])) [] true (some {}) {} {} = .ok m := rfl
  have hpaths : ∀ path ∈ ((Plan.sample [lit "a"]).helper.getD {}).paths.targets,
      ¬CallSite.opening <:+: path := by
    simp only [← occurs_iff_isInfix]
    decide
  obtain ⟨hscan, hprocess⟩ := injection_keeps_call_sites hm (by decide) (by decide) hpaths
  have hok : (m.process t (lit "a")).outcome.map (·.replacements) = .ok 2 := by decide +kernel
  cases hr : (m.process t (lit "a")).outcome with
  | error f =>
    rw [hr] at hok
    cases hok
  | ok r =>
    rw [hr] at hok
    have htwo : r.replacements = 2 := by simpa [Except.map] using hok
    exact ⟨by decide +kernel, by decide +kernel, hscan content (lit "a"), r, rfl, htwo,
      (hprocess t (lit "a") r hr).1⟩

end Migration

end DateDisplay
