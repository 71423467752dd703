import DateDisplay.Proofs.Injection
import DateDisplay.Proofs.Migration.Process
import DateDisplay.Proofs.Plan.Soundness
import DateDisplay.Proofs.Substitution

/-!
# Migrations for a plan

A migration is set up only for a plan without flaws, and then it is for that plan
and no other (`isFor_of_new`).  In particular the helper of the plan has a name,
and its substitution and its injector speak of the same helper.

What follows is what a migration makes of a file with call sites: no call site is
left in it (`scan_migrated`), the helper occurs in it (`occurs_helper_migrated`),
and its import was seen to (`action_of_scan`).  Migrations for one plan make the
same of it and differ only in whether they write it.
-/

namespace DateDisplay

open Text

namespace Migration

/-- The migration is for the plan, which is free of flaws, below the folder. -/
structure IsFor (m : Migration) (p : Plan) (root : Text) : Prop where
  sound : p.flaw? = none
  plan : m.plan = p
  helper : m.helper = p.helper.getD {}
  folder : m.root = if root.isEmpty then Path.dot else root
  base : m.store.base = Path.clean (if root.isEmpty then Path.dot else root)

/-- **A migration that can be set up is for its plan.** -/
theorem isFor_of_new {p : Plan} {root : Text} {dry : Bool} {c : Console} {sabotage : Sabotage}
    {scope : Scope} {m : Migration} (h : new (some p) root dry (some c) sabotage scope = .ok m) :
    m.IsFor p root ∧ m.dry = dry ∧ m.store.sabotage = sabotage := by
  unfold new at h
  dsimp only at h
  split at h
  · cases h
  · rename_i hp
    cases h
    exact ⟨⟨hp, rfl, rfl, rfl, rfl⟩, rfl, rfl⟩

namespace IsFor

variable {m m' : Migration} {p : Plan} {root : Text}

theorem isName_helper (h : m.IsFor p root) : Plan.isName m.helper.name = true := by
  obtain ⟨helper, hs⟩ := Plan.flaw?_eq_none_iff.mp h.sound
  rw [h.helper, hs.helper, Option.getD_some]
  exact hs.sound.name

theorem helper_isEmpty (h : m.IsFor p root) : m.helper.name.isEmpty = false := by
  have hn := h.isName_helper
  cases hm : m.helper.name with
  | nil => rw [hm] at hn; cases hn
  | cons b t => rfl

theorem substitution_helper (h : m.IsFor p root) : m.substitution.helper = m.helper.name := by
  rw [substitution, Substitution.ofOptions, h.helper_isEmpty]
  rfl

theorem substitution_locale (h : m.IsFor p root) : m.substitution.locale = p.locale := by
  obtain ⟨helper, hs⟩ := Plan.flaw?_eq_none_iff.mp h.sound
  rw [substitution, Substitution.ofOptions, h.plan]
  exact if_neg (by simpa using hs.locale)

theorem injector_helper (h : m.IsFor p root) : m.injector.helper = m.helper.name := by
  rw [injector, Injector.ofOptions, h.helper_isEmpty]
  rfl

theorem safe (h : m.IsFor p root) (hl : '('.toUInt8 ∉ p.locale)
    (hn : (p.helper.getD {}).name ∉ CallSite.constructorTails) : m.substitution.Safe := by
  refine ⟨?_, ?_, ?_⟩
  · rwa [h.substitution_locale]
  · rw [h.substitution_helper]
    exact h.isName_helper
  · rwa [h.substitution_helper, h.helper]

/-! ### What becomes of a file with call sites -/

/-- **The helper occurs in every file that had call sites**, whether its calls stand
there or only its import. -/
theorem occurs_helper_migrated (h : m.IsFor p root) {c : Text} (path : Text)
    (hs : m.substitution.scan c ≠ []) :
    occurs m.helper.name (m.migrated path c).content = true := by
  rw [← h.substitution_helper]
  by_cases hi : m.substitution.scan (m.injector.ensure c path).content = []
  · -- The import broke up the last call site, so the import is there.
    have hc : (m.migrated path c).content = (m.injector.ensure c path).content :=
      Substitution.substitute_of_scan_eq_nil hi
    rw [hc]
    rcases m.injector.occurs_helper_or_unchanged c path with ho | he
    · rwa [h.substitution_helper, ← h.injector_helper]
    · rw [he] at hi
      exact absurd hi hs
  · exact Substitution.occurs_helper_substitute hi

end IsFor

theorem scan_migrated {m : Migration} (h : m.substitution.Safe) (path c : Text) :
    m.substitution.scan (m.migrated path c).content = [] :=
  Substitution.scan_substitute h _

theorem occurs_signature_of_scan {m : Migration} {c : Text} (h : m.substitution.scan c ≠ []) :
    occurs m.injector.signature c = true := by
  obtain ⟨o, ho⟩ := List.exists_mem_of_ne_nil _ h
  obtain ⟨n, hn, -⟩ := mem_occurrences (CallSite.positive_recognise _) ho
  obtain ⟨v, r, hv, -, q, l, q', rfl, -⟩ := CallSite.spells_of_recognise hn
  have hmiddle : m.injector.signature <:+: CallSite.middle := by
    rw [← occurs_iff_isInfix]
    rfl
  rw [occurs_iff_isInfix]
  refine hmiddle.trans ?_
  refine List.IsInfix.trans ?_ (List.drop_suffix o.start c).isInfix
  rw [hv]
  exact ⟨CallSite.opening ++ o.value.text, q :: (l ++ [q', ')'.toUInt8]) ++ r, by simp⟩

theorem action_of_scan {m : Migration} {c : Text} (path : Text)
    (h : m.substitution.scan c ≠ []) : (m.resultOf path c).importAction = .alreadyPresent ∨
      (m.resultOf path c).importAction = .augmented ∨ (m.resultOf path c).importAction = .added :=
  Injector.action_of_signature path (occurs_signature_of_scan h)

/-! ### Migrations for one plan -/

namespace IsFor

variable {m m' : Migration} {p : Plan} {root : Text}

theorem undisturbed_eq (h : m.IsFor p root) (h' : m'.IsFor p root) :
    m.store.undisturbed = m'.store.undisturbed := by
  rw [FileStore.undisturbed, FileStore.undisturbed, h.base, h'.base]

theorem names_congr (h : m.IsFor p root) (h' : m'.IsFor p root) {t : FileTree} {path : Text}
    {l : Location} {c : Text} (hn : m.store.Names t path l c) : m'.store.Names t path l c := by
  have hn : m.store.undisturbed.Names t path l c := hn
  rwa [h.undisturbed_eq h'] at hn

theorem substitution_eq (h : m.IsFor p root) (h' : m'.IsFor p root) :
    m.substitution = m'.substitution := by
  rw [substitution, substitution, h.plan, h'.plan, h.helper, h'.helper]

theorem migrated_eq (h : m.IsFor p root) (h' : m'.IsFor p root) : m.migrated = m'.migrated := by
  funext path c
  rw [migrated, migrated, h.substitution_eq h', injector, injector, h.helper, h'.helper]

theorem resultOf_eq (h : m.IsFor p root) (h' : m'.IsFor p root) (hd : m.dry = m'.dry) :
    m.resultOf = m'.resultOf := by
  funext path c
  rw [resultOf, resultOf, h.migrated_eq h', h.substitution_eq h', hd, injector, injector,
    h.helper, h'.helper]

theorem step_congr (h : m.IsFor p root) (h' : m'.IsFor p root) (hd : m.dry = m'.dry)
    {t t' : FileTree} {path : Text} {r : FileResult} (hs : Step m t path r t') :
    Step m' t path r t' := by
  cases hs with
  | missing hc => exact .missing (by rwa [← h.undisturbed_eq h'])
  | unchanged hn hs => exact .unchanged (h.names_congr h' hn) (by rwa [← h.substitution_eq h'])
  | checked hdry hn hs =>
    rw [h.resultOf_eq h' hd]
    exact .checked (hd ▸ hdry) (h.names_congr h' hn) (by rwa [← h.substitution_eq h'])
  | changed hdry hn hs =>
    rw [h.resultOf_eq h' hd, h.migrated_eq h']
    exact .changed (hd ▸ hdry) (h.names_congr h' hn) (by rwa [← h.substitution_eq h'])

theorem store_eq (h : m.IsFor p root) (h' : m'.IsFor p root)
    (hs : m.store.sabotage = m'.store.sabotage) : m.store = m'.store := by
  have hb := h.base.trans h'.base.symm
  cases hm : m.store
  cases hm' : m'.store
  rw [hm, hm'] at hb hs
  cases hb
  cases hs
  rfl

theorem expand_eq (h : m.IsFor p root) (h' : m'.IsFor p root) (t : FileTree) :
    m.plan.expand t m.root = m'.plan.expand t m'.root := by
  rw [h.plan, h'.plan, h.folder, h'.folder]

end IsFor

end Migration

/-! ### A small case -/

/-- A plan for the given files. -/
def Plan.sample (files : List Text) : Plan where
  locale := lit "pt-BR"
  helper := some { name := lit "show", module := lit "dates", defaultPath := lit "./dates" }
  files := some files

/-- A file with one call site and a file with none. -/
def FileTree.sample : FileTree where
  entries := [([lit "a"], .file (lit "new Date(d).toLocaleDateString('pt-BR')")),
    ([lit "b"], .file (lit "no dates"))]

/-- A migration for the plan above. -/
def Migration.sample (files : List Text) (dry : Bool) (sabotage : Sabotage) : Migration where
  plan := .sample files
  helper := (Plan.sample files).helper.getD {}
  root := Path.dot
  store := { FileStore.below Path.dot with sabotage }
  console := {}
  scope := {}
  dry

end DateDisplay
