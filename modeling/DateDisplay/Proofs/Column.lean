import DateDisplay.Proofs.Augmentation

/-!
# Imports that do not start their line

A new statement is put behind the lines that start an import, which are seen from column
zero.  The declaration that the helper joins is found by a search anywhere in the file, so
what stands in a comment or behind other code on its line is found as well.

The files where this does no harm are those in which each declaration that is the first
from its path starts a line (`joins_at_column_zero_iff`).  In any other file some helper
would join a declaration in the middle of a line.  The first declaration from a path is
the one that a helper of the module with this path joins, and some name is left for this
helper that does not occur in the file (`Plan.exists_fresh_name`).
-/

namespace DateDisplay

open Text

namespace Declaration

/-- The declaration starts the file or a line of it. -/
def AtColumnZero (content : Text) (d : Declaration) : Prop :=
  d.start = 0 ∨ content[d.start - 1]? = some 10

instance (content : Text) (d : Declaration) : Decidable (d.AtColumnZero content) :=
  inferInstanceAs (Decidable (_ ∨ _))

theorem findFrom?_eq_some_iff {content module : Text} {d : Declaration} :
    findFrom? content module = some d ↔ module <:+ d.path ∧ ∃ before after,
      declarations content = before ++ d :: after ∧ ∀ e ∈ before, ¬module <:+ e.path := by
  simp only [findFrom?, List.find?_eq_some_iff_append, List.isSuffixOf_iff_suffix,
    Bool.not_eq_true', ← Bool.not_eq_true]

end Declaration

/-- **Some name does not occur in a text.** -/
theorem Plan.exists_fresh_name (s : Text) : ∃ name, isName name = true ∧ occurs name s = false := by
  refine ⟨List.replicate (s.length + 1) 'a'.toUInt8, ?_, ?_⟩
  · rw [List.replicate_succ, isName, Bool.and_eq_true, List.all_eq_true]
    refine ⟨by decide, fun b hb => ?_⟩
    rw [List.eq_of_mem_replicate hb]
    decide
  · rw [← Bool.not_eq_true, occurs_iff_isInfix]
    intro h
    have := h.length_le
    rw [List.length_replicate] at this
    omega

namespace Injector

theorem ensure_of_findFrom? {i : Injector} {content : Text} {d : Declaration} (file : Text)
    (hhelper : occurs i.helper content = false) (hsig : occurs i.signature content = true)
    (hd : Declaration.findFrom? content i.module = some d) :
    (i.ensure content file).action = .augmented := by
  rw [ensure, hhelper, hsig, hd]
  rfl

open Declaration in
/-- **The helper joins imports at column zero only in exactly those files** where every
declaration that is the first from its path starts a line. -/
theorem joins_at_column_zero_iff (content : Text) :
    (∀ (i : Injector) (file : Text), Plan.isName i.helper = true → i.module ≠ [] →
      (i.ensure content file).action = .augmented →
      ∃ d, findFrom? content i.module = some d ∧
        (i.ensure content file).content = i.augment content d ∧ d.AtColumnZero content) ↔
    ∀ before d after, declarations content = before ++ d :: after → d.path ≠ [] →
      (∀ e ∈ before, ¬d.path <:+ e.path) → d.AtColumnZero content := by
  constructor
  · intro h before d after hdecls hpath hfirst
    obtain ⟨name, hname, hfresh⟩ := Plan.exists_fresh_name content
    have hfind : findFrom? content d.path = some d :=
      findFrom?_eq_some_iff.mpr ⟨List.suffix_refl _, before, after, hdecls, hfirst⟩
    have hkeyword : occurs keyword content = true := by
      obtain ⟨u, v, -, rfl, -⟩ := walk_to_declaration hdecls
      rw [occurs_iff_isInfix]
      exact ⟨u, d.beforeList ++ ['{'.toUInt8] ++ d.list ++ d.tail ++ v, by simp [text, head]⟩
    let i : Injector := ⟨name, d.path, keyword, .builtin⟩
    obtain ⟨d', hfind', -, hzero⟩ :=
      h i [] hname hpath (ensure_of_findFrom? [] hfresh hkeyword hfind)
    rw [hfind, Option.some.injEq] at hfind'
    rwa [hfind']
  · intro h i file _ hmodule haction
    obtain ⟨-, d, hfind, hcontent⟩ := ensure_augmented haction
    refine ⟨d, hfind, hcontent, ?_⟩
    obtain ⟨hpath, before, after, hdecls, hbefore⟩ := findFrom?_eq_some_iff.mp hfind
    -- An earlier path that ends with the path of `d` ends with the module, too.
    refine h before d after hdecls ?_ fun e he hsuffix => hbefore e he (hpath.trans hsuffix)
    intro hnil
    rw [hnil, List.suffix_nil] at hpath
    exact hmodule hpath

/-- **The helper joins an import that is commented out**, so the file does not import it. -/
theorem joins_import_in_comment :
    let i : Injector := .ofOptions [] [] [] none
    let file := lit "src/components/Debts.tsx"
    let call := lit "new Date(d).toLocaleDateString('pt-BR');\n"
    let content := lit "// import \x7b a \x7d from '../utils/dateUtils';\n" ++ call
    Plan.isName i.helper = true ∧ (i.ensure content file).action = .augmented ∧
      (i.ensure content file).content
        = lit "// import \x7b a, dbDateToDisplay \x7d from '../utils/dateUtils';\n" ++ call ∧
      ∃ d, Declaration.findFrom? content i.module = some d ∧ d.start = 3 ∧
        ¬d.AtColumnZero content := by
  intro i file call content
  refine ⟨by decide, by decide +kernel, by decide +kernel, ?_⟩
  change ∃ d ∈ Declaration.findFrom? content i.module, d.start = 3 ∧ ¬d.AtColumnZero content
  decide +kernel

end Injector

end DateDisplay
