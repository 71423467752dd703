import DateDisplay.Proofs.Augmentation
import DateDisplay.Proofs.Lines

/-!
# The module that the helper joins

The helper joins the first import whose path ends with the name of the helper's module.
A name without a slash ends a path exactly when it ends the last component of the path
(`suffix_lastComponent_iff`), so no folder is taken for the module
(`helper_joins_import_ending_with_module`).  The last component may be longer than the
name all the same: an import from `mydateUtils` is one that the helper of `dateUtils`
joins (`helper_joins_import_of_longer_name`).
-/

namespace DateDisplay

open Text

namespace Path

/-- What stands behind the last slash of a path. -/
def lastComponent (p : Text) : Text := (components p).getLastD []

theorem suffix_lastComponent_iff {m p : Text} (hm : slash ∉ m) :
    m <:+ lastComponent p ↔ m <:+ p := by
  have hjoin : join [slash] (components p) = p := join_splitOn (by simp) p
  obtain ⟨cs, c, hcs⟩ := (List.eq_nil_or_concat' _).resolve_left (splitOn_ne_nil slash p)
  rw [components, hcs, join_append (by simp), join_singleton] at hjoin
  have hlast : lastComponent p = c := by
    rw [lastComponent, components, hcs, List.getLastD_concat]
  rw [hlast, ← hjoin]
  constructor
  · intro h
    exact h.trans (List.suffix_append _ _)
  · intro h
    rcases List.eq_nil_or_concat' cs with rfl | ⟨cs, b, rfl⟩
    · exact h
    · rw [ended_append, ended_cons] at h
      refine suffix_behind (a := ended [slash] cs ++ b) hm ?_
      simpa [ended] using h

end Path

namespace Injector

/-- **The helper joins the first import from a path whose last component ends with the
module**, and this import did not bind it. -/
theorem helper_joins_import_ending_with_module {i : Injector} {content file : Text}
    (hn : Plan.isName i.helper = true) (hm : Path.slash ∉ i.module)
    (h : (i.ensure content file).action = .augmented) :
    ∃ before d after, Declaration.declarations content = before ++ d :: after ∧
      (i.ensure content file).content = i.augment content d ∧ d.binds i.helper = false ∧
      i.module <:+ Path.lastComponent d.path ∧
      ∀ e ∈ before, ¬i.module <:+ Path.lastComponent e.path := by
  obtain ⟨hocc, d, hfind, hcontent⟩ := ensure_augmented h
  rw [Declaration.findFrom?, List.find?_eq_some_iff_append] at hfind
  obtain ⟨hpath, before, after, hdecls, hbefore⟩ := hfind
  obtain ⟨u, v, os, rfl, hd, -⟩ := Declaration.walk_to_declaration hdecls
  refine ⟨before, d, after, hdecls, hcontent, not_binds_of_not_occurs hd hn hocc, ?_,
    fun e he => ?_⟩
  · rw [Path.suffix_lastComponent_iff hm]
    exact List.isSuffixOf_iff_suffix.mp hpath
  · rw [Path.suffix_lastComponent_iff hm, ← List.isSuffixOf_iff_suffix, Bool.not_eq_true,
      ← Bool.not_eq_true']
    exact hbefore e he

/-- The first import has the module's name as a folder only. -/
theorem helper_joins_import_ending_with_module_sample :
    let i : Injector := .ofOptions [] [] [] none
    let content := lit "import \x7b a \x7d from './dateUtils/x';\n"
      ++ lit "import \x7b b \x7d from './dateUtils';\ntoLocaleDateString"
    (i.ensure content []).action = .augmented ∧
      (Declaration.declarations (i.ensure content []).content).map (·.symbols)
        = [[lit "a"], [lit "b", lit "dbDateToDisplay"]] ∧
      ∃ before d after, Declaration.declarations content = before ++ d :: after ∧
        (i.ensure content []).content = i.augment content d ∧
        i.module <:+ Path.lastComponent d.path := by
  intro i content
  have ha : (i.ensure content []).action = .augmented := by decide +kernel
  obtain ⟨before, d, after, hdecls, hcontent, -, hpath, -⟩ :=
    helper_joins_import_ending_with_module (i := i) (by decide) (by decide) ha
  exact ⟨ha, by decide +kernel, before, d, after, hdecls, hcontent, hpath⟩

/-- **The helper joins an import from another module**, whose name is longer than that of
its own. -/
theorem helper_joins_import_of_longer_name :
    let i : Injector := .ofOptions [] [] [] none
    let file := lit "src/components/Debts.tsx"
    let content := lit "import \x7b a \x7d from '../utils/mydateUtils';\n"
      ++ lit "new Date(d).toLocaleDateString('pt-BR');\n"
    Plan.isName i.helper = true ∧ Path.slash ∉ i.module ∧
      (i.ensure content file).action = .augmented ∧
      (i.ensure content file).content
        = lit "import \x7b a, dbDateToDisplay \x7d from '../utils/mydateUtils';\n"
          ++ lit "new Date(d).toLocaleDateString('pt-BR');\n" ∧
      ¬∃ d ∈ Declaration.declarations content, Path.lastComponent d.path = i.module := by
  decide +kernel

end Injector

end DateDisplay
