import DateDisplay.Plan
import Mathlib.Data.List.Infix

/-!
# Sound plans

What is wrong with a plan is found by going through its parts, from the locale to the last entry
of the file list.  `Plan.Sound` says what a plan is like in which nothing is found
(`flaw?_eq_none_iff`).  Path rules are looked at last among the parts of a helper, so a helper
that is right in all else has the flaw of its rules (`helperFlaw?_eq_rulesFlaw?`).
-/

namespace DateDisplay

open Text

/-- The rule is for a folder of one name and leads to the module. -/
def PathRule.Sound (module : Text) (r : PathRule) : Prop :=
  r.segment ≠ [] ∧ Path.slash ∉ r.segment ∧ module <:+ r.path

/-- The helper has a name, and all its paths lead to its module. -/
structure Helper.Sound (h : Helper) : Prop where
  name : Plan.isName h.name = true
  module : h.module ≠ []
  defaultPath : h.module <:+ h.defaultPath
  rules : ∀ r ∈ h.rules, r.Sound h.module

namespace Plan

/-- The plan is complete, and its files are given by relative paths. -/
structure Sound (p : Plan) (h : Helper) : Prop where
  locale : p.locale ≠ []
  helper : p.helper = some h
  sound : h.Sound
  files : p.entries ≠ []
  relative : ∀ f ∈ p.entries, f ≠ [] ∧ Path.isAbsolute f = false

theorem rulesFlaw?_eq_none_iff {module : Text} : ∀ {rs : List PathRule} {i : Nat},
    rulesFlaw? module i rs = none ↔ ∀ r ∈ rs, r.Sound module := by
  intro rs
  induction rs with
  | nil => intro i; simp [rulesFlaw?]
  | cons r rs ih =>
    intro i
    rw [rulesFlaw?, List.forall_mem_cons, PathRule.Sound, ← List.isSuffixOf_iff_suffix]
    by_cases hseg : r.segment = [] ∨ Path.slash ∈ r.segment
    · have hflaw : (r.segment.isEmpty || r.segment.contains Path.slash) = true := by
        simpa using hseg
      rw [if_pos hflaw]
      simp only [reduceCtorEq, false_iff]
      tauto
    · have hsound : ¬(r.segment.isEmpty || r.segment.contains Path.slash) = true := by
        simpa using hseg
      rw [if_neg hsound]
      rw [not_or] at hseg
      by_cases hpath : module.isSuffixOf r.path = true
      · rw [if_neg (by simp [hpath]), ih]
        tauto
      · rw [if_pos (by simp only [hpath, Bool.not_false])]
        simp only [reduceCtorEq, false_iff]
        tauto

theorem filesFlaw?_eq_none_iff : ∀ {fs : List Text} {i : Nat},
    filesFlaw? i fs = none ↔ ∀ f ∈ fs, f ≠ [] ∧ Path.isAbsolute f = false := by
  intro fs
  induction fs with
  | nil => intro i; simp [filesFlaw?]
  | cons f fs ih =>
    intro i
    rw [filesFlaw?, List.forall_mem_cons]
    by_cases hempty : f = []
    · simp [hempty]
    · by_cases habs : Path.isAbsolute f = true
      · simp [hempty, habs]
      · rw [if_neg (by simpa using hempty), if_neg habs, ih]
        simp [hempty, habs]

theorem helperFlaw?_eq_rulesFlaw? {h : Helper} (hname : isName h.name = true)
    (hmodule : h.module ≠ []) (hdefault : h.module <:+ h.defaultPath) :
    helperFlaw? h = rulesFlaw? h.module 0 h.rules := by
  rw [← List.isSuffixOf_iff_suffix] at hdefault
  rw [helperFlaw?, if_neg (by simp [hname]), if_neg (by simpa using hmodule),
    if_neg (by simp [hdefault])]

theorem helperFlaw?_eq_none_iff {h : Helper} : helperFlaw? h = none ↔ h.Sound := by
  constructor
  · intro hnone
    by_cases hname : isName h.name = true
    · by_cases hmodule : h.module = []
      · simp [helperFlaw?, hname, hmodule] at hnone
      · by_cases hdefault : h.module <:+ h.defaultPath
        · rw [helperFlaw?_eq_rulesFlaw? hname hmodule hdefault] at hnone
          exact ⟨hname, hmodule, hdefault, rulesFlaw?_eq_none_iff.mp hnone⟩
        · rw [← List.isSuffixOf_iff_suffix] at hdefault
          simp [helperFlaw?, hname, hmodule, hdefault] at hnone
    · simp [helperFlaw?, hname] at hnone
  · intro hs
    rw [helperFlaw?_eq_rulesFlaw? hs.name hs.module hs.defaultPath]
    exact rulesFlaw?_eq_none_iff.mpr hs.rules

theorem flaw?_eq_helperFlaw? {p : Plan} {h : Helper} (hlocale : p.locale ≠ [])
    (hhelper : p.helper = some h) (hfiles : p.entries ≠ [])
    (hrelative : ∀ f ∈ p.entries, f ≠ [] ∧ Path.isAbsolute f = false) :
    p.flaw? = helperFlaw? h := by
  rw [flaw?, if_neg (by simpa using hlocale), hhelper]
  cases hflaw : helperFlaw? h with
  | some f => simp [hflaw]
  | none =>
    simp only [hflaw]
    rw [if_neg (by simpa using hfiles)]
    exact filesFlaw?_eq_none_iff.mpr hrelative

/-- **A plan is free of flaws exactly if it is sound.** -/
theorem flaw?_eq_none_iff {p : Plan} : p.flaw? = none ↔ ∃ h, p.Sound h := by
  constructor
  · intro hnone
    rw [flaw?] at hnone
    split at hnone
    · cases hnone
    · rename_i hlocale
      split at hnone
      · cases hnone
      · rename_i h hhelper
        split at hnone
        · cases hnone
        · rename_i hsound
          split at hnone
          · cases hnone
          · rename_i hfiles
            exact ⟨h, by simpa using hlocale, hhelper, helperFlaw?_eq_none_iff.mp hsound,
              by simpa using hfiles, filesFlaw?_eq_none_iff.mp hnone⟩
  · rintro ⟨h, hs⟩
    rw [flaw?_eq_helperFlaw? hs.locale hs.helper hs.files hs.relative]
    exact helperFlaw?_eq_none_iff.mpr hs.sound

end Plan

end DateDisplay
