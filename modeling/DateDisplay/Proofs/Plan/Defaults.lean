import DateDisplay.Plan.Load
import DateDisplay.Proofs.Plan.Soundness

/-!
# Defaults and flaws

Defaults are filled in part by part, while the check holds the parts against each other: the
paths of the helper have to end with the name of its module.  Of a sound plan only the path rules
can be missing (`Sound.withDefaults_eq`), and the rules that take their place are for the built-in
module.  So a plan for another module comes out with a flaw that was not there, and this is the
only way in which a plan that was sound as written is rejected (`defaults_keep_sound_iff`).
-/

namespace DateDisplay

open Text

namespace Plan

/-! ### What defaults do to them -/

theorem orElse_of_ne_nil {s : Text} (h : s ≠ []) (d : Text) : Helper.orElse s d = s :=
  if_neg (by simpa using h)

theorem rules_of_some {h : Helper} {rs : List PathRule} (hrs : h.pathRules = some rs) :
    h.rules = rs := by
  rw [Helper.rules, hrs]
  rfl

/-- **Defaults fill in the path rules of a sound plan**, and nothing else. -/
theorem Sound.withDefaults_eq {p : Plan} {h : Helper} (hs : p.Sound h) :
    p.withDefaults = { p with
      helper := some { h with pathRules := h.pathRules <|> Helper.builtin.pathRules } } := by
  have hname : h.name ≠ [] := by
    intro hnil
    have := hs.sound.name
    rw [hnil] at this
    cases this
  have hdefault : h.defaultPath ≠ [] := by
    intro hnil
    have := hs.sound.defaultPath
    rw [hnil, List.suffix_nil] at this
    exact hs.sound.module this
  have hfiles : p.entries.isEmpty = false := by simpa using hs.files
  rw [withDefaults, Helper.withDefaults, hs.helper, Option.getD_some, hfiles,
    orElse_of_ne_nil hs.locale, orElse_of_ne_nil hname, orElse_of_ne_nil hs.sound.module,
    orElse_of_ne_nil hdefault]
  rfl

/-- Rules for folders of one name can only fail to lead to the module. -/
theorem exists_stray_of_rulesFlaw? {module : Text} {f : Flaw} : ∀ {rs : List PathRule} {i : Nat},
    (∀ r ∈ rs, r.segment ≠ [] ∧ Path.slash ∉ r.segment) → rulesFlaw? module i rs = some f →
    ∃ k r, rs[k]? = some r ∧ ¬module <:+ r.path ∧ f = .strayRule (i + k) r.path module := by
  intro rs
  induction rs with
  | nil => intro i _ h; cases h
  | cons r rs ih =>
    intro i hseg h
    rw [List.forall_mem_cons] at hseg
    rw [rulesFlaw?, if_neg (by simpa using hseg.1)] at h
    split at h
    · rename_i hpath
      refine ⟨0, r, rfl, ?_, (Option.some.inj h).symm⟩
      rw [← List.isSuffixOf_iff_suffix]
      simpa only [Bool.not_eq_true', ← Bool.not_eq_true] using hpath
    · obtain ⟨k, s, hk, hs, rfl⟩ := ih hseg.2 h
      exact ⟨k + 1, s, hk, hs, by rw [Nat.add_assoc, Nat.add_comm 1 k]⟩

/-- The plan has path rules of its own, be it an empty list of them, or it is for a module that
the built-in rules lead to. -/
def RulesFit (p : Plan) : Prop :=
  ∀ h ∈ p.helper, h.pathRules = none → ∀ r ∈ PathTable.builtin.rules, h.module <:+ r.path

theorem segments_builtin : ∀ r ∈ PathTable.builtin.rules,
    r.segment ≠ [] ∧ Path.slash ∉ r.segment := by decide

theorem Sound.flaw?_withDefaults {p : Plan} {h : Helper} (hs : p.Sound h) :
    p.withDefaults.flaw? = rulesFlaw? h.module 0 (h.pathRules.getD PathTable.builtin.rules) := by
  let g : Helper := { h with pathRules := h.pathRules <|> Helper.builtin.pathRules }
  have hrules : g.rules = h.pathRules.getD PathTable.builtin.rules := by
    show (h.pathRules <|> Helper.builtin.pathRules).getD [] = _
    cases h.pathRules with
    | none => rfl
    | some rs => rfl
  rw [hs.withDefaults_eq, ← hrules]
  calc ({ p with helper := some g } : Plan).flaw?
      = helperFlaw? g := flaw?_eq_helperFlaw? hs.locale rfl hs.files hs.relative
    _ = rulesFlaw? h.module 0 g.rules :=
      helperFlaw?_eq_rulesFlaw? hs.sound.name hs.sound.module hs.sound.defaultPath

theorem Sound.flaw?_withDefaults_eq_none_iff {p : Plan} {h : Helper} (hs : p.Sound h) :
    p.withDefaults.flaw? = none ↔ p.RulesFit := by
  have hfit : p.RulesFit ↔
      (h.pathRules = none → ∀ r ∈ PathTable.builtin.rules, h.module <:+ r.path) := by
    rw [RulesFit, hs.helper]
    simp
  rw [hs.flaw?_withDefaults, rulesFlaw?_eq_none_iff, hfit]
  cases hrules : h.pathRules with
  | none =>
    constructor
    · intro hsound _ r hr
      exact (hsound r hr).2.2
    · intro hpath r hr
      exact ⟨(segments_builtin r hr).1, (segments_builtin r hr).2, hpath rfl r hr⟩
  | some rs =>
    constructor
    · intro _ hnone
      cases hnone
    · intro _
      rw [← rules_of_some hrules]
      exact hs.sound.rules

theorem Sound.stray_of_flaw?_withDefaults {p : Plan} {h : Helper} (hs : p.Sound h) {f : Flaw}
    (hf : p.withDefaults.flaw? = some f) : h.pathRules = none ∧ ∃ i r,
      PathTable.builtin.rules[i]? = some r ∧ ¬h.module <:+ r.path ∧
        f = .strayRule i r.path h.module := by
  rw [hs.flaw?_withDefaults] at hf
  cases hrules : h.pathRules with
  | none =>
    rw [hrules] at hf
    obtain ⟨k, r, hr, hpath, rfl⟩ := exists_stray_of_rulesFlaw? segments_builtin hf
    exact ⟨rfl, k, r, hr, hpath, by rw [Nat.zero_add]⟩
  | some rs =>
    rw [hrules, Option.getD_some, ← rules_of_some hrules,
      rulesFlaw?_eq_none_iff.mpr hs.sound.rules] at hf
    cases hf

/-- A plan that is read from a file is rejected for its flaws after the defaults, and for nothing
else. -/
theorem load_of_parse {t : FileTree} {path data : Text} {format : PlanFormat} {p : Plan}
    (hread : t.read path = .ok data) (hformat : PlanFormat.ofName? path = some format)
    (hparse : parse format data = .ok p) :
    (load t path).2 =
      match p.withDefaults.flaw? with
      | some f => .error (.flawed f)
      | none => .ok { p.withDefaults with location := path } := by
  have hpath : path.isEmpty = false := by
    cases path with
    | nil => cases hformat
    | cons b path => rfl
  rw [load, hpath]
  simp only [Bool.false_eq_true, if_false, loadFile, hread, hformat, hparse]
  rfl

/-- **Defaults leave a sound plan sound exactly if its rules fit.**  In particular a file with a
plan that is sound as written is loaded, or else rejected for a built-in rule that does not lead
to the module of the plan. -/
theorem defaults_keep_sound_iff {p : Plan} (hp : p.flaw? = none) :
    (p.withDefaults.flaw? = none ↔ p.RulesFit) ∧
    ∀ (t : FileTree) (path data : Text) (format : PlanFormat), t.read path = .ok data →
      PlanFormat.ofName? path = some format → parse format data = .ok p →
      ((load t path).2 = .ok { p.withDefaults with location := path } ↔ p.RulesFit) ∧
      ∀ f, (load t path).2 = .error f → ∃ h ∈ p.helper, h.pathRules = none ∧
        ∃ i r, PathTable.builtin.rules[i]? = some r ∧ ¬h.module <:+ r.path ∧
          f = .flawed (.strayRule i r.path h.module) := by
  obtain ⟨h, hs⟩ := flaw?_eq_none_iff.mp hp
  refine ⟨hs.flaw?_withDefaults_eq_none_iff, fun t path data format hread hformat hparse => ?_⟩
  rw [load_of_parse hread hformat hparse, ← hs.flaw?_withDefaults_eq_none_iff]
  cases hf : p.withDefaults.flaw? with
  | none => simp
  | some f =>
    obtain ⟨hnone, i, r, hr, hpath, rfl⟩ := hs.stray_of_flaw?_withDefaults hf
    refine ⟨by simp, fun g hg => ⟨h, hs.helper, hnone, i, r, hr, hpath, ?_⟩⟩
    exact (Except.error.inj hg).symm

/-- The plan is for a module of its own and says that there are no rules for it. -/
theorem defaults_keep_sound_without_rules :
    let path := lit "datefix.json"
    let data := lit ("\x7b\"locale\": \"en-US\", \"files\": [\"src/App.tsx\"], \"helper\": "
      ++ "\x7b\"name\": \"formatDisplayDate\", \"module\": \"dates\", "
      ++ "\"default_path\": \"../lib/dates\", \"path_rules\": []\x7d\x7d")
    let t : FileTree := { entries := [([path], .file data)] }
    let h : Helper := ⟨lit "formatDisplayDate", lit "dates", lit "../lib/dates", some []⟩
    let p : Plan := ⟨lit "en-US", some h, some [lit "src/App.tsx"], []⟩
    p.flaw? = none ∧ p.withDefaults.flaw? = none ∧ parse .json data = .ok p ∧
      (load t path).2 = .ok { p.withDefaults with location := path } := by
  intro path data t h p
  have hp : p.flaw? = none := by decide +kernel
  have hparse : parse .json data = .ok p := by decide +kernel
  have hfit : p.RulesFit := by
    intro g hg hnone
    obtain rfl : h = g := Option.some.inj hg
    cases hnone
  obtain ⟨hkept, hload⟩ := defaults_keep_sound_iff hp
  have hread : t.read path = .ok data := by decide +kernel
  exact ⟨hp, hkept.mpr hfit, hparse, (hload t path data .json hread (by decide) hparse).1.mpr hfit⟩

/-- **Defaults can spoil a sound plan**: without rules of its own, a plan for another module gets
rules that do not lead to it. -/
theorem defaults_spoil_plan_for_other_module :
    let h : Helper := ⟨lit "formatDisplayDate", lit "dates", lit "../lib/dates", none⟩
    let p : Plan := ⟨lit "en-US", some h, some [lit "src/App.tsx"], []⟩
    p.flaw? = none ∧
      p.withDefaults.flaw? = some (.strayRule 0 (lit "../../utils/dateUtils") (lit "dates")) := by
  decide +kernel

end Plan

end DateDisplay
