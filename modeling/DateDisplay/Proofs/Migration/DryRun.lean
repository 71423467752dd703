import DateDisplay.Proofs.Expansion
import DateDisplay.Proofs.Migration.Run
import DateDisplay.Proofs.Migration.Setup

/-!
# What a dry run foretells

A dry run sees every file as it was before, and a run that writes sees a tree that
it has changed itself.  If the paths lead to different locations, the changes made
so far are not seen from the paths to come (`FileStore.Agree`).  That is the
relation under which the dry run follows the other one step by step
(`Step.foretold`, `Steps.foretold`), and so its results foretell the others'
(`Foretells`).
-/

namespace DateDisplay

open Text

namespace Migration

/-- The result `d` of a dry run says what the result `w` of a run that writes will
say, short of the writing. -/
structure Foretells (d w : FileResult) : Prop where
  path : d.path = w.path
  replacements : d.replacements = w.replacements
  sites : d.sites = w.sites
  importAction : d.importAction = w.importAction
  importPath : d.importPath = w.importPath
  diff : d.diff = w.diff
  pending : d.status = .pending ↔ w.status = .modified
  status : w.status ≠ .modified → d.status = w.status
  bytes : d.bytes = 0

theorem foretells_untouched {path : Text} {status : FileStatus} (hm : status ≠ .modified)
    (hp : status ≠ .pending) : Foretells (untouched path status) (untouched path status) where
  path := rfl
  replacements := rfl
  sites := rfl
  importAction := rfl
  importPath := rfl
  diff := rfl
  pending := ⟨fun h => absurd h hp, fun h => absurd h hm⟩
  status := fun _ => rfl
  bytes := rfl

theorem foretells_resultOf {m m' : Migration} {p : Plan} {root : Text} (h : m.IsFor p root)
    (h' : m'.IsFor p root) (hd : m.dry = true) (hd' : m'.dry = false) (path c : Text) :
    Foretells (m.resultOf path c) (m'.resultOf path c) := by
  have hi : m.injector = m'.injector := by rw [injector, injector, h.helper, h'.helper]
  constructor <;>
    simp [resultOf, h.migrated_eq h', h.substitution_eq h', hi, hd, hd', h.helper, h'.helper]

theorem Foretells.hasSites {d w : FileResult} (h : Foretells d w) :
    d.status.hasSites = w.status.hasSites := by
  by_cases hw : w.status = .modified
  · rw [hw, h.pending.mpr hw]
    rfl
  · rw [h.status hw]

theorem modified_of_foretells {ds ws : List FileResult} (h : List.Forall₂ Foretells ds ws) :
    (RunSummary.total ds).modified = (RunSummary.total ws).modified := by
  simp only [RunSummary.total]
  induction h with
  | nil => rfl
  | cons h _ ih => rw [List.countP_cons, List.countP_cons, h.hasSites, ih]

theorem replacements_of_foretells {ds ws : List FileResult} (h : List.Forall₂ Foretells ds ws) :
    (RunSummary.total ds).replacements = (RunSummary.total ws).replacements := by
  have hsum : RunSummary.sumOver (·.replacements) ds = RunSummary.sumOver (·.replacements) ws := by
    induction h with
    | nil => rfl
    | cons h _ ih => rw [RunSummary.sumOver, RunSummary.sumOver, h.replacements, ih]
  rw [RunSummary.total, RunSummary.total, hsum]

/-! ### The dry run leaves the tree alone -/

theorem Step.tree_of_dry {m : Migration} (hd : m.dry = true) {t t' : FileTree} {path : Text}
    {r : FileResult} (h : Step m t path r t') : t' = t := by
  cases h with
  | missing _ => rfl
  | unchanged _ _ => rfl
  | checked _ _ _ => rfl
  | changed hd' _ _ =>
    rw [hd] at hd'
    cases hd'

theorem Steps.tree_of_dry {m : Migration} (hd : m.dry = true) {t t' : FileTree}
    {paths : List Text} {rs : List FileResult} (h : Steps m t paths rs t') : t' = t := by
  induction h with
  | nil t => rfl
  | cons hr _ ih => rw [ih, (step_of_process hr).tree_of_dry hd]

theorem tree_of_dry_run {m : Migration} (hd : m.dry = true) (t : FileTree)
    (records : List FileRecord) (stop : Option Nat) : (m.run t records stop).tree = t := by
  cases he : (m.plan.expand t m.root).2 with
  | error f => exact (run_of_expand_error he records stop).1
  | ok files =>
    obtain ⟨done, rest, rs, -, hc, -, -⟩ := run_course he records stop
    exact hc.steps.tree_of_dry hd

/-! ### Step by step -/

/-- **Every step of a run that writes is foretold** on a tree that looks the same
from its path. -/
theorem Step.foretold {m m' : Migration} {p : Plan} {root : Text} (h : m.IsFor p root)
    (h' : m'.IsFor p root) (hd : m.dry = true) (hd' : m'.dry = false) {t t₁ t₂ : FileTree}
    {path : Text} {w : FileResult} (ha : m.store.Agree t t₁ path) (hs : Step m' t₁ path w t₂) :
    ∃ d, Step m t path d t ∧ Foretells d w := by
  have hnames : ∀ {l c}, m'.store.Names t₁ path l c → m.store.Names t path l c :=
    fun hn => ha.symm.names (h'.names_congr h hn)
  cases hs with
  | missing hc =>
    refine ⟨_, .missing ?_, foretells_untouched (by decide) (by decide)⟩
    rw [FileStore.contains_congr ha.layout, h.undisturbed_eq h']
    exact hc
  | unchanged hn hs =>
    refine ⟨_, .unchanged (hnames hn) ?_, foretells_untouched (by decide) (by decide)⟩
    rw [h.substitution_eq h']
    exact hs
  | checked hdry _ _ =>
    rw [hd'] at hdry
    cases hdry
  | changed _ hn hs =>
    refine ⟨_, .checked hd (hnames hn) ?_, foretells_resultOf h h' hd hd' _ _⟩
    rw [h.substitution_eq h']
    exact hs

/-- **A run that writes is foretold** by the dry run on the tree as it was. -/
theorem Steps.foretold {m m' : Migration} {p : Plan} {root : Text} (h : m.IsFor p root)
    (h' : m'.IsFor p root) (hd : m.dry = true) (hd' : m'.dry = false) (hm : m.store = m'.store)
    (hsab : m.store.sabotage = {}) {t t₁ t₂ : FileTree} {paths : List Text}
    {ws : List FileResult} (hs : Steps m' t₁ paths ws t₂) :
    paths.Pairwise (m.store.Apart t) → (∀ path ∈ paths, m.store.Agree t t₁ path) →
      ∃ ds, Steps m t paths ds t ∧ List.Forall₂ Foretells ds ws := by
  induction hs with
  | nil t₁ => intro _ _; exact ⟨[], .nil t, .nil⟩
  | @cons t₁ t₂ path paths w ws hw _ ih =>
    intro hn ha
    rw [List.pairwise_cons] at hn
    obtain ⟨d, hstep, hdw⟩ :=
      (step_of_process hw).foretold h h' hd hd' (ha path List.mem_cons_self)
    have hrest : ∀ q ∈ paths, m.store.Agree t (m'.process t₁ path).tree q := by
      intro q hq
      have hlayout := (ha path List.mem_cons_self).layout
      have hapart := (FileStore.apart_congr hlayout).mp (hn.1 q hq)
      have hafter := agree_process (m := m') (hm ▸ hapart)
      rw [← hm] at hafter
      exact (ha q (List.mem_cons_of_mem _ hq)).trans hafter
    obtain ⟨ds, hds, hall⟩ := ih hn.2 hrest
    obtain ⟨hout, htree⟩ := process_of_step hsab hstep
    exact ⟨d :: ds, .cons hout (by rwa [htree]), .cons hdw hall⟩

/-! ### What was written -/

theorem Steps.agree {m : Migration} {t t' : FileTree} {paths : List Text} {rs : List FileResult}
    (h : Steps m t paths rs t') {path : Text}
    (hpath : ∀ q ∈ paths, m.store.Apart t path q) : m.store.Agree t t' path := by
  induction h with
  | nil t => exact FileStore.Agree.refl _ _ _
  | @cons t t' q paths r rs _ _ ih =>
    have hlayout := (m.layout_process t q).symm
    exact (agree_process (hpath q List.mem_cons_self).symm).trans (ih fun q' hq' =>
      (FileStore.apart_congr hlayout).mp (hpath q' (List.mem_cons_of_mem _ hq')))

theorem Step.written {m : Migration} {t t' : FileTree} {path : Text} {r : FileResult}
    (h : Step m t path r t') (hr : r.status = .modified) :
    ∃ l u, m.store.Names t' path l u ∧ r.bytes = u.length := by
  cases h with
  | missing _ => cases hr
  | unchanged _ _ => cases hr
  | checked hd _ _ => simp [resultOf, hd] at hr
  | @changed l c hd hn _ =>
    exact ⟨l, _, FileStore.names_setFile_self hn _, by simp [resultOf, hd]⟩

/-- **The bytes of a modified file** are those that it has behind the run. -/
theorem Steps.written {m : Migration} {t t' : FileTree} {paths : List Text}
    {rs : List FileResult} (h : Steps m t paths rs t') (hn : paths.Pairwise (m.store.Apart t)) :
    ∀ r ∈ rs, r.status = .modified →
      ∃ l u, m.store.Names t' r.path l u ∧ r.bytes = u.length := by
  induction h with
  | nil t => intro r hr; cases hr
  | @cons t t' path paths r₀ rs hr₀ hsteps ih =>
    intro r hr hmod
    have hlayout := (m.layout_process t path).symm
    rw [List.pairwise_cons] at hn
    rcases List.mem_cons.mp hr with rfl | hr
    · have hstep := step_of_process hr₀
      obtain ⟨l, u, hu, hlen⟩ := hstep.written hmod
      refine ⟨l, u, ?_, hlen⟩
      rw [hstep.path_eq]
      exact (hsteps.agree fun q hq => (FileStore.apart_congr hlayout).mp (hn.1 q hq)).names hu
    · exact ih (hn.2.imp (FileStore.apart_congr hlayout).mp) r hr hmod

/-! ### Whole runs -/

/-- **A dry run changes nothing and foretells the run that writes**, if no two listed
paths lead to one location and no call is made to fail. -/
theorem dry_run_foretells_run {p : Plan} {root : Text} {console console' : Console}
    {scope scope' : Scope} {m m' : Migration}
    (hm : new (some p) root true (some console) {} scope = .ok m)
    (hm' : new (some p) root false (some console') {} scope' = .ok m')
    (t : FileTree) (records records' : List FileRecord) :
    (m.run t records none).tree = t ∧
      ∀ files, (p.expand t m.root).2 = .ok files → files.Pairwise (m.store.Apart t) →
        (m.run t records none).fault = (m'.run t records' none).fault ∧
        ∃ d w, (m.run t records none).summary = some d ∧
          (m'.run t records' none).summary = some w ∧
          List.Forall₂ Foretells d.files w.files ∧
          ((m.run t records none).fault = none → d.files.map (·.path) = files) ∧
          (∀ r ∈ w.files, r.status = .modified → ∃ l u,
            m'.store.Names (m'.run t records' none).tree r.path l u ∧ r.bytes = u.length) ∧
          d.modified = w.modified ∧ d.replacements = w.replacements := by
  obtain ⟨hfor, hdry, hsab⟩ := isFor_of_new hm
  obtain ⟨hfor', hdry', hsab'⟩ := isFor_of_new hm'
  have hstore : m.store = m'.store := hfor.store_eq hfor' (hsab.trans hsab'.symm)
  refine ⟨tree_of_dry_run hdry t records none, fun files he hn => ?_⟩
  rw [← hfor.plan] at he
  have he' : (m'.plan.expand t m'.root).2 = .ok files := by rwa [hfor'.expand_eq hfor]
  obtain ⟨done, rest, ws, rfl, hc', -, hsum'⟩ := run_course he' records' none
  have hn : done.Pairwise (m.store.Apart t) := (List.pairwise_append.mp hn).1
  obtain ⟨ds, hds, hall⟩ := hc'.steps.foretold hfor hfor' hdry hdry' hstore hsab hn
    fun path _ => FileStore.Agree.refl m.store t path
  -- Both runs end at the same place, since the layout is the same there.
  have hends : Ends m none (0 + done.length) t rest (m'.run t records' none).fault :=
    hc'.ends.congr hsab' hstore.symm hc'.steps.layout_eq
  obtain ⟨-, -, hsum, hfault⟩ := run_of_course he records ⟨unstopped_none _ _, hds, hends⟩
  refine ⟨hfault, _, _, hsum, hsum', hall, fun hnone => ?_, ?_, modified_of_foretells hall,
    replacements_of_foretells hall⟩
  · rw [hends.fault_eq_none_iff.mp (hfault.symm.trans hnone), List.append_nil]
    exact hds.map_path
  · exact hc'.steps.written (by rwa [← hstore])

/-- The dry run on the small case sees the file with call sites. -/
theorem dry_run_foretells_sample :
    let files := [lit "c", lit "b", lit "./a"]
    let m := sample files true {}
    let m' := sample files false {}
    files.Pairwise (m.store.Apart .sample) ∧ (m.run .sample [] none).tree = .sample ∧
      ∃ d w, (m.run .sample [] none).summary = some d ∧
        (m'.run .sample [] none).summary = some w ∧
        List.Forall₂ Foretells d.files w.files ∧ d.modified = 1 ∧ w.modified = 1 := by
  intro files m m'
  have hm : new (some (.sample files)) [] true (some {}) {} {} = .ok m := rfl
  have hm' : new (some (.sample files)) [] false (some {}) {} {} = .ok m' := rfl
  have hn : files.Pairwise (m.store.Apart .sample) := by decide
  obtain ⟨htree, h⟩ := dry_run_foretells_run hm hm' .sample [] []
  obtain ⟨-, d, w, hd, hw, hall, -, -, hmod, -⟩ := h files (by decide +kernel) hn
  have hone : (m.run .sample [] none).summary.map (·.modified) = some 1 := by decide +kernel
  rw [hd, Option.map_some, Option.some.injEq] at hone
  exact ⟨hn, htree, d, w, hd, hw, hall, hone, hmod ▸ hone⟩

end Migration

end DateDisplay
