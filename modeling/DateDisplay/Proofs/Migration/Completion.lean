import DateDisplay.Proofs.Expansion
import DateDisplay.Proofs.Migration.Run
import DateDisplay.Proofs.Migration.Setup

/-!
# What a completed run leaves

`goal m t paths l` says what a run over the paths is to leave at a location: a
file with call sites becomes what the migration makes of it under the first path
that leads there, and all else stays.  Under every step the goal stays the same
(`goal_step`), since a file that was migrated has no call sites left and further
paths to it do nothing.  Behind a run over all paths the goal is reached
(`get?_of_steps`).

Files whose paths lead to different locations can be processed in any order
(`Steps.perm`): neighbours can be exchanged.
-/

namespace DateDisplay

open Text

namespace Migration

/-! ### The goal of a run -/

/-- The first path of a list that leads to a location. -/
def firstTo? (m : Migration) (t : FileTree) (paths : List Text) (l : Location) : Option Text :=
  paths.find? fun path => m.store.place? t path == some l

theorem firstTo?_cons_of_eq {m : Migration} {t : FileTree} {path : Text} {l : Location}
    (h : m.store.place? t path = some l) (paths : List Text) :
    m.firstTo? t (path :: paths) l = some path :=
  List.find?_cons_of_pos (by simp [h])

theorem firstTo?_cons_of_ne {m : Migration} {t : FileTree} {path : Text} {l : Location}
    (h : m.store.place? t path ≠ some l) (paths : List Text) :
    m.firstTo? t (path :: paths) l = m.firstTo? t paths l :=
  List.find?_cons_of_neg (by simpa using h)

theorem firstTo?_congr {t t' : FileTree} (h : t.layout = t'.layout) (m : Migration)
    (paths : List Text) (l : Location) : m.firstTo? t paths l = m.firstTo? t' paths l := by
  simp only [firstTo?, FileStore.place?_congr h]

theorem firstTo?_eq_none {m : Migration} {t : FileTree} {paths : List Text} {l : Location}
    (h : ∀ f ∈ paths, m.store.place? t f ≠ some l) : m.firstTo? t paths l = none :=
  List.find?_eq_none.mpr fun f hf => by simpa using h f hf

/-- What a run over the paths is to leave at a location. -/
def goal (m : Migration) (t : FileTree) (paths : List Text) (l : Location) : Option Entry :=
  match t.get? l with
  | some (.file c) =>
    if m.substitution.scan c = [] then some (.file c)
    else
      match m.firstTo? t paths l with
      | some f => some (.file (m.migrated f c).content)
      | none => some (.file c)
  | e => e

theorem goal_of_not_listed {m : Migration} {t : FileTree} {paths : List Text} {l : Location}
    (h : ∀ f ∈ paths, m.store.place? t f ≠ some l) : m.goal t paths l = t.get? l := by
  rw [goal, firstTo?_eq_none h]
  split
  · rename_i c hc
    rw [hc]
    exact ite_self _
  · rfl

theorem goal_nil (m : Migration) (t : FileTree) (l : Location) : m.goal t [] l = t.get? l :=
  goal_of_not_listed (by simp)

theorem goal_of_scan {m : Migration} {t : FileTree} {l : Location} {c : Text}
    (h : t.get? l = some (.file c)) (hs : m.substitution.scan c = []) (paths : List Text) :
    m.goal t paths l = some (.file c) := by
  rw [goal, h]
  exact if_pos hs

theorem goal_of_firstTo {m : Migration} {t : FileTree} {paths : List Text} {l : Location}
    {c f : Text} (h : t.get? l = some (.file c)) (hs : m.substitution.scan c ≠ [])
    (hf : m.firstTo? t paths l = some f) :
    m.goal t paths l = some (.file (m.migrated f c).content) := by
  rw [goal, h]
  dsimp only
  rw [if_neg hs, hf]

theorem goal_cons_of_ne {m : Migration} {t t' : FileTree} (hlay : t'.layout = t.layout)
    {path : Text} {l : Location} (hget : t'.get? l = t.get? l)
    (h : m.store.place? t path ≠ some l) (paths : List Text) :
    m.goal t' paths l = m.goal t (path :: paths) l := by
  rw [goal, goal, firstTo?_cons_of_ne h, hget, firstTo?_congr hlay]

theorem goal_of_absent {m : Migration} {t : FileTree} {path : Text} (h : m.Absent t path)
    (l : Location) (paths : List Text) : m.goal t paths l = m.goal t (path :: paths) l := by
  by_cases hp : m.store.place? t path = some l
  · rw [goal, goal]
    split
    · rename_i c hc
      exact absurd ⟨hp, hc⟩ (h l c)
    · rfl
  · exact goal_cons_of_ne rfl rfl hp paths

theorem Step.layout_eq {m : Migration} {t t' : FileTree} {path : Text} {r : FileResult}
    (h : Step m t path r t') : t'.layout = t.layout := by
  rcases h.tree_cases with rfl | ⟨l, c, u, hn, rfl⟩
  · rfl
  · exact FileTree.layout_setFile hn.2 u

theorem Step.get?_of_ne {m : Migration} {t t' : FileTree} {path : Text} {r : FileResult}
    (h : Step m t path r t') {l : Location} (hl : m.store.place? t path ≠ some l) :
    t'.get? l = t.get? l := by
  rcases h.tree_cases with rfl | ⟨l', c, u, hn, rfl⟩
  · rfl
  · refine FileTree.get?_setFile_of_ne hn.2 u ?_
    rintro rfl
    exact hl hn.1

/-- **A step keeps the goal**, with one path less to come. -/
theorem goal_step {m : Migration} (hsafe : m.substitution.Safe) (hdry : m.dry = false)
    {t t' : FileTree} {path : Text} {r : FileResult} (h : Step m t path r t')
    (paths : List Text) (l : Location) : m.goal t' paths l = m.goal t (path :: paths) l := by
  by_cases hl : m.store.place? t path = some l
  · cases h with
    | missing hc => exact goal_of_absent (FileStore.not_names_of_contains hc) l paths
    | @unchanged l' c hn hs =>
      obtain rfl : l' = l := Option.some.inj (hn.1.symm.trans hl)
      rw [goal_of_scan hn.2 hs, goal_of_scan hn.2 hs]
    | checked hd _ _ =>
      rw [hdry] at hd
      cases hd
    | @changed l' c _ hn hs =>
      -- No call site is left, so later paths to the same file do nothing.
      obtain rfl : l' = l := Option.some.inj (hn.1.symm.trans hl)
      rw [goal_of_firstTo hn.2 hs (firstTo?_cons_of_eq hl paths),
        goal_of_scan (FileTree.get?_setFile_self hn.2 _) (scan_migrated hsafe path c)]
  · exact goal_cons_of_ne h.layout_eq (h.get?_of_ne hl) hl paths

/-- **Behind a run the goal is reached.** -/
theorem get?_of_steps {m : Migration} (hsafe : m.substitution.Safe) (hdry : m.dry = false)
    {t t' : FileTree} {paths : List Text} {rs : List FileResult} (h : Steps m t paths rs t')
    (l : Location) : t'.get? l = m.goal t paths l := by
  induction h with
  | nil t => rw [goal_nil]
  | cons hr _ ih => rw [ih, goal_step hsafe hdry (step_of_process hr)]

theorem resultOf_mem_of_steps {m : Migration} {t t' : FileTree} {paths : List Text}
    {rs : List FileResult} (h : Steps m t paths rs t') {l : Location} {c f : Text}
    (hc : t.get? l = some (.file c)) (hs : m.substitution.scan c ≠ [])
    (hf : m.firstTo? t paths l = some f) : m.resultOf f c ∈ rs := by
  induction h with
  | nil t => cases hf
  | @cons t t' path paths r rs hr _ ih =>
    have hstep := step_of_process hr
    by_cases hl : m.store.place? t path = some l
    · rw [firstTo?_cons_of_eq hl, Option.some.injEq] at hf
      rw [← hf, ← hstep.result_of_names ⟨hl, hc⟩ hs]
      exact List.mem_cons_self
    · rw [firstTo?_cons_of_ne hl, firstTo?_congr hstep.layout_eq.symm] at hf
      exact List.mem_cons_of_mem _ (ih ((hstep.get?_of_ne hl).trans hc) hf)

/-! ### The order of the files -/

/-- **Files at different locations can be processed in any order.** -/
theorem Steps.perm {m : Migration} {paths paths' : List Text} (hp : paths.Perm paths') :
    ∀ {t t' : FileTree} {rs : List FileResult}, paths.Pairwise (m.store.Apart t) →
      Steps m t paths rs t' → ∃ rs', rs'.Perm rs ∧ Steps m t paths' rs' t' := by
  induction hp with
  | nil =>
    intro t t' rs _ h
    exact ⟨rs, List.Perm.refl _, h⟩
  | cons path hp ih =>
    intro t t' rs hn h
    cases h with
    | cons hr h =>
      have hlayout := m.layout_process t path
      have hrest := hn.tail.imp (FileStore.apart_congr hlayout.symm).mp
      obtain ⟨rs', hrs, h'⟩ := ih hrest h
      exact ⟨_ :: rs', hrs.cons _, .cons hr h'⟩
  | swap f g paths =>
    intro t t' rs hn h
    have hgf : m.store.Apart t g f := (List.pairwise_cons.mp hn).1 f (by simp)
    cases h with
    | @cons _ _ _ _ rg _ hg h =>
      cases h with
      | @cons _ _ _ _ rf rs hf h =>
        have hf' : (m.process t f).outcome = .ok rf :=
          (process_frame (agree_process hgf)).1.symm.trans hf
        have hg' : (m.process (m.process t f).tree g).outcome = .ok rg :=
          (process_frame (agree_process hgf.symm)).1.trans hg
        refine ⟨rf :: rg :: rs, List.Perm.swap rg rf rs, .cons hf' (.cons hg' ?_)⟩
        rwa [process_comm hgf.symm]
  | trans h₁₂ _ ih₁ ih₂ =>
    intro t t' rs hn h
    obtain ⟨rs₂, hrs₂, h₂⟩ := ih₁ hn h
    have hn₂ := (h₁₂.pairwise_iff FileStore.Apart.symm).mp hn
    obtain ⟨rs₃, hrs₃, h₃⟩ := ih₂ hn₂ h₂
    exact ⟨rs₃, hrs₃.trans hrs₂, h₃⟩

/-! ### Completed runs -/

theorem run_of_fault_eq_none {m : Migration} {t : FileTree} {records : List FileRecord}
    {stop : Option Nat} (h : (m.run t records stop).fault = none) :
    ∃ files rs, (m.plan.expand t m.root).2 = .ok files ∧
      Unstopped stop 0 files.length ∧ Steps m t files rs (m.run t records stop).tree ∧
      (m.run t records stop).summary = some (.total rs) := by
  cases he : (m.plan.expand t m.root).2 with
  | error f =>
    rw [(run_of_expand_error he records stop).2.2.2] at h
    cases h
  | ok files =>
    obtain ⟨done, rest, rs, rfl, hc, -, hsum⟩ := run_course he records stop
    obtain rfl := hc.ends.fault_eq_none_iff.mp h
    rw [List.append_nil]
    exact ⟨done, rs, rfl, hc.unstopped, hc.steps, hsum⟩

theorem Steps.runFrom_of_perm {m : Migration} {t t' : FileTree} {files files' : List Text}
    {rs : List FileResult} (h : Steps m t files rs t') {stop : Option Nat}
    (hun : Unstopped stop 0 files.length) (hn : files.Pairwise (m.store.Apart t))
    (hp : files'.Perm files) {told : Told} {s : Progress} {fault : Option RunFault}
    (hs : m.runFrom stop 0 files' { tree := t, told } = (s, fault)) :
    fault = none ∧ s.tree = t' ∧ s.summary.files.map (·.path) = files' ∧
      s.summary.files.Perm rs := by
  obtain ⟨rs', hrs, h'⟩ := h.perm hp.symm hn
  have hcourse : Course m stop 0 t files' [] rs' t' none :=
    ⟨by rwa [hp.length_eq], h', .finished⟩
  obtain ⟨htree, hsum, -, hfault⟩ := runFrom_of_course (s := { tree := t, told }) hcourse
  rw [List.append_nil, hs] at htree hsum hfault
  have htotal : s.summary = .total rs' := hsum.trans (h'.foldl_add [])
  rw [htotal]
  exact ⟨hfault, htree, h'.map_path, hrs⟩

theorem action_of_steps {m : Migration} {t t' : FileTree} {paths : List Text}
    {rs : List FileResult} (hn : paths.Nodup) (h : Steps m t paths rs t') {l : Location}
    {c f : Text} (hc : t.get? l = some (.file c)) (hs : m.substitution.scan c ≠ [])
    (hf : m.firstTo? t paths l = some f) {r : FileResult} (hr : r ∈ rs) (hrf : r.path = f) :
    r.importAction = .alreadyPresent ∨ r.importAction = .augmented ∨ r.importAction = .added := by
  rw [← h.map_path] at hn
  have heq : r = m.resultOf f c :=
    List.inj_on_of_nodup_map hn hr (resultOf_mem_of_steps h hc hs hf) hrf
  rw [heq]
  exact action_of_scan f hs

/-- **A completed run migrates the files it lists and nothing else.**  Every file
with call sites that a listed path leads to becomes what the migration makes of it
under the first such path, and every other file stays.  If no two paths lead to one
location, their order makes no difference. -/
theorem completed_run_migrates_listed {p : Plan} {root : Text} {console : Console}
    {sabotage : Sabotage} {scope : Scope} {m : Migration}
    (hm : new (some p) root false (some console) sabotage scope = .ok m)
    (hlocale : '('.toUInt8 ∉ p.locale)
    (hname : (p.helper.getD {}).name ∉ [lit "e", lit "te", lit "ate", lit "Date"])
    (t : FileTree) (records : List FileRecord) (stop : Option Nat)
    (hrun : (m.run t records stop).fault = none) :
    ∃ files summary, (p.expand t m.root).2 = .ok files ∧
      (m.run t records stop).summary = some summary ∧
      summary.files.map (·.path) = files ∧
      (m.run t records stop).tree.layout = t.layout ∧
      (∀ l, (∀ f ∈ files, m.store.place? t f ≠ some l) →
        (m.run t records stop).tree.get? l = t.get? l) ∧
      (∀ l c, t.get? l = some (.file c) → m.substitution.scan c = [] →
        (m.run t records stop).tree.get? l = some (.file c)) ∧
      (∀ l c f, t.get? l = some (.file c) → m.substitution.scan c ≠ [] →
        m.firstTo? t files l = some f →
        ∃ u, u = (m.substitution.apply (m.injector.ensure c f).content).content ∧
          (m.run t records stop).tree.get? l = some (.file u) ∧
          m.substitution.scan u = [] ∧ occurs (p.helper.getD {}).name u = true ∧
          ∀ r ∈ summary.files, r.path = f → r.importAction = .alreadyPresent ∨
            r.importAction = .augmented ∨ r.importAction = .added) ∧
      (files.Pairwise (m.store.Apart t) → ∀ files' : List Text, files'.Perm files →
        ∀ told s fault, m.runFrom stop 0 files' { tree := t, told } = (s, fault) →
          fault = none ∧ s.tree = (m.run t records stop).tree ∧
          s.summary.files.map (·.path) = files' ∧ s.summary.files.Perm summary.files) := by
  obtain ⟨hfor, hdry, -⟩ := isFor_of_new hm
  have hsafe : m.substitution.Safe := hfor.safe hlocale hname
  obtain ⟨files, rs, he, hun, hsteps, hsum⟩ := run_of_fault_eq_none hrun
  have hget := get?_of_steps hsafe hdry hsteps
  refine ⟨files, .total rs, hfor.plan ▸ he, hsum, hsteps.map_path, hsteps.layout_eq, ?_, ?_, ?_, ?_⟩
  · intro l hl
    rw [hget, goal_of_not_listed hl]
  · intro l c hc hs
    rw [hget, goal_of_scan hc hs]
  · intro l c f hc hs hf
    refine ⟨_, rfl, ?_, scan_migrated hsafe f c, ?_, ?_⟩
    · rw [hget, goal_of_firstTo hc hs hf]
      rfl
    · rw [← hfor.helper]
      exact hfor.occurs_helper_migrated f hs
    · intro r hr hrf
      exact action_of_steps (Plan.nodup_of_expand he) hsteps hc hs hf hr hrf
  · intro hn files' hp told s fault hs
    exact hsteps.runFrom_of_perm hun hn hp hs

/-- A file that is listed under two paths is migrated under the first of them. -/
theorem completed_run_migrates_aliased :
    let m := sample [lit "./a", lit "c", lit "a"] false {}
    new (some m.plan) [] false (some {}) {} {} = .ok m ∧ (m.run .sample [] none).fault = none ∧
      ∃ u, u = (m.substitution.apply (m.injector.ensure
        (lit "new Date(d).toLocaleDateString('pt-BR')") (lit "./a")).content).content ∧
        (m.run .sample [] none).tree.get? [lit "a"] = some (.file u) ∧
        m.substitution.scan u = [] ∧ occurs (lit "show") u = true := by
  intro m
  have hm : new (some m.plan) [] false (some {}) {} {} = .ok m := rfl
  have hrun : (m.run .sample [] none).fault = none := by decide +kernel
  refine ⟨hm, hrun, ?_⟩
  obtain ⟨files, _, he, -, -, -, -, -, h, -⟩ :=
    completed_run_migrates_listed hm (by decide) (by decide) .sample [] none hrun
  obtain rfl : files = [lit "./a", lit "c", lit "a"] :=
    Except.ok.inj (he.symm.trans (by decide +kernel))
  obtain ⟨u, hu, hget, hscan, hocc, -⟩ :=
    h [lit "a"] _ (lit "./a") rfl (by decide +kernel) (by decide +kernel)
  exact ⟨u, hu, hget, hscan, hocc⟩

end Migration

end DateDisplay
