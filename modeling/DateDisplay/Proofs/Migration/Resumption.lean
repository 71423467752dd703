import DateDisplay.Proofs.Expansion
import DateDisplay.Proofs.Migration.Run
import DateDisplay.Proofs.Migration.Setup

/-!
# Running again

A run that was stopped is taken up by running again.  A path is settled when there
are no call sites in the file that it leads to.  Every step of a run settles its
path and keeps the others settled (`Step.settled`, `Settled.step`), and a step at a
settled path does nothing (`Settled.quiet`).  So a second run goes over the files
that are done without a change, and then it continues where the first one stopped.

How far a run comes when no call is made to fail depends on the layout only: it
stops at the first path that cannot be looked up (`Stuck`).
-/

namespace DateDisplay

open Text

namespace Migration

/-! ### Settled paths -/

/-- There are no call sites in the file that a path leads to. -/
def Settled (m : Migration) (t : FileTree) (path : Text) : Prop :=
  ∀ l c, m.store.Names t path l c → m.substitution.scan c = []

theorem Step.settled {m : Migration} (hsafe : m.substitution.Safe) (hdry : m.dry = false)
    {t t' : FileTree} {path : Text} {r : FileResult} (h : Step m t path r t') :
    m.Settled t' path := by
  intro l c hn
  cases h with
  | missing hc => exact absurd hn (FileStore.not_names_of_contains hc l c)
  | unchanged hn' hs => rwa [FileStore.eq_of_names hn hn']
  | checked hd _ _ =>
    rw [hdry] at hd
    cases hd
  | @changed l' c' _ hn' hs =>
    rw [FileStore.eq_of_names hn (FileStore.names_setFile_self hn' _)]
    exact scan_migrated hsafe path c'

/-- **Settled paths stay settled.** -/
theorem Settled.step {m : Migration} (hsafe : m.substitution.Safe) {t t' : FileTree}
    {path path' : Text} {r : FileResult} (hset : m.Settled t path) (h : Step m t path' r t') :
    m.Settled t' path := by
  cases h with
  | missing _ => exact hset
  | unchanged _ _ => exact hset
  | checked _ _ _ => exact hset
  | @changed l' c' _ hn' hs =>
    intro l c hn
    have hp := hn.1
    rw [FileStore.place?_setFile hn'] at hp
    have hc := hn.2
    rw [FileTree.get?_setFile hn'.2] at hc
    split at hc
    · rw [Option.some.injEq, Entry.file.injEq] at hc
      rw [← hc]
      exact scan_migrated hsafe path' c'
    · exact hset l c ⟨hp, hc⟩

/-- The result tells of a file that nothing was done with. -/
def Idle (r : FileResult) : Prop :=
  r = untouched r.path .unchanged ∨ r = untouched r.path .missing

theorem Idle.status {r : FileResult} (h : Idle r) :
    r.status = .unchanged ∨ r.status = .missing := by
  rcases h with h | h
  · exact Or.inl (by rw [h]; rfl)
  · exact Or.inr (by rw [h]; rfl)

theorem Idle.replacements {r : FileResult} (h : Idle r) : r.replacements = 0 := by
  rcases h with h | h
  · rw [h]; rfl
  · rw [h]; rfl

theorem total_of_idle {rs : List FileResult} (h : ∀ r ∈ rs, Idle r) :
    (RunSummary.total rs).modified = 0 ∧ (RunSummary.total rs).replacements = 0 := by
  constructor
  · refine List.countP_eq_zero.mpr fun r hr => ?_
    rcases (h r hr).status with hs | hs
    · simp [hs, FileStatus.hasSites]
    · simp [hs, FileStatus.hasSites]
  · have hsum : RunSummary.sumOver (·.replacements) rs = 0 := by
      induction rs with
      | nil => rfl
      | cons r rs ih =>
        rw [RunSummary.sumOver, (h r List.mem_cons_self).replacements,
          ih fun q hq => h q (List.mem_cons_of_mem _ hq)]
    rw [RunSummary.total, hsum]
    rfl

/-- **A step at a settled path does nothing.** -/
theorem Settled.quiet {m : Migration} {t t' : FileTree} {path : Text} {r : FileResult}
    (hset : m.Settled t path) (h : Step m t path r t') : t' = t ∧ Idle r := by
  cases h with
  | missing _ => exact ⟨rfl, Or.inr rfl⟩
  | unchanged _ _ => exact ⟨rfl, Or.inl rfl⟩
  | checked _ hn hs => exact absurd (hset _ _ hn) hs
  | changed _ hn hs => exact absurd (hset _ _ hn) hs

namespace Steps

variable {m : Migration} {t t' : FileTree} {paths : List Text} {rs : List FileResult}

theorem keeps_settled (hsafe : m.substitution.Safe) (h : Steps m t paths rs t') {path : Text}
    (hset : m.Settled t path) : m.Settled t' path := by
  induction h with
  | nil t => exact hset
  | cons hr _ ih => exact ih (hset.step hsafe (step_of_process hr))

/-- **Behind a run the paths that it got through are settled.** -/
theorem settled (hsafe : m.substitution.Safe) (hdry : m.dry = false) (h : Steps m t paths rs t') :
    ∀ path ∈ paths, m.Settled t' path := by
  induction h with
  | nil t => intro path hp; cases hp
  | cons hr h ih =>
    intro path hp
    rcases List.mem_cons.mp hp with rfl | hp
    · exact h.keeps_settled hsafe ((step_of_process hr).settled hsafe hdry)
    · exact ih path hp

/-- **A run over settled paths does nothing.** -/
theorem quiet (h : Steps m t paths rs t') (hset : ∀ path ∈ paths, m.Settled t path) :
    t' = t ∧ ∀ r ∈ rs, Idle r := by
  induction h with
  | nil t => exact ⟨rfl, fun r hr => by cases hr⟩
  | @cons t t' path paths r rs hr h ih =>
    obtain ⟨ht, hidle⟩ := (hset path List.mem_cons_self).quiet (step_of_process hr)
    obtain ⟨ht', hrest⟩ := ih fun q hq => by
      rw [ht]
      exact hset q (List.mem_cons_of_mem _ hq)
    refine ⟨ht'.trans ht, fun r' hr' => ?_⟩
    rcases List.mem_cons.mp hr' with rfl | hr'
    · exact hidle
    · exact hrest r' hr'

end Steps

/-! ### How far a run comes -/

theorem Step.contains {m : Migration} {t t' : FileTree} {path : Text} {r : FileResult}
    (h : Step m t path r t') : ∃ b, m.store.undisturbed.contains t path = .ok b := by
  cases h with
  | missing hc => exact ⟨false, hc⟩
  | unchanged hn _ => exact ⟨true, FileStore.contains_undisturbed_of_names hn⟩
  | checked _ hn _ => exact ⟨true, FileStore.contains_undisturbed_of_names hn⟩
  | changed _ hn _ => exact ⟨true, FileStore.contains_undisturbed_of_names hn⟩

theorem Steps.contains {m : Migration} {t t' : FileTree} {paths : List Text}
    {rs : List FileResult} (h : Steps m t paths rs t') :
    ∀ path ∈ paths, ∃ b, m.store.undisturbed.contains t path = .ok b := by
  induction h with
  | nil t => intro path hp; cases hp
  | @cons t t' path paths r rs hr _ ih =>
    intro q hq
    rcases List.mem_cons.mp hq with rfl | hq
    · exact (step_of_process hr).contains
    · rw [← FileStore.contains_congr (m.layout_process t path)]
      exact ih q hq

/-- The first of the paths, if there is one, cannot be looked up. -/
def Stuck (m : Migration) (t : FileTree) (paths : List Text) : Prop :=
  ∀ path ∈ paths.head?, ∀ b, m.store.undisturbed.contains t path ≠ .ok b

theorem Steps.prefix_of_stuck {m : Migration} {t t' : FileTree} {done rest done' rest' : List Text}
    {rs : List FileResult} (h : Steps m t done rs t') (hs : m.Stuck t rest')
    (he : done ++ rest = done' ++ rest') : ∃ more, done' = done ++ more := by
  rcases List.append_eq_append_iff.mp he with ⟨more, hd, -⟩ | ⟨more, hd, hr⟩
  · exact ⟨more, hd⟩
  · cases more with
    | nil => exact ⟨[], by rw [hd, List.append_nil, List.append_nil]⟩
    | cons path more =>
      obtain ⟨b, hb⟩ := h.contains path (by rw [hd]; simp)
      exact absurd hb (hs path (by rw [hr]; rfl) b)

theorem Ends.stuck {m : Migration} (hm : m.store.sabotage = {}) {k : Nat} {t : FileTree}
    {rest : List Text} {fault : Option RunFault} (h : Ends m none k t rest fault) :
    m.Stuck t rest := by
  intro path hp b hb
  cases h with
  | finished => cases hp
  | cancelled hs => cases hs
  | failed _ hf =>
    obtain rfl := Option.some.inj hp
    obtain ⟨g, hc, -⟩ := contains_error_of_process hm hf
    rw [FileStore.undisturbed_eq hm, hc] at hb
    cases hb

/-! ### Taking up a run -/

/-- What a run got through, another run for the same plan gets through too if no
call is made to fail. -/
theorem Steps.undisturbed {m m' : Migration} {p : Plan} {root : Text} (h : m.IsFor p root)
    (h' : m'.IsFor p root) (hd : m.dry = m'.dry) (hm' : m'.store.sabotage = {}) {t t' : FileTree}
    {paths : List Text} {rs : List FileResult} (hs : Steps m t paths rs t') :
    Steps m' t paths rs t' := by
  induction hs with
  | nil t => exact .nil t
  | cons hr _ ih =>
    obtain ⟨hr', ht⟩ := process_of_step hm' (h.step_congr h' hd (step_of_process hr))
    exact .cons hr' (by rwa [ht])

theorem Settled.again {m : Migration} (hm : m.store.sabotage = {}) {t : FileTree} {path : Text}
    (hset : m.Settled t path) {b : Bool} (hc : m.store.undisturbed.contains t path = .ok b) :
    ∃ r, (m.process t path).outcome = .ok r ∧ (m.process t path).tree = t := by
  have hstep : ∃ r, Step m t path r t := by
    cases b with
    | false => exact ⟨_, .missing hc⟩
    | true =>
      obtain ⟨l, c, hn⟩ := FileStore.names_of_contains hc
      exact ⟨_, .unchanged hn (hset l c hn)⟩
  obtain ⟨r, hs⟩ := hstep
  exact ⟨r, process_of_step hm hs⟩

theorem steps_again {m : Migration} (hm : m.store.sabotage = {}) {t : FileTree} :
    ∀ {paths : List Text}, (∀ path ∈ paths, m.Settled t path) →
      (∀ path ∈ paths, ∃ b, m.store.undisturbed.contains t path = .ok b) →
      ∃ rs, Steps m t paths rs t := by
  intro paths
  induction paths with
  | nil => intro _ _; exact ⟨[], .nil t⟩
  | cons path paths ih =>
    intro hset hc
    obtain ⟨b, hb⟩ := hc path List.mem_cons_self
    obtain ⟨r, hr, ht⟩ := (hset path List.mem_cons_self).again hm hb
    obtain ⟨rs, hrs⟩ := ih (fun q hq => hset q (List.mem_cons_of_mem _ hq))
      (fun q hq => hc q (List.mem_cons_of_mem _ hq))
    exact ⟨r :: rs, .cons hr (by rwa [ht])⟩

/-- **A run that is taken up ends like one that was never stopped.** -/
theorem Course.resume {m : Migration} (hsafe : m.substitution.Safe) (hdry : m.dry = false)
    (hm : m.store.sabotage = {}) {t t₁ t₂ : FileTree} {done rest done₁ rest₁ : List Text}
    {rs rs₁ : List FileResult} {fault : Option RunFault}
    (h : Course m none 0 t done rest rs t₂ fault) (h₁ : Steps m t done₁ rs₁ t₁)
    (he : done₁ ++ rest₁ = done ++ rest) : ∃ rs', Course m none 0 t₁ done rest rs' t₂ fault := by
  have hstuck : m.Stuck t rest := by
    intro path hp b
    rw [← FileStore.contains_congr h.steps.layout_eq]
    exact h.ends.stuck hm path hp b
  obtain ⟨more, rfl⟩ := h₁.prefix_of_stuck hstuck he
  obtain ⟨_, rs₂, _, -, h₁', h₂⟩ := h.steps.split
  obtain ⟨-, rfl⟩ := h₁.unique h₁'
  obtain ⟨rs', h'⟩ := steps_again hm (h₁.settled hsafe hdry) fun path hp => by
    rw [FileStore.contains_congr h₁.layout_eq]
    exact h₁.contains path hp
  exact ⟨rs' ++ rs₂, unstopped_none _ _, h'.append h₂, h.ends⟩

/-! ### Further runs -/

theorem IsFor.settled_congr {m m' : Migration} {p : Plan} {root : Text} (h : m.IsFor p root)
    (h' : m'.IsFor p root) {t : FileTree} {path : Text} (hset : m.Settled t path) :
    m'.Settled t path := by
  intro l c hn
  rw [h'.substitution_eq h]
  exact hset l c (h'.names_congr h hn)

theorem IsFor.stuck_congr {m m' : Migration} {p : Plan} {root : Text} (h : m.IsFor p root)
    (h' : m'.IsFor p root) {t : FileTree} {paths : List Text} (hs : m.Stuck t paths) :
    m'.Stuck t paths := by
  intro path hp b
  rw [h'.undisturbed_eq h]
  exact hs path hp b

/-- **A run finds nothing to do** where the files up to the first one that cannot be
looked up are settled. -/
theorem run_of_settled {m : Migration} {t : FileTree} {done rest : List Text}
    (he : (m.plan.expand t m.root).2 = .ok (done ++ rest))
    (hset : ∀ path ∈ done, m.Settled t path) (hstuck : m.Stuck t rest)
    (records : List FileRecord) (stop : Option Nat) :
    (m.run t records stop).tree = t ∧ ∃ rs, (m.run t records stop).summary = some (.total rs) ∧
      (∀ r ∈ rs, Idle r) ∧
      ((m.run t records stop).fault = none → rs.map (·.path) = done ++ rest) := by
  obtain ⟨done', rest', rs, hfiles, hc, -, hsum⟩ := run_course he records stop
  obtain ⟨more, rfl⟩ := hc.steps.prefix_of_stuck hstuck hfiles.symm
  obtain ⟨ht, hidle⟩ := hc.steps.quiet fun path hp => hset path (List.mem_append_left _ hp)
  refine ⟨ht, rs, hsum, hidle, fun hf => ?_⟩
  rw [hc.steps.map_path, hfiles, hc.ends.fault_eq_none_iff.mp hf, List.append_nil]

theorem tree_of_resumed_run {m₁ m : Migration} {p : Plan} {root : Text} (h₁ : m₁.IsFor p root)
    (h : m.IsFor p root) (hsafe : m.substitution.Safe) (hdry : m₁.dry = m.dry)
    (hwet : m.dry = false) (hm : m.store.sabotage = {}) (t : FileTree) (stop : Option Nat)
    (records₁ records₂ records : List FileRecord) :
    (m.run (m₁.run t records₁ stop).tree records₂ none).tree = (m.run t records none).tree := by
  cases he : (m.plan.expand t m.root).2 with
  | error f =>
    have he₁ : (m₁.plan.expand t m₁.root).2 = .error f := by rwa [h₁.expand_eq h]
    rw [(run_of_expand_error he₁ records₁ stop).1, (run_of_expand_error he records₂ none).1,
      (run_of_expand_error he records none).1]
  | ok files =>
    obtain ⟨done, rest, rs, rfl, hc, -, -⟩ := run_course he records none
    have he₁ : (m₁.plan.expand t m₁.root).2 = .ok (done ++ rest) := by rwa [h₁.expand_eq h]
    obtain ⟨done₁, rest₁, rs₁, hfiles, hc₁, -, -⟩ := run_course he₁ records₁ stop
    have hsteps₁ := hc₁.steps.undisturbed h₁ h hdry hm
    obtain ⟨rs₂, hc₂⟩ := hc.resume hsafe hwet hm hsteps₁ hfiles.symm
    have he₂ : (m.plan.expand (m₁.run t records₁ stop).tree m.root).2 = .ok (done ++ rest) := by
      rwa [Plan.expand_congr hsteps₁.layout_eq]
    exact (run_of_course he₂ records₂ hc₂).1

theorem run_again {m m' : Migration} {p : Plan} {root : Text} (h : m.IsFor p root)
    (h' : m'.IsFor p root) (hsafe : m.substitution.Safe) (hwet : m.dry = false)
    (hm : m.store.sabotage = {}) (t : FileTree) (records records' : List FileRecord)
    (stop : Option Nat) :
    (m'.run (m.run t records none).tree records' stop).tree = (m.run t records none).tree ∧
      ∀ files, (m.plan.expand t m.root).2 = .ok files → ∃ rs,
        (m'.run (m.run t records none).tree records' stop).summary = some (.total rs) ∧
        (∀ r ∈ rs, Idle r) ∧
        ((m'.run (m.run t records none).tree records' stop).fault = none →
          rs.map (·.path) = files) := by
  cases he : (m.plan.expand t m.root).2 with
  | error f =>
    have he' : (m'.plan.expand t m'.root).2 = .error f := by rwa [h'.expand_eq h]
    rw [(run_of_expand_error he records none).1]
    exact ⟨(run_of_expand_error he' records' stop).1, fun files hfiles => by cases hfiles⟩
  | ok files =>
    obtain ⟨done, rest, rs, rfl, hc, -, -⟩ := run_course he records none
    have he' : (m'.plan.expand (m.run t records none).tree m'.root).2 = .ok (done ++ rest) := by
      rwa [h'.expand_eq h, Plan.expand_congr hc.steps.layout_eq]
    have hset : ∀ path ∈ done, m'.Settled (m.run t records none).tree path :=
      fun path hp => h.settled_congr h' (hc.steps.settled hsafe hwet path hp)
    have hstuck := h.stuck_congr h' (hc.ends.stuck hm)
    obtain ⟨htree, hrest⟩ := run_of_settled he' hset hstuck records' stop
    refine ⟨htree, fun files hfiles => ?_⟩
    rw [← Except.ok.inj hfiles]
    exact hrest

/-- **A run that was stopped is made good by running again.**  However the first run
was stopped, the next one leaves the tree that a single run would have left, and
after that no run finds anything to do. -/
theorem resumed_run_completes {p : Plan} {root : Text} {console₁ console : Console}
    {sabotage : Sabotage} {scope₁ scope : Scope} {m₁ m : Migration}
    (hm₁ : new (some p) root false (some console₁) sabotage scope₁ = .ok m₁)
    (hm : new (some p) root false (some console) {} scope = .ok m)
    (hlocale : '('.toUInt8 ∉ p.locale)
    (hname : (p.helper.getD {}).name ∉ [lit "e", lit "te", lit "ate", lit "Date"])
    (t : FileTree) (stop : Option Nat) (records₁ records₂ records : List FileRecord) :
    ∃ t₂, (m.run (m₁.run t records₁ stop).tree records₂ none).tree = t₂ ∧
      (m.run t records none).tree = t₂ ∧
      ∀ (dry : Bool) (console' : Console) (sabotage' : Sabotage) (scope' : Scope) (m' : Migration),
        new (some p) root dry (some console') sabotage' scope' = .ok m' →
        ∀ (records' : List FileRecord) (stop' : Option Nat),
          (m'.run t₂ records' stop').tree = t₂ ∧
          ∀ files, (p.expand t m.root).2 = .ok files →
            ∃ summary, (m'.run t₂ records' stop').summary = some summary ∧
              summary.modified = 0 ∧ summary.replacements = 0 ∧
              (∀ r ∈ summary.files, r.status = .unchanged ∨ r.status = .missing) ∧
              ((m'.run t₂ records' stop').fault = none →
                summary.files.map (·.path) = files) := by
  obtain ⟨hfor₁, hdry₁, -⟩ := isFor_of_new hm₁
  obtain ⟨hfor, hdry, hsab⟩ := isFor_of_new hm
  have hsafe : m.substitution.Safe := hfor.safe hlocale hname
  refine ⟨(m.run t records none).tree, ?_, rfl, ?_⟩
  · exact tree_of_resumed_run hfor₁ hfor hsafe (hdry₁.trans hdry.symm) hdry hsab t stop records₁
      records₂ records
  · intro dry console' sabotage' scope' m' hm' records' stop'
    obtain ⟨hfor', -, -⟩ := isFor_of_new hm'
    obtain ⟨htree, hrest⟩ :=
      run_again hfor hfor' hsafe hdry hsab t records records' stop'
    refine ⟨htree, fun files hfiles => ?_⟩
    obtain ⟨rs, hsum, hidle, hall⟩ := hrest files (by rwa [hfor.plan])
    obtain ⟨hmod, hrep⟩ := total_of_idle hidle
    exact ⟨_, hsum, hmod, hrep, fun r hr => (hidle r hr).status, hall⟩

/-- A write that fails stops the first run at once, and the next run makes up for
it. -/
theorem resumed_run_completes_after_write :
    let files := [lit "./a", lit "b", lit "a"]
    let m₁ := sample files false { writes := fun _ => some (lit "disk full") }
    let m := sample files false {}
    let t₁ := (m₁.run .sample [] none).tree
    (m₁.run .sample [] none).fault ≠ none ∧ (m.run t₁ [] none).tree ≠ .sample ∧
      (m.run t₁ [] none).tree = (m.run .sample [] none).tree := by
  intro files m₁ m t₁
  have hm₁ : new (some (.sample files)) [] false (some {})
      { writes := fun _ => some (lit "disk full") } {} = .ok m₁ := rfl
  have hm : new (some (.sample files)) [] false (some {}) {} {} = .ok m := rfl
  obtain ⟨_, h, rfl, -⟩ :=
    resumed_run_completes hm₁ hm (by decide) (by decide) .sample none [] [] []
  refine ⟨by decide +kernel, ?_, h⟩
  intro heq
  have hentries : (m.run t₁ [] none).tree.entries ≠ FileTree.sample.entries := by decide +kernel
  exact hentries (congrArg FileTree.entries heq)

end Migration

end DateDisplay
