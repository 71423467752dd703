import DateDisplay.Proofs.Lookup
import DateDisplay.Proofs.Migration.Repetition

/-!
# Listed files that are not there

A listed path at which there is no file is told as missing, and the run goes on.  There is one
exception: where a file stands on the way, so that the path asks for something below a file, the
lookup fails with a fault of its own (`contains_cases`), and the run stops there.

So a run whose list can be expanded goes through it up to the first such path
(`IsFor.course_of_expand`).  A pattern describes only what is there, so such a path is one that the
plan names itself, and the run completes exactly if there is none (`run_stops_below_file`).
-/

namespace DateDisplay

open Text DateDisplay.Path

namespace FileStore

/-- The fault of a path that asks for something below a file. -/
def belowFile (s : FileStore) (path : Text) : StoreFault :=
  .checking ⟨"stat", s.pathOf path, .notFolder⟩

/-- **Whether there is a file can be told unless a file stands on the way.** -/
theorem contains_cases {s : FileStore} (hs : s.sabotage = {}) {t : FileTree} (ht : t.Sound)
    {path : Text} (hf : Fits (s.pathOf path)) :
    (t.Through (s.pathOf path) ∧ s.contains t path = .error (s.belowFile path)) ∨
      (¬t.Through (s.pathOf path) ∧ ∃ b, s.contains t path = .ok b) := by
  have hlookups : s.sabotage.lookups path = none := by rw [hs]
  by_cases h : t.Through (s.pathOf path)
  · have hlookup : t.lookup (s.pathOf path) = .error .notFolder :=
      FileTree.lookup_of_through ht hf h
    refine Or.inl ⟨h, ?_⟩
    simp only [contains, hlookups, FileTree.stat, hlookup]
    rfl
  · refine Or.inr ⟨h, ?_⟩
    have hlookup : (∃ e, t.lookup (s.pathOf path) = .ok e) ∨
        t.lookup (s.pathOf path) = .error .notFound := FileTree.lookup_of_not_through ht hf h
    rcases hlookup with ⟨e, he⟩ | he
    · cases e with
      | file c => exact ⟨true, by simp only [contains, hlookups, FileTree.stat, he]⟩
      | folder => exact ⟨false, by simp only [contains, hlookups, FileTree.stat, he]⟩
    · exact ⟨false, by simp only [contains, hlookups, FileTree.stat, he]; rfl⟩

/-- There is a file where the path leads. -/
def Holds (s : FileStore) (t : FileTree) (path : Text) : Prop := ∃ l c, s.Names t path l c

theorem holds_iff_contains {s : FileStore} {t : FileTree} {path : Text} :
    s.Holds t path ↔ s.undisturbed.contains t path = .ok true := by
  constructor
  · rintro ⟨l, c, hn⟩
    exact contains_undisturbed_of_names hn
  · intro h
    obtain ⟨l, c, hn⟩ := names_of_contains h
    exact ⟨l, c, hn⟩

instance (s : FileStore) (t : FileTree) (path : Text) : Decidable (s.Holds t path) :=
  decidable_of_iff _ holds_iff_contains.symm

theorem holds_congr {t t' : FileTree} (h : t.layout = t'.layout) (s : FileStore) (path : Text) :
    s.Holds t path ↔ s.Holds t' path := by
  rw [holds_iff_contains, holds_iff_contains, contains_congr h]

end FileStore

namespace Migration

variable {m : Migration} {t t' : FileTree}

/-! ### One file after the other -/

theorem Step.status_eq_missing_iff {path : Text} {r : FileResult} (h : Step m t path r t') :
    r.status = .missing ↔ ¬m.store.Holds t path := by
  cases h with
  | missing hc =>
    rw [FileStore.holds_iff_contains, hc]
    simp [untouched]
  | unchanged hn _ => exact iff_of_false (by simp [untouched]) (not_not_intro ⟨_, _, hn⟩)
  | checked hd hn _ => exact iff_of_false (by simp [resultOf, hd]) (not_not_intro ⟨_, _, hn⟩)
  | changed hd hn _ => exact iff_of_false (by simp [resultOf, hd]) (not_not_intro ⟨_, _, hn⟩)

/-- **A file is told as missing exactly if there is none.** -/
theorem Steps.status_eq_missing_iff {paths : List Text} {rs : List FileResult}
    (h : Steps m t paths rs t') :
    ∀ r ∈ rs, r.status = .missing ↔ ¬m.store.Holds t r.path := by
  induction h with
  | nil t => simp
  | @cons t t' path paths r₀ rs hr₀ _ ih =>
    intro r hr
    rcases List.mem_cons.mp hr with rfl | hr
    · have hstep := step_of_process hr₀
      rw [hstep.path_eq]
      exact hstep.status_eq_missing_iff
    · rw [ih r hr, FileStore.holds_congr (m.layout_process t path)]

theorem Steps.contains_eq_ok {paths : List Text} {rs : List FileResult}
    (h : Steps m t paths rs t') : ∀ x ∈ paths, ∃ b, m.store.contains t x = .ok b := by
  induction h with
  | nil t => simp
  | @cons t t' path paths r rs hr _ ih =>
    intro x hx
    rcases List.mem_cons.mp hx with rfl | hx
    · cases hc : m.store.contains t x with
      | ok b => exact ⟨b, rfl⟩
      | error g =>
        rw [outcome_of_contains_error hc] at hr
        cases hr
    · rw [← FileStore.contains_congr (m.layout_process t path)]
      exact ih x hx

/-- **A run ends before a path that asks for something below a file, or at the end of its list.** -/
theorem Ends.head_of_contains {k : Nat} (hm : m.store.sabotage = {}) {rest : List Text}
    {fault : Option RunFault} (h : Ends m none k t' rest fault) (hlayout : t'.layout = t.layout)
    (ht : t.Sound) (hfits : ∀ x ∈ rest, Fits (m.store.pathOf x)) :
    (∀ x ∈ rest.head?, t.Through (m.store.pathOf x)) ∧
      fault = rest.head?.map fun x => .processing x (.checking x (m.store.belowFile x)) := by
  cases h with
  | finished => simp
  | cancelled hs => cases hs
  | @failed path rest f _ hf =>
    obtain ⟨g, hg, rfl⟩ := contains_error_of_process hm hf
    rw [FileStore.contains_congr hlayout] at hg
    rcases FileStore.contains_cases hm ht (hfits path (by simp)) with ⟨hthrough, he⟩ | ⟨-, b, hb⟩
    · obtain rfl : g = m.store.belowFile path := Except.error.inj (hg.symm.trans he)
      simpa using hthrough
    · rw [hg] at hb
      cases hb

/-! ### Whole runs -/

/-- Only the paths that the plan names itself can ask for something below a file. -/
theorem IsFor.listed {p : Plan} {root : Text} (h : m.IsFor p root) (ht : t.Sound)
    {files : List Text} (hfiles : (p.expand t m.root).2 = .ok files) {x : Text} (hx : x ∈ files)
    (hfit : Fits (m.store.pathOf x)) (hthrough : t.Through (m.store.pathOf x)) :
    x ∈ p.entries ∧ Glob.isPattern x = false := by
  obtain ⟨e, he, hyields⟩ := (Plan.mem_iff_yields hfiles).mp hx
  cases hpattern : Glob.isPattern e with
  | false =>
    have hself : x = e := by simpa [Plan.yields, hpattern] using hyields
    rw [hself]
    exact ⟨he, hpattern⟩
  | true =>
    have hbase : m.store.base = clean m.root := by rw [h.base, h.folder]
    obtain ⟨l, c, hn⟩ :=
      FileStore.names_of_shows ht hbase hfit (Plan.shows_of_yields ht.names hpattern hyields)
    have hlookup := FileStore.lookup_of_names hn
    have hfault : t.lookup (m.store.pathOf x) = .error .notFolder :=
      FileTree.lookup_of_through ht hfit hthrough
    rw [hfault] at hlookup
    cases hlookup

/-- **A run goes through its list up to the first path that asks for something below a file.**
Every file before is processed, and it is told as missing exactly if it is not there. -/
theorem IsFor.course_of_expand {p : Plan} {root : Text} (h : m.IsFor p root)
    (hs : m.store.sabotage = {}) (ht : t.Sound) {files : List Text}
    (hfiles : (p.expand t m.root).2 = .ok files) (hfits : ∀ x ∈ files, Fits (m.store.pathOf x))
    (records : List FileRecord) :
    ∃ done rest rs, files = done ++ rest ∧
      Course m none 0 t done rest rs (m.run t records none).tree (m.run t records none).fault ∧
      (m.run t records none).records = rs.map FileResult.record ∧
      (m.run t records none).summary = some (.total rs) ∧
      (∀ x ∈ done, ¬t.Through (m.store.pathOf x)) ∧
      (∀ x ∈ rest.head?, t.Through (m.store.pathOf x) ∧ x ∈ p.entries ∧
        Glob.isPattern x = false) ∧
      (m.run t records none).fault
        = rest.head?.map (fun x => .processing x (.checking x (m.store.belowFile x))) := by
  have hlisted := fun x hx => h.listed ht hfiles hx (hfits x hx)
  rw [← h.plan] at hfiles
  obtain ⟨done, rest, rs, rfl, hcourse, hrecords, hsum⟩ := run_course hfiles records none
  obtain ⟨hhead, hfault⟩ := hcourse.ends.head_of_contains hs hcourse.steps.layout_eq ht
    fun x hx => hfits x (List.mem_append_right _ hx)
  refine ⟨done, rest, rs, rfl, hcourse, hrecords, hsum, fun x hx hthrough => ?_,
    fun x hx => ⟨hhead x hx, ?_⟩, hfault⟩
  · obtain ⟨b, hb⟩ := hcourse.steps.contains_eq_ok x hx
    rcases FileStore.contains_cases hs ht (hfits x (List.mem_append_left _ hx)) with
      ⟨-, he⟩ | ⟨hnot, -⟩
    · rw [hb] at he
      cases he
    · exact hnot hthrough
  · have hmem : x ∈ rest := List.mem_of_head? hx
    exact hlisted x (List.mem_append_right _ hmem) (hhead x hx)

/-- **A run completes exactly if all its patterns can be searched for and its plan names no path
below a file**, as long as no listed path is too long or has a NUL byte in it.  Once the list is
expanded it stops only at the first such path.  Up to there every file is processed, and those
that are not there are told as missing. -/
theorem run_stops_below_file {p : Plan} {root : Text} {dry : Bool} {console : Console}
    {scope : Scope} {m : Migration} (hm : new (some p) root dry (some console) {} scope = .ok m)
    {t : FileTree} (ht : t.Sound)
    (hvalid : ∀ e ∈ p.entries, Glob.isPattern e = true → Glob.isValid e = true)
    (hfits : ∀ files, (p.expand t m.root).2 = .ok files → ∀ x ∈ files, Fits (m.store.pathOf x))
    (records : List FileRecord) :
    ((m.run t records none).fault = none ↔
      (∀ e ∈ p.entries, Glob.isPattern e = true → ∃ found, Glob.find t m.root e = .ok found) ∧
      ∀ e ∈ p.entries, Glob.isPattern e = false → ¬t.Through (m.store.pathOf e)) ∧
    ∀ files, (p.expand t m.root).2 = .ok files → ∃ done rest rs, files = done ++ rest ∧
      (∀ x ∈ done, ¬t.Through (m.store.pathOf x)) ∧
      (∀ x ∈ rest.head?, t.Through (m.store.pathOf x) ∧ x ∈ p.entries ∧
        Glob.isPattern x = false) ∧
      (m.run t records none).fault
        = rest.head?.map (fun x => .processing x (.checking x (m.store.belowFile x))) ∧
      Steps m t done rs (m.run t records none).tree ∧
      (∀ r ∈ rs, r.status = .missing ↔ ¬m.store.Holds t r.path) ∧
      (m.run t records none).summary = some (.total rs) ∧
      (m.run t records none).records = rs.map FileResult.record := by
  obtain ⟨hfor, -, hsab⟩ := isFor_of_new hm
  refine ⟨?_, fun files hfiles => ?_⟩
  · rw [← Plan.exists_expand_iff hvalid]
    cases hfiles : (p.expand t m.root).2 with
    | error f =>
      rw [← hfor.plan] at hfiles
      obtain ⟨-, -, -, hfault⟩ := run_of_expand_error hfiles records none
      simp [hfault]
    | ok files =>
      obtain ⟨done, rest, rs, rfl, hcourse, -, -, hdone, hhead, -⟩ :=
        hfor.course_of_expand hsab ht hfiles (hfits _ hfiles) records
      rw [hcourse.ends.fault_eq_none_iff]
      constructor
      · rintro rfl
        refine ⟨⟨_, rfl⟩, fun e he hpattern => hdone e ?_⟩
        rw [← List.append_nil done, Plan.mem_iff_yields hfiles]
        exact ⟨e, he, by simp [Plan.yields, hpattern]⟩
      · rintro ⟨-, hnone⟩
        cases rest with
        | nil => rfl
        | cons x rest =>
          obtain ⟨hthrough, hx, hpattern⟩ := hhead x (by simp)
          exact absurd hthrough (hnone x hx hpattern)
  · obtain ⟨done, rest, rs, rfl, hcourse, hrecords, hsum, hdone, hhead, hfault⟩ :=
      hfor.course_of_expand hsab ht hfiles (hfits files hfiles) records
    exact ⟨done, rest, rs, rfl, hdone, hhead, hfault, hcourse.steps,
      hcourse.steps.status_eq_missing_iff, hsum, hrecords⟩

/-- Nothing is at the first path, nothing is on the way to the second, and the third is a folder. -/
theorem run_stops_below_file_nowhere :
    let t : FileTree := { entries := [([lit "a"], .file (lit "no dates")), ([lit "d"], .folder),
      ([lit "d", lit "b"], .file (lit "new Date(d).toLocaleDateString('pt-BR')"))] }
    let m := sample [lit "gone", lit "no/where", lit "d", lit "?", lit "d/b"] false {}
    let files := [lit "gone", lit "no/where", lit "d", lit "a", lit "d/b"]
    (m.plan.expand t m.root).2 = .ok files ∧ (m.run t [] none).fault = none ∧
      ∃ rs, (m.run t [] none).summary = some (.total rs) ∧ rs.map (·.path) = files ∧
        ∀ r ∈ rs, r.status = .missing ↔ r.path ∈ [lit "gone", lit "no/where", lit "d"] := by
  intro t m files
  have hm : new (some m.plan) [] false (some {}) {} {} = .ok m := rfl
  have hmatches : Glob.find t m.root (lit "?") = .ok [lit "a"] := by
    have hsearch : (Glob.Ground.below t m.root).search false 12 true (lit "?")
        = .ok [lit "a"] := by decide +kernel
    exact (congrArg (Except.map sorted) hsearch).trans
      (congrArg Except.ok (sorted_eq (by decide) (by decide)))
  have hfiles : (m.plan.expand t m.root).2 = .ok files := by
    refine Plan.expand_eq_ok_iff.mpr ⟨[[lit "gone"], [lit "no/where"], [lit "d"], [lit "a"],
      [lit "d/b"]], .cons rfl (.cons rfl (.cons rfl (.cons ?_ (.cons rfl .nil)))), by decide +kernel⟩
    rw [Plan.entryPaths, hmatches]
    rfl
  have hfind : ∀ e ∈ m.plan.entries, Glob.isPattern e = true →
      ∃ found, Glob.find t m.root e = .ok found := by
    intro e he hpattern
    have hone : ∀ e ∈ m.plan.entries, Glob.isPattern e = true → e = lit "?" := by decide
    rw [hone e he hpattern]
    exact ⟨_, hmatches⟩
  have ht : t.Sound := by decide +kernel
  have hfits : ∀ files', (m.plan.expand t m.root).2 = .ok files' →
      ∀ x ∈ files', Fits (m.store.pathOf x) := by
    intro files' he
    obtain rfl : files = files' := Except.ok.inj (hfiles.symm.trans he)
    decide +kernel
  obtain ⟨hnone, hlist⟩ := run_stops_below_file hm ht (by decide) hfits []
  have hrun : (m.run t [] none).fault = none := hnone.mpr ⟨hfind, by decide +kernel⟩
  obtain ⟨done, rest, rs, hcut, -, -, hfault, hsteps, hstatus, hsum, -⟩ := hlist files hfiles
  rw [hrun, eq_comm, Option.map_eq_none_iff, List.head?_eq_none_iff] at hfault
  have hdone : done = files := by rw [hcut, hfault, List.append_nil]
  have hpaths : rs.map (·.path) = files := hsteps.map_path.trans hdone
  have hholds : ∀ x ∈ files, ¬m.store.Holds t x ↔ x ∈ [lit "gone", lit "no/where", lit "d"] := by
    decide +kernel
  refine ⟨hfiles, hrun, rs, hsum, hpaths, fun r hr => ?_⟩
  rw [hstatus r hr]
  exact hholds r.path (hpaths ▸ List.mem_map_of_mem hr)

/-- **A path below a file stops the run**: there is no file at the first path, and the second is
not processed. -/
theorem run_stops_at_first_path :
    let m := sample [lit "b/x", lit "a"] false {}
    let t := FileTree.sample
    new (some m.plan) [] false (some {}) {} {} = .ok m ∧ t.Sound ∧
      (∀ e ∈ m.plan.entries, Glob.isPattern e = false ∧ Fits (m.store.pathOf e)) ∧
      ¬m.store.Holds t (lit "b/x") ∧ m.store.Holds t (lit "a") ∧
      (m.run t [] none).fault = some (.processing (lit "b/x") (.checking (lit "b/x")
        (.checking ⟨"stat", lit "b/x", .notFolder⟩))) ∧
      (m.run t [] none).summary.map (·.files) = some [] :=
  ⟨rfl, by decide +kernel⟩

end Migration

end DateDisplay
