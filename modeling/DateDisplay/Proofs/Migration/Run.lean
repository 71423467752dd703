import DateDisplay.Migration.Run
import DateDisplay.Proofs.Migration.Process

/-!
# The course of a run

A run gets through the first files of its list, each on the tree that the one
before left, and then it ends: at the end of the list, by a cancellation, or at a
file that cannot be processed.  `Steps` is the first part and `Ends` the second.
`runFrom_course` says that every run is of this form, and `runFrom_of_course` that
the two parts determine the tree, the summary and the fault of a run.

What a run sums up is the sum over the results that it lists
(`Steps.foldl_add`).
-/

namespace DateDisplay

open Text

namespace Migration

/-! ### Files one after the other -/

/-- The files at the paths are processed in order, each on the tree that the one
before left, and each gives a result. -/
inductive Steps (m : Migration) : FileTree → List Text → List FileResult → FileTree → Prop
  | nil (t : FileTree) : Steps m t [] [] t
  | cons {t t' : FileTree} {path : Text} {paths : List Text} {r : FileResult}
      {rs : List FileResult} : (m.process t path).outcome = .ok r →
      Steps m (m.process t path).tree paths rs t' → Steps m t (path :: paths) (r :: rs) t'

namespace Steps

variable {m : Migration} {t t' t'' : FileTree} {paths more : List Text} {rs rs' : List FileResult}

theorem append (h : Steps m t paths rs t') (h' : Steps m t' more rs' t'') :
    Steps m t (paths ++ more) (rs ++ rs') t'' := by
  induction h with
  | nil t => exact h'
  | cons hr _ ih => exact .cons hr (ih h')

theorem split : ∀ {paths : List Text} {t : FileTree} {rs : List FileResult},
    Steps m t (paths ++ more) rs t'' → ∃ rs₁ rs₂ t', rs = rs₁ ++ rs₂ ∧
      Steps m t paths rs₁ t' ∧ Steps m t' more rs₂ t'' := by
  intro paths
  induction paths with
  | nil => intro t rs h; exact ⟨[], rs, t, rfl, .nil t, h⟩
  | cons path paths ih =>
    intro t rs h
    cases h with
    | cons hr h =>
      obtain ⟨rs₁, rs₂, t', rfl, h₁, h₂⟩ := ih h
      exact ⟨_ :: rs₁, rs₂, t', rfl, .cons hr h₁, h₂⟩

theorem unique (h : Steps m t paths rs t') (h' : Steps m t paths rs' t'') :
    rs = rs' ∧ t' = t'' := by
  induction h generalizing rs' with
  | nil t =>
    cases h'
    exact ⟨rfl, rfl⟩
  | cons hr _ ih =>
    cases h' with
    | cons hr' h' =>
      rw [hr] at hr'
      cases hr'
      obtain ⟨hrs, ht⟩ := ih h'
      exact ⟨congrArg _ hrs, ht⟩

theorem layout_eq (h : Steps m t paths rs t') : t'.layout = t.layout := by
  induction h with
  | nil t => rfl
  | cons _ _ ih => rw [ih, layout_process]

theorem map_path (h : Steps m t paths rs t') : rs.map (·.path) = paths := by
  induction h with
  | nil t => rfl
  | cons hr _ ih => rw [List.map_cons, ih, (step_of_process hr).path_eq]

theorem length_eq (h : Steps m t paths rs t') : rs.length = paths.length := by
  rw [← h.map_path, List.length_map]

end Steps

/-! ### The end of a run -/

/-- How a run ends before file number `k`, on the tree `t`, with the files `rest`
still to come. -/
inductive Ends (m : Migration) (stop : Option Nat) (k : Nat) (t : FileTree) :
    List Text → Option RunFault → Prop
  | finished : Ends m stop k t [] none
  | cancelled {path : Text} {rest : List Text} : isStopped stop k = true →
      Ends m stop k t (path :: rest) (some .cancelled)
  | failed {path : Text} {rest : List Text} {f : ProcessFault} : isStopped stop k = false →
      (m.process t path).outcome = .error f →
      Ends m stop k t (path :: rest) (some (.processing path f))

theorem Ends.fault_eq_none_iff {m : Migration} {stop : Option Nat} {k : Nat} {t : FileTree}
    {rest : List Text} {fault : Option RunFault} (h : Ends m stop k t rest fault) :
    fault = none ↔ rest = [] := by
  cases h with
  | finished => simp
  | cancelled _ => simp
  | failed _ _ => simp

/-- When no call is made to fail, the end of a run depends on the layout only. -/
theorem Ends.congr {m m' : Migration} (hm : m.store.sabotage = {}) (hstore : m.store = m'.store)
    {k : Nat} {t t' : FileTree} (hlay : t.layout = t'.layout) {rest : List Text}
    {fault : Option RunFault} (h : Ends m none k t rest fault) : Ends m' none k t' rest fault := by
  cases h with
  | finished => exact .finished
  | cancelled hs => cases hs
  | failed hs hf =>
    obtain ⟨g, hc, rfl⟩ := contains_error_of_process hm hf
    rw [hstore, FileStore.contains_congr hlay] at hc
    exact .failed rfl (outcome_of_contains_error hc)

/-- The run is not cancelled before any of `n` files from number `k` on. -/
def Unstopped (stop : Option Nat) (k n : Nat) : Prop := ∀ j < n, isStopped stop (k + j) = false

theorem unstopped_zero (stop : Option Nat) (k : Nat) : Unstopped stop k 0 :=
  fun _ hj => absurd hj (Nat.not_lt_zero _)

theorem unstopped_none (k n : Nat) : Unstopped none k n := fun _ _ => rfl

theorem unstopped_succ {stop : Option Nat} {k n : Nat} :
    Unstopped stop k (n + 1) ↔ isStopped stop k = false ∧ Unstopped stop (k + 1) n := by
  refine ⟨fun h => ⟨h 0 (by omega), fun j hj => ?_⟩, fun h j hj => ?_⟩
  · have hj := h (j + 1) (by omega)
    rwa [Nat.add_comm j, ← Nat.add_assoc] at hj
  · cases j with
    | zero => exact h.1
    | succ j =>
      rw [Nat.add_comm j, ← Nat.add_assoc]
      exact h.2 j (by omega)

/-- `done` are the files that a run from number `k` on gets through, with results
`rs` and the tree `t'` behind them, and it ends before `rest`. -/
structure Course (m : Migration) (stop : Option Nat) (k : Nat) (t : FileTree)
    (done rest : List Text) (rs : List FileResult) (t' : FileTree) (fault : Option RunFault) :
    Prop where
  unstopped : Unstopped stop k done.length
  steps : Steps m t done rs t'
  ends : Ends m stop (k + done.length) t' rest fault

/-- **Every run has a course.** -/
theorem runFrom_course (m : Migration) (stop : Option Nat) :
    ∀ (paths : List Text) (k : Nat) (s : Progress), ∃ done rest rs, paths = done ++ rest ∧
      Course m stop k s.tree done rest rs (m.runFrom stop k paths s).1.tree
        (m.runFrom stop k paths s).2 := by
  intro paths
  induction paths with
  | nil =>
    intro k s
    exact ⟨[], [], [], rfl, ⟨unstopped_zero stop k, .nil _, .finished⟩⟩
  | cons path paths ih =>
    intro k s
    cases hstop : isStopped stop k with
    | true =>
      refine ⟨[], path :: paths, [], rfl, ⟨unstopped_zero stop k, ?_, ?_⟩⟩
      · simp only [runFrom, hstop, if_true]
        exact .nil _
      · simp only [runFrom, hstop, if_true]
        exact .cancelled hstop
    | false =>
      cases ho : (m.process s.tree path).outcome with
      | error f =>
        refine ⟨[], path :: paths, [], rfl, ⟨unstopped_zero stop k, ?_, ?_⟩⟩
        · simp only [runFrom, hstop, Bool.false_eq_true, if_false, ho, Progress.after]
          rw [tree_of_error ho]
          exact .nil _
        · simp only [runFrom, hstop, Bool.false_eq_true, if_false, ho, Progress.after]
          exact .failed hstop (by rwa [tree_of_error ho])
      | ok r =>
        have hrun : m.runFrom stop k (path :: paths) s
            = m.runFrom stop (k + 1) paths (s.after (m.process s.tree path)) := by
          simp only [runFrom, hstop, Bool.false_eq_true, if_false, ho]
        have htree : (s.after (m.process s.tree path)).tree = (m.process s.tree path).tree := by
          simp only [Progress.after, ho]
        obtain ⟨done, rest, rs, rfl, hc⟩ := ih (k + 1) (s.after (m.process s.tree path))
        rw [← hrun, htree] at hc
        refine ⟨path :: done, rest, r :: rs, rfl, ⟨?_, .cons ho hc.steps, ?_⟩⟩
        · exact unstopped_succ.mpr ⟨hstop, hc.unstopped⟩
        · have he := hc.ends
          rwa [Nat.add_assoc, Nat.add_comm 1] at he

/-- **The course determines the run.** -/
theorem runFrom_of_course {m : Migration} {stop : Option Nat} {rest : List Text} {t' : FileTree}
    {fault : Option RunFault} : ∀ {done : List Text} {rs : List FileResult} {k : Nat}
    {s : Progress}, Course m stop k s.tree done rest rs t' fault →
      (m.runFrom stop k (done ++ rest) s).1.tree = t' ∧
        (m.runFrom stop k (done ++ rest) s).1.summary = rs.foldl RunSummary.add s.summary ∧
        (m.runFrom stop k (done ++ rest) s).1.records = s.records ++ rs.map FileResult.record ∧
        (m.runFrom stop k (done ++ rest) s).2 = fault := by
  intro done
  induction done with
  | nil =>
    intro rs k s h
    obtain ⟨-, hsteps, hends⟩ := h
    cases hsteps
    cases hends with
    | finished => simp [runFrom]
    | cancelled hstop => simp [runFrom, show isStopped stop k = true from hstop]
    | failed hstop ho =>
      simp [runFrom, show isStopped stop k = false from hstop, ho, Progress.after,
        tree_of_error ho, records_of_error ho]
  | cons path done ih =>
    intro rs k s h
    obtain ⟨hun, hsteps, hends⟩ := h
    obtain ⟨hstop, hun⟩ := unstopped_succ.mp hun
    cases hsteps with
    | @cons _ _ _ _ r rs ho hsteps =>
      have hrun : m.runFrom stop k (path :: done ++ rest) s
          = m.runFrom stop (k + 1) (done ++ rest) (s.after (m.process s.tree path)) := by
        simp only [List.cons_append, runFrom, hstop, Bool.false_eq_true, if_false, ho]
      have hafter : s.after (m.process s.tree path) = ⟨(m.process s.tree path).tree,
          s.told ++ (m.process s.tree path).told, s.records ++ [r.record], s.summary.add r⟩ := by
        simp only [Progress.after, ho, records_of_process ho]
      have hends : Ends m stop (k + 1 + done.length) t' rest fault := by
        rwa [List.length_cons, Nat.add_comm done.length, ← Nat.add_assoc] at hends
      have hih := ih (s := s.after (m.process s.tree path)) ⟨hun, by rwa [hafter], hends⟩
      rw [hrun]
      simpa [hafter] using hih

end Migration

/-! ### Sums -/

namespace RunSummary

/-- A number as a word of 64 bits with a sign. -/
def signedWord (n : Int) : Int := (n + Nat.pow 2 63) % Nat.pow 2 64 - Nat.pow 2 63

theorem addCounts_signedWord (a b : Int) :
    addCounts (signedWord a) b = signedWord (a + b) := by
  have hhalf : Nat.pow 2 63 = 9223372036854775808 := rfl
  have hall : Nat.pow 2 64 = 18446744073709551616 := rfl
  rw [addCounts, signedWord, signedWord, hhalf, hall, Int.bmod]
  omega

/-- The sum of a number over results. -/
def sumOver (count : FileResult → Nat) : List FileResult → Nat
  | [] => 0
  | r :: rs => count r + sumOver count rs

theorem sumOver_append (count : FileResult → Nat) (rs rs' : List FileResult) :
    sumOver count (rs ++ rs') = sumOver count rs + sumOver count rs' := by
  induction rs with
  | nil => rw [List.nil_append, sumOver, Nat.zero_add]
  | cons r rs ih => rw [List.cons_append, sumOver, sumOver, ih, Nat.add_assoc]

/-- The sums over a list of results. -/
def total (rs : List FileResult) : RunSummary where
  files := rs
  modified := rs.countP (·.status.hasSites)
  replacements := signedWord (sumOver (·.replacements) rs)
  bytesWritten := signedWord (sumOver (·.bytes) rs)

theorem total_append_singleton (rs : List FileResult) {r : FileResult}
    (h : r.status.hasSites = false → r.replacements = 0 ∧ r.bytes = 0) :
    total (rs ++ [r]) = (total rs).add r := by
  cases hs : r.status.hasSites with
  | true => simp [total, add, hs, addCounts_signedWord, sumOver_append, sumOver]
  | false => simp [total, add, hs, sumOver_append, sumOver, h hs]

end RunSummary

namespace Migration

theorem Step.counts {m : Migration} {t t' : FileTree} {path : Text} {r : FileResult}
    (h : Step m t path r t') : r.status.hasSites = false → r.replacements = 0 ∧ r.bytes = 0 := by
  intro hs
  cases h with
  | missing _ => exact ⟨rfl, rfl⟩
  | unchanged _ _ => exact ⟨rfl, rfl⟩
  | checked hd _ _ => simp [resultOf, hd, FileStatus.hasSites] at hs
  | changed hd _ _ => simp [resultOf, hd, FileStatus.hasSites] at hs

/-- **What is summed up file by file is the sum over the results.** -/
theorem Steps.foldl_add {m : Migration} {t t' : FileTree} {paths : List Text}
    {rs : List FileResult} (h : Steps m t paths rs t') :
    ∀ earlier : List FileResult,
      rs.foldl RunSummary.add (.total earlier) = .total (earlier ++ rs) := by
  induction h with
  | nil t => intro earlier; rw [List.append_nil, List.foldl_nil]
  | cons hr _ ih =>
    intro earlier
    rw [List.foldl_cons,
      ← RunSummary.total_append_singleton earlier (step_of_process hr).counts, ih,
      List.append_assoc, List.singleton_append]

/-! ### Whole runs -/

theorem run_of_expand_error {m : Migration} {t : FileTree} {f : ExpansionFault}
    (h : (m.plan.expand t m.root).2 = .error f) (records : List FileRecord) (stop : Option Nat) :
    (m.run t records stop).tree = t ∧ (m.run t records stop).records = records ∧
      (m.run t records stop).summary = none ∧
      (m.run t records stop).fault = some (.expansion f) := by
  simp only [run, h, and_self]

theorem run_of_expand {m : Migration} {t : FileTree} {files : List Text}
    (h : (m.plan.expand t m.root).2 = .ok files) (records : List FileRecord) (stop : Option Nat) :
    ∃ s : Progress, s.tree = t ∧ s.records = [] ∧ s.summary = .total [] ∧
      (m.run t records stop).tree = (m.runFrom stop 0 files s).1.tree ∧
      (m.run t records stop).records = (m.runFrom stop 0 files s).1.records ∧
      (m.run t records stop).summary = some (m.runFrom stop 0 files s).1.summary ∧
      (m.run t records stop).fault = (m.runFrom stop 0 files s).2 := by
  refine ⟨{ tree := t, told := m.noted (m.plan.expand t m.root).1 ++ m.opening files }, rfl, rfl,
    rfl, ?_⟩
  simp only [run, h]
  split
  · rename_i hf
    exact ⟨rfl, rfl, rfl, hf.symm⟩
  · rename_i hf
    exact ⟨rfl, rfl, rfl, hf.symm⟩

theorem run_of_course {m : Migration} {t t' : FileTree} {done rest : List Text}
    (h : (m.plan.expand t m.root).2 = .ok (done ++ rest)) (records : List FileRecord)
    {stop : Option Nat} {rs : List FileResult} {fault : Option RunFault}
    (hc : Course m stop 0 t done rest rs t' fault) :
    (m.run t records stop).tree = t' ∧
      (m.run t records stop).records = rs.map FileResult.record ∧
      (m.run t records stop).summary = some (.total rs) ∧
      (m.run t records stop).fault = fault := by
  obtain ⟨s, rfl, hr, hs, h₁, h₂, h₃, h₄⟩ := run_of_expand h records stop
  obtain ⟨g₁, g₂, g₃, g₄⟩ := runFrom_of_course hc
  refine ⟨h₁.trans g₁, ?_, ?_, h₄.trans g₄⟩
  · rw [h₂, g₃, hr, List.nil_append]
  · rw [h₃, g₂, hs, hc.steps.foldl_add, List.nil_append]

/-- **Every run whose file list can be expanded has a course.** -/
theorem run_course {m : Migration} {t : FileTree} {files : List Text}
    (h : (m.plan.expand t m.root).2 = .ok files) (records : List FileRecord) (stop : Option Nat) :
    ∃ done rest rs, files = done ++ rest ∧
      Course m stop 0 t done rest rs (m.run t records stop).tree (m.run t records stop).fault ∧
      (m.run t records stop).records = rs.map FileResult.record ∧
      (m.run t records stop).summary = some (.total rs) := by
  obtain ⟨s, hs, -, -, htree, -, -, hfault⟩ := run_of_expand h records stop
  obtain ⟨done, rest, rs, rfl, hc⟩ := runFrom_course m stop files 0 s
  rw [hs, ← htree, ← hfault] at hc
  obtain ⟨-, hr, hsum, -⟩ := run_of_course h records hc
  exact ⟨done, rest, rs, rfl, hc, hr, hsum⟩

end Migration

end DateDisplay
