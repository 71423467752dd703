import DateDisplay.Migration
import DateDisplay.Proofs.FileStore

/-!
# What becomes of one file

`Step m t path r t'` lists all that processing the file at a path can do when it
gives a result: the file is missing, it has no call sites, it was looked at in a
dry run, or it was changed.  `step_of_process` says that there is nothing else,
`process_of_step` that each of them is what happens when no call is made to fail,
and `tree_of_error` that a fault leaves the tree as it was.  Every result is
recorded once (`records_of_process`), and a fault leaves no record.

Processing a file looks at that file only.  `process_frame` says so: on another
tree of the same layout, with the same entry where the path leads, the result is
the same and so is the change of the tree.  From it comes that two files can be
processed in either order (`process_comm`).
-/

namespace DateDisplay

open Text

namespace Migration

/-! ### One file, by what is there -/

/-- No file is where a path leads. -/
def Absent (m : Migration) (t : FileTree) (path : Text) : Prop :=
  ∀ l c, ¬m.store.Names t path l c

theorem process_of_absent {m : Migration} {t : FileTree} {path : Text} (h : m.Absent t path) :
    m.process t path = match m.store.contains t path with
      | .error f => ⟨t, {}, .error (.checking path f)⟩
      | .ok _ => m.leave t path .missing := by
  rw [process]
  cases hc : m.store.contains t path with
  | error f => rfl
  | ok b =>
    cases b with
    | false => rfl
    | true =>
      obtain ⟨l, c, hn⟩ := FileStore.names_of_contains hc
      exact absurd hn (h l c)

theorem process_of_names {m : Migration} {t : FileTree} {path : Text} {l : Location} {c : Text}
    (h : m.store.Names t path l c) : m.process t path = match m.store.contains t path with
      | .error f => ⟨t, {}, .error (.checking path f)⟩
      | .ok _ => match m.store.sabotage.reads path with
        | some msg => ⟨t, {}, .error (.reading path (.imposed msg))⟩
        | none => if (m.substitution.scan c).isEmpty then m.leave t path .unchanged
          else m.change t path c := by
  rw [process]
  cases hc : m.store.contains t path with
  | error f => rfl
  | ok b =>
    obtain rfl := FileStore.contains_of_names h hc
    dsimp only
    rw [FileStore.read_of_names h]
    cases m.store.sabotage.reads path with
    | none => rfl
    | some msg => rfl

/-- What is told of a file with call sites before it is written. -/
def found (m : Migration) (path content : Text) : Told :=
  m.siteEvents path (m.substitution.scan content)
    ++ m.noted [(m.injector.ensure content path).event]

theorem change_of_dry {m : Migration} (hd : m.dry = true) (t : FileTree) (path c : Text) :
    m.change t path c
      = ⟨t, m.found path c ++ m.reportOf (m.resultOf path c), .ok (m.resultOf path c)⟩ := by
  rw [change, if_pos hd]
  rfl

theorem change_of_names {m : Migration} (hd : m.dry = false) {t : FileTree} {path : Text}
    {l : Location} {c : Text} (h : m.store.Names t path l c) :
    m.change t path c = match m.store.sabotage.writes path with
      | some msg => ⟨t, m.found path c, .error (.writing path (.imposed msg))⟩
      | none => ⟨t.setFile l (m.migrated path c).content,
          m.found path c ++ m.noted [FileStore.writtenEvent path (m.migrated path c).content]
            ++ m.reportOf (m.resultOf path c), .ok (m.resultOf path c)⟩ := by
  rw [change, if_neg (by simp [hd])]
  dsimp only
  rw [FileStore.write_of_names h]
  cases m.store.sabotage.writes path with
  | none => rfl
  | some msg => rfl

/-! ### Records -/

theorem records_found (m : Migration) (path content : Text) :
    (m.found path content).records = [] := rfl

theorem records_noted (m : Migration) (events : List Event) : (m.noted events).records = [] := rfl

theorem records_reportOf (m : Migration) (r : FileResult) :
    (m.reportOf r).records = [r.record] := by
  rw [reportOf]
  split
  · rfl
  · rfl

/-! ### Steps -/

/-- The outcome for a file that nothing is done with. -/
def untouched (path : Text) (status : FileStatus) : FileResult := { path, status }

/-- All that processing the file at a path can do if it gives a result. -/
inductive Step (m : Migration) (t : FileTree) (path : Text) : FileResult → FileTree → Prop
  | missing : m.store.undisturbed.contains t path = .ok false →
      Step m t path (untouched path .missing) t
  | unchanged {l : Location} {c : Text} : m.store.Names t path l c → m.substitution.scan c = [] →
      Step m t path (untouched path .unchanged) t
  | checked {l : Location} {c : Text} : m.dry = true → m.store.Names t path l c →
      m.substitution.scan c ≠ [] → Step m t path (m.resultOf path c) t
  | changed {l : Location} {c : Text} : m.dry = false → m.store.Names t path l c →
      m.substitution.scan c ≠ [] →
      Step m t path (m.resultOf path c) (t.setFile l (m.migrated path c).content)

theorem step_of_names {m : Migration} {t : FileTree} {path : Text} {l : Location} {c : Text}
    (h : m.store.Names t path l c) : ∃ r t', Step m t path r t' := by
  by_cases hs : m.substitution.scan c = []
  · exact ⟨_, _, .unchanged h hs⟩
  · cases hd : m.dry with
    | true => exact ⟨_, _, .checked hd h hs⟩
    | false => exact ⟨_, _, .changed hd h hs⟩

theorem absent_or_names (m : Migration) (t : FileTree) (path : Text) :
    m.Absent t path ∨ ∃ l c, m.store.Names t path l c := by
  by_cases h : ∃ l c, m.store.Names t path l c
  · exact Or.inr h
  · exact Or.inl fun l c hn => h ⟨l, c, hn⟩

/-- **Every result comes from a step and is recorded**, and a fault leaves the tree
as it was and no record. -/
theorem process_cases (m : Migration) (t : FileTree) (path : Text) :
    (∃ f, (m.process t path).outcome = .error f ∧ (m.process t path).tree = t ∧
        (m.process t path).told.records = []) ∨
      ∃ r, (m.process t path).outcome = .ok r ∧ Step m t path r (m.process t path).tree ∧
        (m.process t path).told.records = [r.record] := by
  rcases m.absent_or_names t path with ha | ⟨l, c, hn⟩
  · rw [process_of_absent ha]
    cases hc : m.store.contains t path with
    | error f => exact Or.inl ⟨_, rfl, rfl, rfl⟩
    | ok b =>
      cases b with
      | true =>
        obtain ⟨l, c, hn⟩ := FileStore.names_of_contains hc
        exact absurd hn (ha l c)
      | false => exact Or.inr ⟨_, rfl, .missing (FileStore.contains_undisturbed hc), rfl⟩
  · rw [process_of_names hn]
    cases m.store.contains t path with
    | error f => exact Or.inl ⟨_, rfl, rfl, rfl⟩
    | ok b =>
      cases m.store.sabotage.reads path with
      | some msg => exact Or.inl ⟨_, rfl, rfl, rfl⟩
      | none =>
        dsimp only
        by_cases hs : m.substitution.scan c = []
        · rw [if_pos (by simp [hs])]
          exact Or.inr ⟨_, rfl, .unchanged hn hs, rfl⟩
        · rw [if_neg (by simp [hs])]
          cases hd : m.dry with
          | true =>
            rw [change_of_dry hd]
            refine Or.inr ⟨_, rfl, .checked hd hn hs, ?_⟩
            simp only [Told.records_append, records_found, records_reportOf, List.nil_append]
          | false =>
            rw [change_of_names hd hn]
            cases m.store.sabotage.writes path with
            | some msg => exact Or.inl ⟨_, rfl, rfl, rfl⟩
            | none =>
              refine Or.inr ⟨_, rfl, .changed hd hn hs, ?_⟩
              simp only [Told.records_append, records_found, records_noted, records_reportOf,
                List.nil_append]

theorem step_of_process {m : Migration} {t : FileTree} {path : Text} {r : FileResult}
    (h : (m.process t path).outcome = .ok r) : Step m t path r (m.process t path).tree := by
  rcases m.process_cases t path with ⟨f, hf, -⟩ | ⟨r', hr, hs, -⟩
  · rw [h] at hf
    cases hf
  · rw [h] at hr
    cases hr
    exact hs

theorem records_of_process {m : Migration} {t : FileTree} {path : Text} {r : FileResult}
    (h : (m.process t path).outcome = .ok r) : (m.process t path).told.records = [r.record] := by
  rcases m.process_cases t path with ⟨f, hf, -⟩ | ⟨r', hr, -, hrec⟩
  · rw [h] at hf
    cases hf
  · rw [h] at hr
    cases hr
    exact hrec

theorem tree_of_error {m : Migration} {t : FileTree} {path : Text} {f : ProcessFault}
    (h : (m.process t path).outcome = .error f) : (m.process t path).tree = t := by
  rcases m.process_cases t path with ⟨_, -, ht, -⟩ | ⟨r, hr, -⟩
  · exact ht
  · rw [h] at hr
    cases hr

theorem records_of_error {m : Migration} {t : FileTree} {path : Text} {f : ProcessFault}
    (h : (m.process t path).outcome = .error f) : (m.process t path).told.records = [] := by
  rcases m.process_cases t path with ⟨_, -, -, hrec⟩ | ⟨r, hr, -⟩
  · exact hrec
  · rw [h] at hr
    cases hr

/-- **Every step is taken** when no call is made to fail. -/
theorem process_of_step {m : Migration} (hm : m.store.sabotage = {}) {t t' : FileTree} {path : Text}
    {r : FileResult} (h : Step m t path r t') :
    (m.process t path).outcome = .ok r ∧ (m.process t path).tree = t' := by
  have hreads : m.store.sabotage.reads path = none := by rw [hm]
  have hwrites : m.store.sabotage.writes path = none := by rw [hm]
  have hcontains : ∀ {l c}, m.store.Names t path l c → m.store.contains t path = .ok true :=
    fun hn => FileStore.undisturbed_eq hm ▸ FileStore.contains_undisturbed_of_names hn
  cases h with
  | missing hc =>
    rw [FileStore.undisturbed_eq hm] at hc
    rw [process, hc]
    exact ⟨rfl, rfl⟩
  | unchanged hn hs =>
    rw [process_of_names hn, hcontains hn, hreads]
    dsimp only
    rw [if_pos (by simp [hs])]
    exact ⟨rfl, rfl⟩
  | checked hd hn hs =>
    rw [process_of_names hn, hcontains hn, hreads]
    dsimp only
    rw [if_neg (by simp [hs]), change_of_dry hd]
    exact ⟨rfl, rfl⟩
  | changed hd hn hs =>
    rw [process_of_names hn, hcontains hn, hreads]
    dsimp only
    rw [if_neg (by simp [hs]), change_of_names hd hn, hwrites]
    exact ⟨rfl, rfl⟩

theorem outcome_of_contains_error {m : Migration} {t : FileTree} {path : Text} {g : StoreFault}
    (h : m.store.contains t path = .error g) :
    (m.process t path).outcome = .error (.checking path g) := by
  rw [process, h]

theorem contains_error_of_process {m : Migration} (hm : m.store.sabotage = {}) {t : FileTree}
    {path : Text} {f : ProcessFault} (h : (m.process t path).outcome = .error f) :
    ∃ g, m.store.contains t path = .error g ∧ f = .checking path g := by
  cases hc : m.store.contains t path with
  | error g =>
    rw [outcome_of_contains_error hc] at h
    exact ⟨g, rfl, (Except.error.inj h).symm⟩
  | ok b =>
    have hstep : ∃ r t', Step m t path r t' := by
      cases b with
      | false => exact ⟨_, _, .missing (FileStore.contains_undisturbed hc)⟩
      | true =>
        obtain ⟨l, c, hn⟩ := FileStore.names_of_contains hc
        exact step_of_names hn
    obtain ⟨r, t', hs⟩ := hstep
    rw [(process_of_step hm hs).1] at h
    cases h

theorem Step.path_eq {m : Migration} {t t' : FileTree} {path : Text} {r : FileResult}
    (h : Step m t path r t') : r.path = path := by
  cases h <;> rfl

theorem Step.result_of_names {m : Migration} {t t' : FileTree} {path : Text} {r : FileResult}
    (h : Step m t path r t') {l : Location} {c : Text} (hn : m.store.Names t path l c)
    (hs : m.substitution.scan c ≠ []) : r = m.resultOf path c := by
  cases h with
  | missing hc => exact absurd hn (FileStore.not_names_of_contains hc l c)
  | unchanged hn' hs' =>
    rw [FileStore.eq_of_names hn' hn] at hs'
    exact absurd hs' hs
  | checked _ hn' _ => rw [FileStore.eq_of_names hn' hn]
  | changed _ hn' _ => rw [FileStore.eq_of_names hn' hn]

theorem Step.tree_cases {m : Migration} {t t' : FileTree} {path : Text} {r : FileResult}
    (h : Step m t path r t') :
    t' = t ∨ ∃ l c u, m.store.Names t path l c ∧ t' = t.setFile l u := by
  cases h with
  | missing _ => exact Or.inl rfl
  | unchanged _ _ => exact Or.inl rfl
  | checked _ _ _ => exact Or.inl rfl
  | changed _ hn _ => exact Or.inr ⟨_, _, _, hn, rfl⟩

theorem process_tree_cases (m : Migration) (t : FileTree) (path : Text) :
    (m.process t path).tree = t ∨
      ∃ l c u, m.store.Names t path l c ∧ (m.process t path).tree = t.setFile l u := by
  rcases m.process_cases t path with ⟨_, -, ht, -⟩ | ⟨r, -, hs, -⟩
  · exact Or.inl ht
  · exact hs.tree_cases

theorem layout_process (m : Migration) (t : FileTree) (path : Text) :
    (m.process t path).tree.layout = t.layout := by
  rcases m.process_tree_cases t path with h | ⟨l, c, u, hn, h⟩
  · rw [h]
  · rw [h, FileTree.layout_setFile hn.2]

theorem names_process {m : Migration} {t : FileTree} {path : Text} {l : Location} {c : Text}
    (hn : m.store.Names t path l c) :
    ∃ produced, m.store.Names (m.process t path).tree path l produced ∧
      (produced = c ∨ produced = (m.migrated path c).content) := by
  rcases m.process_cases t path with ⟨f, -, htree, -⟩ | ⟨r, -, hstep, -⟩
  · rw [htree]
    exact ⟨c, hn, Or.inl rfl⟩
  · generalize (m.process t path).tree = t' at hstep
    cases hstep with
    | missing hc => exact absurd hn (FileStore.not_names_of_contains hc l c)
    | unchanged _ _ => exact ⟨c, hn, Or.inl rfl⟩
    | checked _ _ _ => exact ⟨c, hn, Or.inl rfl⟩
    | @changed l' c' _ hn' _ =>
      obtain rfl : l' = l := Option.some.inj (hn'.1.symm.trans hn.1)
      obtain rfl : c' = c := FileStore.eq_of_names hn' hn
      exact ⟨_, FileStore.names_setFile_self hn' _, Or.inr rfl⟩

/-! ### Other files -/

/-- **Processing a file looks at that file only.**  On trees that look the same
from its path the outcome is the same, and so is the change. -/
theorem process_frame {m : Migration} {t t' : FileTree} {path : Text}
    (h : m.store.Agree t t' path) :
    (m.process t' path).outcome = (m.process t path).outcome ∧
      (((m.process t path).tree = t ∧ (m.process t' path).tree = t') ∨
        ∃ l c u, m.store.Names t path l c ∧ (m.process t path).tree = t.setFile l u ∧
          (m.process t' path).tree = t'.setFile l u) := by
  have hc := FileStore.contains_congr h.layout m.store path
  rcases m.absent_or_names t path with ha | ⟨l, c, hn⟩
  · have ha' : m.Absent t' path := fun l c hn => ha l c (h.symm.names hn)
    rw [process_of_absent ha, process_of_absent ha', ← hc]
    cases m.store.contains t path with
    | error f => exact ⟨rfl, Or.inl ⟨rfl, rfl⟩⟩
    | ok b => exact ⟨rfl, Or.inl ⟨rfl, rfl⟩⟩
  · have hn' := h.names hn
    rw [process_of_names hn, process_of_names hn', ← hc]
    cases m.store.contains t path with
    | error f => exact ⟨rfl, Or.inl ⟨rfl, rfl⟩⟩
    | ok b =>
      cases m.store.sabotage.reads path with
      | some msg => exact ⟨rfl, Or.inl ⟨rfl, rfl⟩⟩
      | none =>
        dsimp only
        split
        · exact ⟨rfl, Or.inl ⟨rfl, rfl⟩⟩
        · cases hd : m.dry with
          | true =>
            rw [change_of_dry hd, change_of_dry hd]
            exact ⟨rfl, Or.inl ⟨rfl, rfl⟩⟩
          | false =>
            rw [change_of_names hd hn, change_of_names hd hn']
            cases m.store.sabotage.writes path with
            | some msg => exact ⟨rfl, Or.inl ⟨rfl, rfl⟩⟩
            | none => exact ⟨rfl, Or.inr ⟨l, c, _, hn, rfl, rfl⟩⟩

theorem agree_process {m : Migration} {t : FileTree} {f g : Text} (hfg : m.store.Apart t f g) :
    m.store.Agree t (m.process t f).tree g := by
  rcases m.process_tree_cases t f with h | ⟨l, c, u, hn, h⟩
  · rw [h]
    exact FileStore.Agree.refl _ _ _
  · rw [h]
    exact FileStore.agree_setFile hn hfg u

/-- **Two files can be processed in either order.** -/
theorem process_comm {m : Migration} {t : FileTree} {f g : Text} (hfg : m.store.Apart t f g) :
    (m.process (m.process t f).tree g).tree = (m.process (m.process t g).tree f).tree := by
  obtain ⟨-, hg⟩ := process_frame (agree_process hfg)
  obtain ⟨-, hf⟩ := process_frame (agree_process hfg.symm)
  rcases hg with ⟨hg, hg'⟩ | ⟨lg, cg, ug, hng, hg, hg'⟩
  · rcases hf with ⟨hf, hf'⟩ | ⟨lf, cf, uf, hnf, hf, hf'⟩
    · rw [hg', hf', hg, hf]
    · rw [hg', hf', hg, hf]
  · rcases hf with ⟨hf, hf'⟩ | ⟨lf, cf, uf, hnf, hf, hf'⟩
    · rw [hg', hf', hg, hf]
    · rw [hg', hf', hg, hf, FileTree.setFile_comm hnf.2 hng.2 (hfg.ne hnf.1 hng.1)]

end Migration

end DateDisplay
