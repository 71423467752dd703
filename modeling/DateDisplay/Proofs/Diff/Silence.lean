import DateDisplay.CommandLine.Execute
import DateDisplay.Proofs.Diff.Changes
import DateDisplay.Proofs.Migration.Completion
import DateDisplay.Proofs.Migration.DryRun

/-!
# Changes that no diff shows

A diff is empty exactly when all that changes in the line numbers are commas and zeros
(`LineDiff.unified_eq_nil_iff`).  Of texts with fewer than ten different lines this holds
only if they are equal (`LineDiff.Silent.eq`).  With ten lines the number 10 has a zero
in it, and a change from line 1 to line 10 is the insertion of this zero.

A dry run gives each file the diff from its content to what a run that writes would leave
in its place (`Migration.Step.diff_eq`), and the command shows those that are not empty
(`CommandLine.migrate_of_fault_eq_none`).  So a file may be changed without a word.
-/

namespace DateDisplay

open Text

/-- **A silent change is none**, if there are fewer than ten different lines. -/
theorem LineDiff.Silent.eq {before after : Text} (h : Silent before after)
    (hfew : (table before after).length ≤ 9) : before = after :=
  (changes_eq_nil_iff_eq hfew).mp (changes_eq_nil_iff.mpr h)

namespace Migration

variable {m : Migration} {t t' : FileTree} {path : Text} {r : FileResult}

/-- The content that a file is left with. -/
def leaves (m : Migration) (path content : Text) : Text :=
  if m.substitution.scan content = [] then content else (m.migrated path content).content

theorem IsFor.leaves_eq {m' : Migration} {p : Plan} {root : Text} (h : m.IsFor p root)
    (h' : m'.IsFor p root) : m.leaves = m'.leaves := by
  funext path c
  rw [leaves, leaves, h.substitution_eq h', h.migrated_eq h']

theorem Step.names_leaves (hd : m.dry = false) (h : Step m t path r t') {l : Location} {c : Text}
    (hn : m.store.Names t path l c) : m.store.Names t' path l (m.leaves path c) := by
  cases h with
  | missing hc => exact absurd hn (FileStore.not_names_of_contains hc l c)
  | unchanged hn' hs =>
    rw [FileStore.eq_of_names hn' hn] at hs
    rwa [leaves, if_pos hs]
  | checked hd' _ _ =>
    rw [hd] at hd'
    cases hd'
  | changed _ hn' hs =>
    obtain rfl := FileStore.eq_of_names hn' hn
    obtain rfl := Option.some.inj (hn'.1.symm.trans hn.1)
    rw [leaves, if_neg hs]
    exact FileStore.names_setFile_self hn _

/-- **The diff of a result leads to what the file is left with.** -/
theorem Step.diff_eq (h : Step m t path r t') {l : Location} {c : Text}
    (hn : m.store.Names t path l c) : r.diff = LineDiff.unified path c (m.leaves path c) := by
  by_cases hs : m.substitution.scan c = []
  · have hdiff : LineDiff.unified path c (m.leaves path c) = [] := by
      rw [leaves, if_pos hs]
      exact LineDiff.unified_eq_nil_iff.mpr (LineDiff.silent_self c)
    rw [hdiff]
    cases h with
    | missing _ => rfl
    | unchanged _ _ => rfl
    | checked _ hn' hs' => exact absurd (FileStore.eq_of_names hn' hn ▸ hs) hs'
    | changed _ hn' hs' => exact absurd (FileStore.eq_of_names hn' hn ▸ hs) hs'
  · rw [h.result_of_names hn hs, leaves, if_neg hs]
    rfl

/-- Each result of a dry run is that of a step on the tree as it was. -/
theorem Steps.step_of_dry {paths : List Text} {rs : List FileResult} (hd : m.dry = true)
    (h : Steps m t paths rs t') : ∀ r ∈ rs, Step m t r.path r t := by
  induction h with
  | nil t => simp
  | cons hr _ ih =>
    have hstep := step_of_process hr
    have htree := hstep.tree_of_dry hd
    rw [htree] at hstep ih
    rw [List.forall_mem_cons, hstep.path_eq]
    exact ⟨hstep, ih⟩

end Migration

namespace CommandLine

/-- **A command without a fault is a run**, behind which `check` shows the diffs. -/
theorem migrate_of_fault_eq_none {c : Console} {t : FileTree} {plan : Plan} {o : Options}
    {dry : Bool} (h : (migrate c t plan o dry).fault = none) : ∃ scope m s,
      Migration.new (some plan) o.root dry (some c) {} scope = .ok m ∧
      (m.run t [] none).fault = none ∧ (m.run t [] none).summary = some s ∧
      (migrate c t plan o dry).tree = (m.run t [] none).tree ∧
      (migrate c t plan o dry).told = if dry && !o.quiet then (m.run t [] none).told ++ diffs s
        else (m.run t [] none).told := by
  revert h
  rw [migrate]
  dsimp only
  split
  · intro h
    cases h
  · rename_i m hm
    split
    · intro h
      cases h
    · rename_i s hf hs
      intro _
      exact ⟨_, m, s, hm, hf, hs, rfl, rfl⟩
    · rename_i hf hs
      obtain ⟨files, rs, -, -, -, hsum⟩ := Migration.run_of_fault_eq_none hf
      rw [hs] at hsum
      cases hsum

open LineDiff Migration in
/-- **`check` shows a diff for every file that would change, unless the change is silent.**  A diff
is empty exactly when the change is silent.  No change at all is silent, and among fewer than ten
different lines nothing else is. -/
theorem check_shows_diffs_not_silent (path before after : Text) (c : Console) (t : FileTree)
    (plan : Plan) (o : Options) :
    (unified path before after = [] ↔ Silent before after) ∧
      (before = after → Silent before after) ∧
      ((table before after).length ≤ 9 → Silent before after → before = after) ∧
      (o.quiet = false → (migrate c t plan o true).fault = none →
        ∃ scope m s, Migration.new (some plan) o.root true (some c) {} scope = .ok m ∧
          (m.run t [] none).summary = some s ∧
          (plan.expand t m.root).2 = .ok (s.files.map (·.path)) ∧
          (migrate c t plan o true).told = (m.run t [] none).told ++ diffs s ∧
          ∀ r ∈ s.files, ∀ l content, m.store.Names t r.path l content →
            (r.diff = [] ↔ Silent content (m.leaves r.path content)) ∧
            ∀ m' scope', Migration.new (some plan) o.root false (some c) {} scope' = .ok m' →
              m'.store.Names (m'.process t r.path).tree r.path l (m.leaves r.path content)) := by
  refine ⟨unified_eq_nil_iff, fun h => h ▸ silent_self before, fun hfew h => h.eq hfew,
    fun hq hf => ?_⟩
  obtain ⟨scope, m, s, hm, hrun, hsum, -, htold⟩ := migrate_of_fault_eq_none hf
  obtain ⟨hfor, hd, -⟩ := isFor_of_new hm
  obtain ⟨files, rs, hexp, -, hsteps, hsum'⟩ := run_of_fault_eq_none hrun
  obtain rfl : s = .total rs := by simpa [hsum] using hsum'
  rw [hfor.plan, ← hsteps.map_path] at hexp
  rw [hq] at htold
  refine ⟨scope, m, _, hm, hsum, hexp, htold,
    fun r hr l content hn => ⟨?_, fun m' scope' hm' => ?_⟩⟩
  · rw [(hsteps.step_of_dry hd r hr).diff_eq hn]
    exact unified_eq_nil_iff
  · obtain ⟨hfor', hd', hsab'⟩ := isFor_of_new hm'
    have hn' := hfor.names_congr hfor' hn
    obtain ⟨w, t', hstep⟩ := step_of_names hn'
    rw [(process_of_step hsab' hstep).2, hfor.leaves_eq hfor']
    exact hstep.names_leaves hd' hn'

/-- Line 1 becomes what line 10 is already, so its number 1 becomes 10 and a zero is all that is
new.  `check` shows no more than it does without diffs, and `fix` changes the file. -/
theorem check_shows_no_diff_for_new_zero :
    let path := lit "a.tsx"
    let rest := lit "2\n3\n4\n5\n6\n7\n8\n9\ndbDateToDisplay(d)\n"
    let before := lit "new Date(d).toLocaleDateString('pt-BR')\n" ++ rest
    let after := lit "dbDateToDisplay(d)\n" ++ rest
    let t : FileTree := { entries := [([path], .file before)] }
    let plan : Plan := { Plan.builtin with files := some [path] }
    before ≠ after ∧ LineDiff.unified path before after = [] ∧
      (migrate {} t plan {} true).fault = none ∧
      (migrate {} t plan {} true).told = (migrate {} t plan { quiet := true } true).told ∧
      (migrate {} t plan {} false).fault = none ∧
      (migrate {} t plan {} false).tree.get? [path] = some (.file after) := by
  decide +kernel

end CommandLine

end DateDisplay
