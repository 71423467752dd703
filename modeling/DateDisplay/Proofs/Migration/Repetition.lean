import DateDisplay.Proofs.Matches
import DateDisplay.Proofs.Migration.Run
import DateDisplay.Proofs.Migration.Setup
import DateDisplay.Proofs.Plan.Listing

/-!
# Files that are listed twice

An expanded list names no path twice, but paths are compared as they are written, and one file has
many paths.  What a pattern describes is written with names only, so the other spellings come from
the entries that stand for themselves, which are kept as they are, or from a slash at the end of a
member of a group (`listed_cases`).

Where all paths of the list are plain each of them is another file, and a run comes to every file
at most once (`plain_paths_are_listed_once`).
-/

namespace DateDisplay

open Text DateDisplay.Path

namespace Plan

theorem shows_of_yields {t : FileTree} (ht : t.Named) {root e x : Text}
    (he : Glob.isPattern e = true) (hx : yields t root e x = true) :
    (Glob.Ground.below t root).Shows x := by
  rw [yields, if_pos he] at hx
  split at hx
  · rename_i found hfound
    exact Glob.only_shows_find ht root e found hfound x (List.contains_iff_mem.mp hx)
  · cases hx

/-- **A path of the list is plain, or an entry that stands for itself, or what a pattern describes
with a slash at the end.** -/
theorem listed_cases {p : Plan} {t : FileTree} (ht : t.Named) {root : Text} {files : List Text}
    (h : (p.expand t root).2 = .ok files) {x : Text} (hx : x ∈ files) :
    IsPlain x ∨ (x ∈ p.entries ∧ Glob.isPattern x = false) ∨
      ∃ e ∈ p.entries, Glob.isPattern e = true ∧ yields t root e x = true ∧
        ∃ name, IsPlain name ∧ x = name ++ [slash] := by
  obtain ⟨e, he, hyields⟩ := (mem_iff_yields h).mp hx
  cases hpattern : Glob.isPattern e with
  | false =>
    have hself : x = e := by simpa [yields, hpattern] using hyields
    rw [← hself] at he hpattern
    exact Or.inr (Or.inl ⟨he, hpattern⟩)
  | true =>
    obtain ⟨name, hname, rfl | rfl⟩ := shows_of_yields ht hpattern hyields
    · exact Or.inl hname.plain
    · exact Or.inr (Or.inr ⟨e, he, hpattern, hyields, name, hname.plain, rfl⟩)

end Plan

namespace Migration

theorem results_follow_list {m : Migration} {t : FileTree} {files : List Text}
    (h : (m.plan.expand t m.root).2 = .ok files) (records : List FileRecord) (stop : Option Nat) :
    ∃ s, (m.run t records stop).summary = some s ∧ s.files.map (·.path) <+: files ∧
      (m.run t records stop).records.map (·.path) = s.files.map (·.path) := by
  obtain ⟨done, rest, rs, rfl, hc, hrecords, hsum⟩ := run_course h records stop
  refine ⟨_, hsum, ?_, ?_⟩
  · exact ⟨rest, by rw [← hc.steps.map_path]; rfl⟩
  · rw [hrecords, List.map_map]
    rfl

/-- **Files are listed once where their paths are plain.**  No path is listed twice, and two
listed paths are one path on the disk, or lead to one location, only if one of them has an empty
component or a `.` or a `..` in it.  Such a path was written so in the plan, or it has a slash at
the end.  Where there is none, a run comes to every file at most once. -/
theorem plain_paths_are_listed_once {p : Plan} {root : Text} {dry : Bool} {console : Console}
    {sabotage : Sabotage} {scope : Scope} {m : Migration}
    (hm : new (some p) root dry (some console) sabotage scope = .ok m) {t : FileTree}
    (ht : t.Named) {files : List Text} (hfiles : (p.expand t m.root).2 = .ok files) :
    files.Nodup ∧
    (∀ x ∈ files, ∀ y ∈ files, x ≠ y →
      m.store.pathOf x = m.store.pathOf y ∨ ¬m.store.Apart t x y → ¬IsPlain x ∨ ¬IsPlain y) ∧
    (∀ x ∈ files, ¬IsPlain x → (x ∈ p.entries ∧ Glob.isPattern x = false) ∨
      ∃ e ∈ p.entries, Glob.isPattern e = true ∧ Plan.yields t m.root e x = true ∧
        ∃ name, IsPlain name ∧ x = name ++ [slash]) ∧
    ((∀ x ∈ files, IsPlain x) →
      (files.map m.store.pathOf).Nodup ∧ files.Pairwise (m.store.Apart t) ∧
      ∀ records stop, ∃ s, (m.run t records stop).summary = some s ∧
        (s.files.map fun r => m.store.pathOf r.path).Nodup ∧
        (s.files.map (·.path)).Pairwise (m.store.Apart t) ∧
        ((m.run t records stop).records.map fun r => m.store.pathOf r.path).Nodup) := by
  obtain ⟨hfor, -, -⟩ := isFor_of_new hm
  have hnodup := Plan.nodup_of_expand hfiles
  refine ⟨hnodup, fun x hx y hy hne hsame => ?_, fun x hx hplain => ?_, fun hplain => ?_⟩
  · by_contra hboth
    rw [not_or, not_not, not_not] at hboth
    obtain ⟨hx, hy⟩ := hboth
    rcases hsame with hpath | hmeet
    · exact hne (FileStore.pathOf_inj hx hy hpath)
    · exact hmeet (FileStore.apart_of_ne hx hy hne)
  · exact (Plan.listed_cases ht hfiles hx).resolve_left hplain
  · have hpaths : (files.map m.store.pathOf).Nodup :=
      hnodup.map_on fun x hx y hy => FileStore.pathOf_inj (hplain x hx) (hplain y hy)
    have hapart : files.Pairwise (m.store.Apart t) :=
      hnodup.imp_of_mem fun hx hy => FileStore.apart_of_ne (hplain _ hx) (hplain _ hy)
    refine ⟨hpaths, hapart, fun records stop => ?_⟩
    rw [← hfor.plan] at hfiles
    obtain ⟨s, hsum, hstart, hrecords⟩ := results_follow_list hfiles records stop
    have hresults : ((s.files.map (·.path)).map m.store.pathOf).Nodup :=
      hpaths.sublist (hstart.map m.store.pathOf).sublist
    refine ⟨s, hsum, ?_, hapart.sublist hstart.sublist, ?_⟩
    · rwa [List.map_map] at hresults
    · rwa [← hrecords, List.map_map] at hresults

/-- The pattern describes a file that is listed before it, and another one. -/
theorem plain_paths_are_listed_once_sample :
    let m := sample [lit "b", lit "?"] true {}
    let files := [lit "b", lit "a"]
    (m.plan.expand .sample m.root).2 = .ok files ∧ (files.map m.store.pathOf).Nodup ∧
      files.Pairwise (m.store.Apart .sample) ∧
      ∃ s, (m.run .sample [] none).summary = some s ∧
        (s.files.map fun r => m.store.pathOf r.path).Nodup := by
  intro m files
  have hm : new (some m.plan) [] true (some {}) {} {} = .ok m := rfl
  have hmatches : Glob.find .sample m.root (lit "?") = .ok [lit "a", lit "b"] := by
    have hsearch : (Glob.Ground.below .sample m.root).search false 8 true (lit "?")
        = .ok [lit "a", lit "b"] := by decide +kernel
    exact (congrArg (Except.map sorted) hsearch).trans
      (congrArg Except.ok (sorted_eq (by decide) (by decide)))
  have hfiles : (m.plan.expand .sample m.root).2 = .ok files := by
    refine Plan.expand_eq_ok_iff.mpr ⟨[[lit "b"], [lit "a", lit "b"]],
      .cons rfl (.cons ?_ .nil), by decide +kernel⟩
    rw [Plan.entryPaths, hmatches]
    rfl
  obtain ⟨-, -, -, hrun⟩ := plain_paths_are_listed_once hm (by decide) hfiles
  obtain ⟨hpaths, hapart, hresults⟩ := hrun (by decide)
  obtain ⟨s, hs, hnodup, -, -⟩ := hresults [] none
  exact ⟨hfiles, hpaths, hapart, s, hs, hnodup⟩

/-- **A file can be listed twice**: both paths are kept as they are written, and the dry run counts
the file and its call site twice. -/
theorem file_is_listed_under_two_spellings :
    let m := sample [lit "a", lit "./a"] true {}
    let files := [lit "a", lit "./a"]
    new (some m.plan) [] true (some {}) {} {} = .ok m ∧
      (m.plan.expand .sample m.root).2 = .ok files ∧
      m.store.pathOf (lit "a") = m.store.pathOf (lit "./a") ∧
      (m.run .sample [] none).fault = none ∧
      (m.run .sample [] none).summary.map (fun s => (s.files.map (·.path), s.modified))
        = some (files, 2) ∧
      (m.run .sample [] none).summary.map (·.replacements) = some 2 :=
  ⟨rfl, by decide +kernel⟩

end Migration

end DateDisplay
