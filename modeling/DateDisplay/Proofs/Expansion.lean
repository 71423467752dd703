import DateDisplay.Plan.Expansion
import DateDisplay.Proofs.FileTree
import DateDisplay.Proofs.Text

/-!
# Expansion sees the layout only

A pattern describes files by their names.  Every step of a search looks at what
is in a folder or at whether something is at a location, never into a file, so
trees of one layout expand a plan's file list in the same way (`expand_congr`).
In particular a change of file contents changes nothing about which files a plan
is for.

An expanded list names no path twice (`nodup_of_expand`).
-/

namespace DateDisplay

open Text

namespace Glob.Ground

/-! ### Grounds of one layout -/

/-- Searches on the two grounds start from the same folder of trees of one
layout. -/
structure Alike (g g' : Ground) : Prop where
  layout : g.tree.layout = g'.tree.layout
  root : g.root = g'.root

theorem location?_congr {g g' : Ground} (h : Alike g g') : g.location? = g'.location? := by
  funext path
  rw [location?, location?, h.root]

theorem children_eq (t : FileTree) (l : Location) :
    t.children l = t.layout.2.filterMap fun (m, isFolder) =>
      match m.getLast? with
      | some name => if m.dropLast == l then some (name, isFolder) else none
      | none => none := by
  rw [FileTree.children, FileTree.layout, List.filterMap_map]
  rfl

theorem below_eq (t : FileTree) (l : Location) :
    t.below l = t.layout.2.filterMap fun (m, isFolder) =>
      if l.isPrefixOf m && l.length < m.length then some (m.drop l.length, isFolder) else none := by
  rw [FileTree.below, FileTree.layout, List.filterMap_map]
  rfl

theorem folder?_congr {g g' : Ground} (h : Alike g g') : g.folder? = g'.folder? := by
  funext path
  unfold folder?
  rw [location?_congr h]
  cases g'.location? path with
  | none => rfl
  | some l =>
    dsimp only
    rcases FileTree.kind_cases h.layout l with ⟨he, he'⟩ | ⟨he, he'⟩ | ⟨c, c', he, he'⟩
    · rw [he, he']
    · rw [he, he']
    · rw [he, he']
      rfl

theorem literal_congr {g g' : Ground} (h : Alike g g') : g.literal = g'.literal := by
  funext files path
  unfold literal
  unfold Ground.get?
  rw [location?_congr h]
  dsimp only
  cases g'.location? (if path.length > 1 && path.getLast? == some Path.slash then path.dropLast
    else path) with
  | none => rfl
  | some l =>
    rw [Option.bind_some, Option.bind_some]
    rcases FileTree.kind_cases h.layout l with ⟨he, he'⟩ | ⟨he, he'⟩ | ⟨c, c', he, he'⟩
    · rw [he, he']
    · rw [he, he']
    · rw [he, he']
      simp

theorem lastName_congr {g g' : Ground} (h : Alike g g') : g.lastName = g'.lastName := by
  funext files folder pattern
  simp only [lastName, anyDepth, named, folder?_congr h, children_eq, below_eq, h.layout]

/-- **A search depends on the layout only**: each of its steps does. -/
theorem search_congr {g g' : Ground} (h : Alike g g') (once : Bool) :
    ∀ fuel : Nat, g.search once fuel = g'.search once fuel := by
  intro fuel
  induction fuel with
  | zero => rfl
  | succ fuel ih =>
    funext files pattern
    unfold search
    rw [literal_congr h, lastName_congr h, ih]

end Glob.Ground

theorem Glob.Ground.alike_below {t t' : FileTree} (h : t.layout = t'.layout) (root : Text) :
    Alike (below t root) (below t' root) := by
  refine ⟨h, ?_⟩
  rw [below, below, FileTree.locate_congr h]
  dsimp only
  split
  · rename_i l _
    rcases FileTree.kind_cases h l with ⟨he, he'⟩ | ⟨he, he'⟩ | ⟨c, c', he, he'⟩
    · rw [he, he']
    · rw [he, he']
    · rw [he, he']
      rfl
  · rfl

theorem Glob.find_congr {t t' : FileTree} (h : t.layout = t'.layout) (root : Text) :
    Glob.find t root = Glob.find t' root := by
  have halike := Ground.alike_below h root
  have hnames : ∀ t : FileTree, (t.entries.flatMap fun e => e.1.flatten)
      = t.layout.2.flatMap fun e => e.1.flatten := by
    intro t
    rw [FileTree.layout, List.flatMap_map]
  funext pattern
  rw [Glob.find, Glob.find, hnames, hnames, h, Ground.search_congr halike]

theorem Glob.exists_search_of_find {t : FileTree} {root pattern : Text} {found : List Text}
    (h : Glob.find t root pattern = .ok found) : ∃ once fuel hits,
      (Ground.below t root).search once fuel true pattern = .ok hits ∧ found = sorted hits := by
  refine ⟨crossesInside pattern,
    2 * (pattern.length + (t.entries.flatMap fun e => e.1.flatten).length) + 2, ?_⟩
  rw [Glob.find] at h
  cases hs : (Ground.below t root).search (crossesInside pattern)
      (2 * (pattern.length + (t.entries.flatMap fun e => e.1.flatten).length) + 2) true pattern with
  | error f => rw [hs] at h; cases h
  | ok hits =>
    rw [hs] at h
    exact ⟨hits, rfl, (Except.ok.inj h).symm⟩

namespace Plan

/-- **Trees of one layout expand a plan in the same way.** -/
theorem expand_congr {t t' : FileTree} (h : t.layout = t'.layout) (p : Plan) (root : Text) :
    p.expand t root = p.expand t' root := by
  rw [expand, expand, Glob.find_congr h]

theorem nodup_of_expand {p : Plan} {t : FileTree} {root : Text} {files : List Text}
    (h : (p.expand t root).2 = .ok files) : files.Nodup := by
  rw [expand] at h
  cases hp : (expandEntries (Glob.find t root) p.entries).2 with
  | error f => simp [hp, Except.map] at h
  | ok ps =>
    obtain rfl : distinct ps.flatten = files := by simpa [hp, Except.map] using h
    exact nodup_distinct _

end Plan

end DateDisplay
