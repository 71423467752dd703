import DateDisplay.FileTree
import Mathlib.Data.List.Nodup

/-!
# Trees and their layout

The layout of a tree is the tree without what is in its files: its working folder
and its locations in order, each with whether a folder is there.  Putting new
content into a file keeps the layout (`layout_setFile`) and what is at every other location
(`get?_setFile`), and two such changes at different locations can be made in
either order (`setFile_comm`).

Where a path leads depends on the layout only (`locate_congr`).
-/

namespace DateDisplay

open Text

namespace FileTree

/-- The working folder and the locations of a tree, each with whether a folder is there. -/
def layout (t : FileTree) : Location × List (Location × Bool) :=
  (t.here, t.entries.map fun e => (e.1, e.2 == .folder))

theorem here_eq {t t' : FileTree} (h : t.layout = t'.layout) : t.here = t'.here :=
  congrArg Prod.fst h

theorem eq_of_entries {t t' : FileTree} (h : t.entries = t'.entries) (hh : t.here = t'.here) :
    t = t' := by
  cases t
  cases t'
  cases h
  cases hh
  rfl

/-! ### What is listed -/

theorem find?_of_mem {listed : List (Location × Entry)} (hn : (listed.map Prod.fst).Nodup)
    {x : Location × Entry} (hx : x ∈ listed) : listed.find? (·.1 == x.1) = some x := by
  induction listed with
  | nil => cases hx
  | cons y listed ih =>
    rw [List.map_cons, List.nodup_cons] at hn
    rcases List.mem_cons.mp hx with rfl | hx
    · rw [List.find?_cons_of_pos (by simp)]
    · have hne : y.1 ≠ x.1 := by
        intro he
        exact hn.1 (he ▸ List.mem_map_of_mem hx)
      rw [List.find?_cons_of_neg (by simpa using hne), ih hn.2 hx]

theorem get?_of_mem {t : FileTree} {l : Location} {e : Entry} (h : (l, e) ∈ t.entries)
    (hl : l ≠ []) : t.get? l = some e := by
  rw [get?, if_neg (by simpa using hl), find?_of_mem t.listedOnce h, Option.map_some]

theorem get?_nil (t : FileTree) : t.get? [] = some .folder := rfl

theorem ne_nil_of_file {t : FileTree} {l : Location} {c : Text} (h : t.get? l = some (.file c)) :
    l ≠ [] := by
  rintro rfl
  cases h

theorem listed_of_file {t : FileTree} {l : Location} {c : Text}
    (h : t.get? l = some (.file c)) : t.entries.any (·.1 == l) = true := by
  rw [get?, if_neg (by simpa using ne_nil_of_file h), Option.map_eq_some_iff] at h
  obtain ⟨x, hx, -⟩ := h
  have hxl : x.1 = l := by simpa using List.find?_some hx
  exact any_eq_true_iff_mem.mpr (List.mem_map.mpr ⟨x, List.mem_of_find?_eq_some hx, hxl⟩)

/-! ### New content for a file -/

theorem here_setFile (t : FileTree) (l : Location) (content : Text) :
    (t.setFile l content).here = t.here := by
  rw [setFile]
  split <;> rfl

theorem entries_setFile {t : FileTree} {l : Location} {c : Text} (h : t.get? l = some (.file c))
    (content : Text) :
    (t.setFile l content).entries = t.entries.map (overwrite l (.file content)) := by
  rw [setFile, dif_pos (listed_of_file h)]

theorem find?_map_overwrite (l l' : Location) (e : Entry) (listed : List (Location × Entry)) :
    (listed.map (overwrite l e)).find? (·.1 == l')
      = (listed.find? (·.1 == l')).map (overwrite l e) := by
  rw [List.find?_map]
  congr 2
  funext x
  rw [Function.comp, overwrite_fst]

theorem get?_setFile {t : FileTree} {l : Location} {c : Text} (h : t.get? l = some (.file c))
    (content : Text) (l' : Location) :
    (t.setFile l content).get? l' = if l' = l then some (.file content) else t.get? l' := by
  have hl := ne_nil_of_file h
  by_cases hl' : l' = []
  · subst hl'
    rw [if_neg (Ne.symm hl), get?_nil, get?_nil]
  · rw [get?, if_neg (by simpa using hl'), entries_setFile h, find?_map_overwrite]
    split
    · rename_i he
      subst he
      rw [get?, if_neg (by simpa using hl), Option.map_eq_some_iff] at h
      obtain ⟨x, hx, -⟩ := h
      rw [hx, Option.map_some, Option.map_some, overwrite, if_pos (List.find?_some hx)]
    · rename_i he
      rw [get?, if_neg (by simpa using hl')]
      cases hx : t.entries.find? (·.1 == l') with
      | none => rfl
      | some x =>
        have hxl : x.1 = l' := by simpa using List.find?_some hx
        rw [Option.map_some, Option.map_some, Option.map_some, overwrite,
          if_neg (by rw [hxl]; simpa using he)]

theorem get?_setFile_self {t : FileTree} {l : Location} {c : Text}
    (h : t.get? l = some (.file c)) (content : Text) :
    (t.setFile l content).get? l = some (.file content) := by
  rw [get?_setFile h, if_pos rfl]

theorem get?_setFile_of_ne {t : FileTree} {l l' : Location} {c : Text}
    (h : t.get? l = some (.file c)) (content : Text) (hne : l' ≠ l) :
    (t.setFile l content).get? l' = t.get? l' := by
  rw [get?_setFile h, if_neg hne]

/-- **New content for a file keeps the layout.** -/
theorem layout_setFile {t : FileTree} {l : Location} {c : Text} (h : t.get? l = some (.file c))
    (content : Text) : (t.setFile l content).layout = t.layout := by
  rw [layout, here_setFile, entries_setFile h, List.map_map, layout]
  refine congrArg (t.here, ·) (List.map_congr_left fun x hx => ?_)
  rw [Function.comp, overwrite]
  split
  · rename_i he
    obtain ⟨l', e⟩ := x
    obtain rfl : l' = l := by simpa using he
    rw [get?_of_mem hx (ne_nil_of_file h), Option.some.injEq] at h
    rw [h]
    rfl
  · rfl

theorem setFile_comm {t : FileTree} {l l' : Location} {c c' : Text}
    (h : t.get? l = some (.file c)) (h' : t.get? l' = some (.file c')) (hne : l ≠ l')
    (u u' : Text) : (t.setFile l u).setFile l' u' = (t.setFile l' u').setFile l u := by
  have h₁ := (get?_setFile_of_ne h u (Ne.symm hne)).trans h'
  have h₂ := (get?_setFile_of_ne h' u' hne).trans h
  refine eq_of_entries ?_ (by simp only [here_setFile])
  rw [entries_setFile h₁, entries_setFile h₂, entries_setFile h, entries_setFile h', List.map_map,
    List.map_map]
  refine List.map_congr_left fun x _ => ?_
  simp only [Function.comp, overwrite]
  by_cases hx : x.1 = l
  · simp [hx, hne]
  · by_cases hx' : x.1 = l'
    · simp [hx', Ne.symm hne]
    · simp [hx, hx']

/-! ### What the layout decides -/

theorem kind_eq (t : FileTree) (l : Location) :
    (t.get? l).map (· == .folder)
      = if l.isEmpty then some true else (t.layout.2.find? (·.1 == l)).map (·.2) := by
  rw [get?, layout, List.find?_map]
  split
  · rfl
  · rw [Option.map_map, Option.map_map]
    rfl

/-- **Trees of one layout have nothing, a folder or a file at the same
locations.** -/
theorem kind_cases {t t' : FileTree} (h : t.layout = t'.layout) (l : Location) :
    (t.get? l = none ∧ t'.get? l = none) ∨
      (t.get? l = some .folder ∧ t'.get? l = some .folder) ∨
      ∃ c c', t.get? l = some (.file c) ∧ t'.get? l = some (.file c') := by
  have hk : (t.get? l).map (· == .folder) = (t'.get? l).map (· == .folder) := by
    rw [kind_eq, kind_eq, h]
  cases he : t.get? l with
  | none =>
    rw [he, Option.map_none, eq_comm, Option.map_eq_none_iff] at hk
    exact Or.inl ⟨rfl, hk⟩
  | some e =>
    rw [he, Option.map_some, eq_comm, Option.map_eq_some_iff] at hk
    obtain ⟨e', he', hee⟩ := hk
    cases e with
    | folder =>
      obtain rfl : e' = .folder := by simpa using hee
      exact Or.inr (Or.inl ⟨rfl, he'⟩)
    | file c =>
      cases e' with
      | folder => exact absurd hee (by simp)
      | file c' => exact Or.inr (Or.inr ⟨c, c', rfl, he'⟩)

theorem step_congr {t t' : FileTree} (h : t.layout = t'.layout) : step t = step t' := by
  funext l name
  unfold step
  rcases kind_cases h l with ⟨he, he'⟩ | ⟨he, he'⟩ | ⟨c, c', he, he'⟩
  · simp only [he, he']
  · simp only [he, he']
  · simp only [he, he']

/-- **Where a path leads depends on the layout only.** -/
theorem locate_congr {t t' : FileTree} (h : t.layout = t'.layout) (path : Text) :
    t.locate path = t'.locate path := by
  simp only [locate, walk, origin, step_congr h, here_eq h]

end FileTree

end DateDisplay
