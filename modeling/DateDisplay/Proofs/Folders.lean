import DateDisplay.Import.PathTable
import DateDisplay.Path
import DateDisplay.Proofs.Lines
import Mathlib.Data.List.Find

/-!
# The folders that a rule sees

A rule of a path table is for the files below a folder of the rule's name.  It looks for
the name between two slashes, and what stands between two slashes of a path is a component
of it that is neither the first nor the last (`occurs_between_slashes_iff`).

So a rule does not see the first folder of a path.  A table is followed as it reads for
exactly those files whose path has no first folder, or has a folder of that name further on
(`resolve_follows_later_folders`).
-/

namespace DateDisplay

open Text

namespace Path

/-- The folders that a path leads through: its components, all but the last. -/
def folders (p : Text) : List Text := (components p).dropLast

theorem join_components (p : Text) : join [slash] (components p) = p := join_splitOn (by simp) p

theorem notMem_of_mem_folders {p f : Text} (h : f ∈ folders p) : slash ∉ f :=
  notMem_of_mem_splitOn slash p f (List.mem_of_mem_dropLast h)

theorem mem_tail_folders {p u v seg : Text} (hseg : slash ∉ seg)
    (hp : p = u ++ slash :: (seg ++ slash :: v)) : seg ∈ (folders p).tail := by
  have hu := splitOn_ne_nil slash u
  have hv := splitOn_ne_nil slash v
  obtain ⟨c, cs, hcs⟩ := List.exists_cons_of_ne_nil hu
  have hcomponents : components p = c :: (cs ++ seg :: splitOn [slash] v) := by
    rw [components, hp, splitOn_append, splitOn_append_cons hseg, hcs, List.cons_append]
  rw [folders, hcomponents, List.dropLast_cons_of_ne_nil (by simp), List.tail_cons,
    List.dropLast_append_of_ne_nil (by simp), List.dropLast_cons_of_ne_nil hv]
  simp

theorem exists_between_slashes {p seg : Text} (h : seg ∈ (folders p).tail) :
    ∃ u v, p = u ++ slash :: (seg ++ slash :: v) := by
  have hp := join_components p
  obtain ⟨cs, l, hcs⟩ := (List.eq_nil_or_concat' _).resolve_left (splitOn_ne_nil slash p)
  rw [folders, components, hcs, List.dropLast_concat] at h
  obtain ⟨pre, post, htail⟩ := List.append_of_mem h
  obtain ⟨c, rfl⟩ : ∃ c, cs = c :: (pre ++ seg :: post) := by
    cases cs with
    | nil => simp at htail
    | cons c cs => exact ⟨c, by rw [← htail]; rfl⟩
  rw [components, hcs, join_append (by simp), ended_cons, ended_append, ended_cons] at hp
  rcases List.eq_nil_or_concat' pre with rfl | ⟨pre, b, rfl⟩
  · exact ⟨c, ended [slash] post ++ l, by rw [← hp]; simp [ended]⟩
  · refine ⟨c ++ slash :: (ended [slash] pre ++ b), ended [slash] post ++ l, ?_⟩
    rw [← hp, ended_append, ended_cons]
    simp [ended]

/-- **Between two slashes stand the folders of a path behind the first one.** -/
theorem occurs_between_slashes_iff {p seg : Text} (hseg : slash ∉ seg) :
    occurs (slash :: seg ++ [slash]) p = true ↔ seg ∈ (folders p).tail := by
  rw [occurs_iff_isInfix]
  constructor
  · rintro ⟨u, v, h⟩
    exact mem_tail_folders (u := u) (v := v) hseg (by rw [← h]; simp)
  · intro h
    obtain ⟨u, v, hp⟩ := exists_between_slashes h
    exact ⟨u, v, by rw [hp]; simp⟩

end Path

namespace PathTable

open DateDisplay.Path

/-- Each rule is for files below a folder of one name. -/
def Sound (t : PathTable) : Prop := ∀ r ∈ t.rules, r.segment ≠ [] ∧ slash ∉ r.segment

instance (t : PathTable) : Decidable t.Sound := inferInstanceAs (Decidable (∀ r ∈ _, _))

/-- The import path for a file below these folders: that of the first rule for one of them, or
the fallback if there is no such rule. -/
def pathBelow (t : PathTable) (folders : List Text) : Text :=
  ((t.rules.find? (folders.contains ·.segment)).map (·.path)).getD t.fallback

theorem pathBelow_congr {t : PathTable} {fs gs : List Text}
    (h : ∀ r ∈ t.rules, r.segment ∈ fs ↔ r.segment ∈ gs) : t.pathBelow fs = t.pathBelow gs := by
  have hfind : t.rules.find? (fs.contains ·.segment) = t.rules.find? (gs.contains ·.segment) :=
    List.find?_congr fun r hr => by
      rw [Bool.eq_iff_iff, List.contains_iff_mem, List.contains_iff_mem]
      exact h r hr
  rw [pathBelow, pathBelow, hfind]

theorem resolve_eq_pathBelow {t : PathTable} (ht : t.Sound) (file : Text) :
    t.resolve file = t.pathBelow (folders file).tail := by
  have hfind : t.rules.find? (appliesTo · file)
      = t.rules.find? ((folders file).tail.contains ·.segment) :=
    List.find?_congr fun r hr => by
      rw [Bool.eq_iff_iff, List.contains_iff_mem]
      exact occurs_between_slashes_iff (ht r hr).2
  rw [resolve, pathBelow, hfind]
  cases t.rules.find? ((folders file).tail.contains ·.segment) with
  | none => rfl
  | some r => rfl

/-- A table with a rule for the first folder only shows whether that folder is seen. -/
theorem mem_tail_of_resolve {file first : Text} (hfirst : first ∈ (folders file).head?)
    (hne : first ≠ [])
    (h : ∀ t : PathTable, t.Sound → t.resolve file = t.pathBelow (folders file)) :
    first ∈ (folders file).tail := by
  have hmem : first ∈ folders file := List.mem_of_head? hfirst
  let t : PathTable := ⟨[⟨first, lit "seen"⟩], lit "missed"⟩
  have ht : t.Sound := by
    intro r hr
    obtain rfl : r = ⟨first, lit "seen"⟩ := List.mem_singleton.mp hr
    exact ⟨hne, notMem_of_mem_folders hmem⟩
  have hseen : t.pathBelow (folders file) = lit "seen" := by simp [t, pathBelow, hmem]
  have hresolve := (resolve_eq_pathBelow ht file).symm.trans ((h t ht).trans hseen)
  by_contra hlater
  have hmissed : t.pathBelow (folders file).tail = lit "missed" := by simp [t, pathBelow, hlater]
  rw [hmissed] at hresolve
  exact absurd hresolve (by decide)

/-- **A table is followed below all folders but the first.**  The first rule for a folder behind
the first one decides.  To pass over the first folder makes no difference to any table exactly
if its name is empty, as in an absolute path, or that of a later folder, too. -/
theorem resolve_follows_later_folders (file : Text) :
    (∀ t : PathTable, t.Sound → t.resolve file = t.pathBelow (folders file).tail) ∧
    ((∀ t : PathTable, t.Sound → t.resolve file = t.pathBelow (folders file)) ↔
      ∀ first ∈ (folders file).head?, first ≠ [] → first ∈ (folders file).tail) := by
  refine ⟨fun t ht => resolve_eq_pathBelow ht file,
    fun h first hfirst hne => mem_tail_of_resolve hfirst hne h, fun h t ht => ?_⟩
  rw [resolve_eq_pathBelow ht]
  refine pathBelow_congr fun r hr => ⟨List.mem_of_mem_tail, fun hseg => ?_⟩
  cases hfs : folders file with
  | nil => rw [hfs] at hseg; cases hseg
  | cons first rest =>
    rw [hfs] at h hseg
    rcases List.mem_cons.mp hseg with hfirst | hrest
    · rw [hfirst]
      exact h first rfl (hfirst ▸ (ht r hr).1)
    · exact hrest

/-- **The first folder of a path is passed over**: the file is below a folder `forms`, for which
the table has a rule. -/
theorem resolve_misses_first_folder :
    let file := lit "forms/SaleForm.tsx"
    builtin.Sound ∧ isAbsolute file = false ∧ folders file = [lit "forms"] ∧
      builtin.pathBelow (folders file) = lit "../../utils/dateUtils" ∧
      builtin.resolve file = lit "../utils/dateUtils" := by
  decide +kernel

end PathTable

end DateDisplay
