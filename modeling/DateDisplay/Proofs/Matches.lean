import DateDisplay.Proofs.Expansion
import DateDisplay.Proofs.Spelling

/-!
# What a search finds

A search for files finds files only, and it writes a file's path with the names on the way to it,
from the folder that the search is below (`only_shows_search`).  The one thing that it may add is a
slash at the end, for a member of a group that has one there: such a member is looked up without
the slash and listed with it.

Only what is found last matters.  The folders that a search comes through are looked up again when
something is sought in them, so nothing has to be known about how they were found.
-/

namespace DateDisplay

open Text DateDisplay.Path

namespace Glob

/-! ### Searches one after the other -/

theorem exists_of_bind {α β ε : Type} {r : Except ε α} {f : α → Except ε β} {b : β}
    (h : r >>= f = .ok b) : ∃ a, r = .ok a ∧ f a = .ok b := by
  cases r with
  | error e => cases h
  | ok a => exact ⟨a, rfl, h⟩

theorem exists_of_mem_mapM {α β ε : Type} {f : α → Except ε β} : ∀ {xs : List α} {ys : List β},
    xs.mapM f = .ok ys → ∀ y ∈ ys, ∃ x ∈ xs, f x = .ok y := by
  intro xs
  induction xs with
  | nil =>
    intro ys h y hy
    obtain rfl : [] = ys := by simpa [pure, Except.pure] using h
    cases hy
  | cons x xs ih =>
    intro ys h y hy
    rw [List.mapM_cons] at h
    obtain ⟨z, hz, h⟩ := exists_of_bind h
    obtain ⟨zs, hzs, h⟩ := exists_of_bind h
    obtain rfl : z :: zs = ys := Except.ok.inj h
    rcases List.mem_cons.mp hy with rfl | hy
    · exact ⟨x, by simp, hz⟩
    · obtain ⟨x', hx', hf⟩ := ih hzs y hy
      exact ⟨x', by simp [hx'], hf⟩

theorem mem_of_mem_filterAuxM {α ε : Type} {f : α → Except ε Bool} :
    ∀ {xs acc ys : List α}, xs.filterAuxM f acc = .ok ys → ∀ y ∈ ys, y ∈ xs ∨ y ∈ acc := by
  intro xs
  induction xs with
  | nil =>
    intro acc ys h y hy
    obtain rfl : acc = ys := Except.ok.inj h
    exact Or.inr hy
  | cons x xs ih =>
    intro acc ys h y hy
    rw [List.filterAuxM] at h
    obtain ⟨b, -, h⟩ := exists_of_bind h
    rcases ih h y hy with hxs | hacc
    · exact Or.inl (List.mem_cons_of_mem x hxs)
    · cases b with
      | false => exact Or.inr hacc
      | true =>
        rcases List.mem_cons.mp hacc with rfl | hacc
        · exact Or.inl List.mem_cons_self
        · exact Or.inr hacc

theorem mem_of_mem_filterM {α ε : Type} {f : α → Except ε Bool} {xs ys : List α}
    (h : xs.filterM f = .ok ys) {y : α} (hy : y ∈ ys) : y ∈ xs := by
  rw [List.filterM] at h
  obtain ⟨zs, hzs, h⟩ := exists_of_bind h
  obtain rfl : zs.reverse = ys := Except.ok.inj h
  simpa using mem_of_mem_filterAuxM hzs y (List.mem_reverse.mp hy)

/-- All that a search finds has the property. -/
def Only (P : Text → Prop) (r : Except Malformed (List Text)) : Prop :=
  ∀ found, r = .ok found → ∀ x ∈ found, P x

theorem only_ok {P : Text → Prop} {found : List Text} (h : ∀ x ∈ found, P x) :
    Only P (.ok found) := by
  intro found' he
  obtain rfl : found = found' := Except.ok.inj he
  exact h

theorem only_bind {α : Type} {P : Text → Prop} {r : Except Malformed α}
    {f : α → Except Malformed (List Text)} (h : ∀ a, Only P (f a)) : Only P (r >>= f) := by
  intro found he
  obtain ⟨a, -, ha⟩ := exists_of_bind he
  exact h a found ha

theorem only_mapM {α : Type} {P : Text → Prop} {f : α → Except Malformed (List Text)}
    (h : ∀ a, Only P (f a)) (xs : List α) {combine : List (List Text) → List Text}
    (hc : ∀ yss, ∀ x ∈ combine yss, x ∈ yss.flatten) :
    Only P (xs.mapM f >>= fun yss => pure (combine yss)) := by
  intro found he x hx
  obtain ⟨yss, hyss, he⟩ := exists_of_bind he
  obtain rfl : combine yss = found := Except.ok.inj he
  obtain ⟨ys, hys, hxys⟩ := List.mem_flatten.mp (hc yss x hx)
  obtain ⟨a, -, ha⟩ := exists_of_mem_mapM hyss ys hys
  exact h a ys ha x hxys

namespace Ground

/-! ### Files on the ground -/

/-- What is on the ground has names, and searches start in a folder. -/
structure Firm (g : Ground) : Prop where
  names : g.tree.Named
  root : ∀ l, g.root = some l → g.tree.get? l = some .folder

theorem root_below {t : FileTree} {root : Text} {l : Location} (h : (below t root).root = some l) :
    t.locate root = .ok l ∧ t.get? l = some .folder := by
  dsimp only [below] at h
  split at h
  · rename_i k hk
    split at h
    · rename_i he
      obtain rfl : k = l := Option.some.inj h
      exact ⟨hk, eq_of_beq he⟩
    · cases h
  · cases h

theorem firm_below {t : FileTree} (ht : t.Named) (root : Text) : (below t root).Firm :=
  ⟨ht, fun _ hl => (root_below hl).2⟩

/-- The path is written with the names on the way to a file. -/
structure HasFile (g : Ground) (name : Text) : Prop where
  plain : IsPlain name
  file : ∃ l c, g.root = some l ∧ g.tree.get? (l ++ components name) = some (.file c)

/-- The path is that of a file, maybe with a slash at the end. -/
def Shows (g : Ground) (path : Text) : Prop :=
  ∃ name, g.HasFile name ∧ (path = name ∨ path = name ++ [slash])

theorem HasFile.shows {g : Ground} {name : Text} (h : g.HasFile name) : g.Shows name :=
  ⟨name, h, Or.inl rfl⟩

/-- The names on the way from the root to the folder at a path. -/
def namesTo (folder : Text) : List Text := if folder = dot then [] else components folder

theorem isPlain_or_dot {path : Text} (h : isClean path = true) : path = dot ∨ IsPlain path := by
  rw [isClean, Bool.and_eq_true, Bool.or_eq_true, beq_iff_eq, List.all_eq_true] at h
  refine h.2.imp_right fun hall c hc => ?_
  have hc' := hall c hc
  simp only [Bool.and_eq_true, Bool.not_eq_true', List.isEmpty_eq_false_iff, bne_iff_ne] at hc'
  exact ⟨hc'.1.1, hc'.1.2, hc'.2, notMem_of_mem_components hc⟩

theorem location?_cases {g : Ground} {path : Text} {k : Location}
    (h : g.location? path = some k) :
    (path = dot ∨ IsPlain path) ∧ ∃ l, g.root = some l ∧ k = l ++ namesTo path := by
  rw [location?] at h
  split at h
  · cases h
  · rename_i l hl
    split at h
    · cases h
    · rename_i hclean
      refine ⟨isPlain_or_dot (by simpa using hclean), l, hl, ?_⟩
      by_cases hdot : path = dot
      · rw [if_pos (by simpa using hdot)] at h
        rw [namesTo, if_pos hdot, List.append_nil, Option.some.inj h]
      · rw [if_neg (by simpa using hdot)] at h
        rw [namesTo, if_neg hdot, Option.some.inj h]

theorem folder?_cases {g : Ground} {path : Text} {k : Location} (h : g.folder? path = some k) :
    (path = dot ∨ IsPlain path) ∧ ∃ l, g.root = some l ∧ k = l ++ namesTo path := by
  rw [folder?] at h
  split at h
  · rename_i hl
    split at h
    · rw [← Option.some.inj h]
      exact location?_cases hl
    · cases h
  · cases h

/-- The path of what is below a folder goes on from the names to the folder. -/
theorem pathIn_eq {folder : Text} (hf : folder = dot ∨ IsPlain folder) {names : List Text}
    (hn : names ≠ []) (h : ∀ c ∈ names, IsName c) :
    pathIn folder (join [slash] names) = join [slash] (namesTo folder ++ names) := by
  have hunder : pathIn folder (join [slash] names) = under folder (join [slash] names) := rfl
  rw [hunder, under_of_plain _ (isPlain_join hn h),
    components_join hn fun c hc => (h c hc).2.2.2]
  rcases hf with rfl | hf
  · rfl
  · have hdot : folder ≠ dot := by
      rintro rfl
      exact absurd hf (by decide)
    rw [isAbsolute_of_plain hf, lead_of_plain hf, namesTo, if_neg hdot]
    rfl

theorem hasFile_pathIn {g : Ground} (hg : g.Firm) {folder : Text} {k : Location}
    (hk : g.folder? folder = some k) {names : List Text} (hn : names ≠ []) {e : Entry}
    (he : (k ++ names, e) ∈ g.tree.entries) (hfile : e ≠ .folder) :
    g.HasFile (pathIn folder (join [slash] names)) := by
  obtain ⟨hfolder, l, hl, rfl⟩ := folder?_cases hk
  have hnames : ∀ c ∈ namesTo folder ++ names, IsName c := fun c hc =>
    hg.names _ he c (by rw [List.append_assoc]; exact List.mem_append_right l hc)
  have hne : namesTo folder ++ names ≠ [] := by simp [hn]
  rw [pathIn_eq hfolder hn fun c hc => hnames c (List.mem_append_right _ hc)]
  refine ⟨isPlain_join hne hnames, l, ?_⟩
  cases e with
  | folder => exact absurd rfl hfile
  | file c =>
    refine ⟨c, hl, ?_⟩
    rw [components_join hne fun c hc => (hnames c hc).2.2.2, ← List.append_assoc]
    exact FileTree.get?_of_mem he (by simp [hn])

/-! ### The parts of a search -/

/-- A path without special characters is listed as it is, but looked up without a slash at its
end. -/
theorem shows_of_literal {g : Ground} (hg : g.Firm) {path x : Text}
    (hx : x ∈ g.literal true path) : g.Shows x := by
  unfold literal at hx
  extract_lets name at hx
  have hpath : path = name ∨ path = name ++ [slash] := by
    by_cases hs : (path.length > 1 && path.getLast? == some slash) = true
    · have hname : name = path.dropLast := if_pos hs
      rw [Bool.and_eq_true, beq_iff_eq] at hs
      rw [hname]
      exact Or.inr (List.dropLast_append_getLast? slash hs.2).symm
    · have hname : name = path := if_neg hs
      exact Or.inl hname.symm
  cases he : g.get? name with
  | none => rw [he] at hx; cases hx
  | some e =>
    rw [he] at hx
    cases e with
    | folder => simp at hx
    | file c =>
      obtain rfl : x = path := by simpa using hx
      rw [Ground.get?, Option.bind_eq_some_iff] at he
      obtain ⟨k, hk, hc⟩ := he
      obtain ⟨hplain, l, hl, rfl⟩ := location?_cases hk
      by_cases hdot : name = dot
      · -- the root is a folder
        rw [namesTo, if_pos hdot, List.append_nil, hg.root l hl] at hc
        cases hc
      · rw [namesTo, if_neg hdot] at hc
        exact ⟨name, ⟨hplain.resolve_left hdot, l, c, hl, hc⟩, hpath⟩

theorem mem_of_mem_children {t : FileTree} {k : Location} {name : Text} {isFolder : Bool}
    (h : (name, isFolder) ∈ t.children k) :
    ∃ e, (k ++ [name], e) ∈ t.entries ∧ isFolder = (e == .folder) := by
  rw [FileTree.children, List.mem_filterMap] at h
  obtain ⟨⟨m, e⟩, he, hm⟩ := h
  dsimp only at hm
  split at hm
  · rename_i last hlast
    split at hm
    · rename_i hk
      obtain ⟨rfl, rfl⟩ : last = name ∧ (e == .folder) = isFolder := by simpa using hm
      refine ⟨e, ?_, rfl⟩
      rw [← eq_of_beq hk, List.dropLast_append_getLast? last hlast]
      exact he
    · cases hm
  · cases hm

theorem mem_of_mem_below {t : FileTree} {k names : Location} {isFolder : Bool}
    (h : (names, isFolder) ∈ t.below k) :
    names ≠ [] ∧ ∃ e, (k ++ names, e) ∈ t.entries ∧ isFolder = (e == .folder) := by
  rw [FileTree.below, List.mem_filterMap] at h
  obtain ⟨⟨m, e⟩, he, hm⟩ := h
  dsimp only at hm
  split at hm
  · rename_i hk
    rw [Bool.and_eq_true, List.isPrefixOf_iff_prefix, decide_eq_true_eq] at hk
    obtain ⟨⟨rest, rfl⟩, hlen⟩ := hk
    rw [List.drop_left] at hm
    obtain ⟨rfl, rfl⟩ : rest = names ∧ (e == .folder) = isFolder := by simpa using hm
    refine ⟨?_, e, he, rfl⟩
    rintro rfl
    simp at hlen
  · cases hm

theorem only_shows_named {g : Ground} (hg : g.Firm) (folder pattern : Text) :
    Only g.Shows (g.named true folder pattern) := by
  intro found h x hx
  rw [named] at h
  cases hk : g.folder? folder with
  | none =>
    rw [hk] at h
    obtain rfl : [] = found := Except.ok.inj h
    cases hx
  | some k =>
    rw [hk] at h
    obtain ⟨hits, hhits, h⟩ := exists_of_bind h
    obtain rfl := Except.ok.inj h
    obtain ⟨⟨name, isFolder⟩, hmem, rfl⟩ := List.mem_map.mp hx
    obtain ⟨hhit, hfile⟩ := List.mem_filter.mp hmem
    obtain ⟨e, he, rfl⟩ := mem_of_mem_children (mem_of_mem_filterM hhits hhit)
    exact (hasFile_pathIn hg hk (List.cons_ne_nil name []) he (by simpa using hfile)).shows

theorem shows_of_anyDepth {g : Ground} (hg : g.Firm) {folder x : Text}
    (hx : x ∈ g.anyDepth true folder) : g.Shows x := by
  rw [anyDepth] at hx
  cases hk : g.folder? folder with
  | none => rw [hk] at hx; cases hx
  | some k =>
    rw [hk] at hx
    obtain ⟨⟨names, isFolder⟩, hmem, rfl⟩ := List.mem_map.mp hx
    obtain ⟨hbelow, hkept⟩ := List.mem_filter.mp hmem
    obtain ⟨hne, e, he, rfl⟩ := mem_of_mem_below hbelow
    have hfile : e ≠ .folder := by
      rw [Bool.and_eq_true] at hkept
      simpa using hkept.2
    exact (hasFile_pathIn hg hk hne he hfile).shows

theorem only_shows_lastName {g : Ground} (hg : g.Firm) (folder pattern : Text) :
    Only g.Shows (g.lastName true folder pattern) := by
  rw [lastName]
  split
  · exact only_ok (by simp)
  · split
    · exact only_ok fun x => shows_of_anyDepth hg
    · exact only_shows_named hg folder pattern

/-- **A search for files finds files.** -/
theorem only_shows_search {g : Ground} (hg : g.Firm) (once : Bool) :
    ∀ (fuel : Nat) (pattern : Text), Only g.Shows (g.search once fuel true pattern) := by
  intro fuel
  induction fuel with
  | zero => exact fun pattern => only_ok (by simp)
  | succ fuel ih =>
    intro pattern
    -- the last name behind a slash, in each of the folders before it
    have hbehind : ∀ first j : Nat, Only g.Shows
        (if j ≤ first then g.lastName true (pattern.take j) (pattern.drop (j + 1))
        else do
          let folders ← g.search once fuel false (pattern.take j)
          return (← folders.mapM fun f => g.lastName true f (pattern.drop (j + 1))).flatten) := by
      intro first j
      split
      · exact only_shows_lastName hg _ _
      · exact only_bind fun folders =>
          only_mapM (fun f => only_shows_lastName hg f _) folders fun _ _ => id
    -- every member of a group, behind each of the folders before the group
    have hgroup : ∀ (folders group : List Text) (before after : Text), Only g.Shows do
        let each ← folders.mapM fun f => do
          let found ← group.mapM fun m => g.search once fuel true (memberPattern f before m after)
          return distinct found.flatten
        return if once then distinct each.flatten else each.flatten := by
      intro folders group before after
      refine only_mapM (fun f => only_mapM (fun m => ih _) group fun _ _ => mem_distinct.mp) folders
        fun each x hx => ?_
      split at hx
      · exact mem_distinct.mp hx
      · exact hx
    unfold search
    dsimp only
    split
    · exact only_ok fun x => shows_of_literal hg
    · rename_i first _
      split
      · exact only_shows_lastName hg _ _
      · rename_i i _
        split
        · exact hbehind first i
        · split
          · split
            · exact only_shows_lastName hg _ _
            · exact hbehind first _
          · split
            · exact hgroup [[]] _ _ _
            · exact only_bind fun folders => hgroup folders _ _ _

end Ground

/-- **What a pattern describes are files**, each written with the names on the way to it from the
folder that the search is below, and maybe with a slash at the end. -/
theorem only_shows_find {t : FileTree} (ht : t.Named) (root pattern : Text) :
    Only (Ground.below t root).Shows (find t root pattern) := by
  intro found h x hx
  obtain ⟨once, fuel, hits, hsearch, rfl⟩ := exists_search_of_find h
  exact Ground.only_shows_search (Ground.firm_below ht root) once fuel pattern hits hsearch x
    ((List.mergeSort_perm hits _).mem_iff.mp hx)

end Glob

end DateDisplay
