import DateDisplay.Proofs.Matches

/-!
# Why a path leads to no file

In a tree of files and folders a path in its shortest form leads to no file for one of four
reasons: nothing is there, nothing is on the way there, it is a folder, or a file stands on the way
where a folder is asked for.  The first two are told as one fault and the last as another one
(`lookup_of_through`, `lookup_of_not_through`), if the path can be looked up at all, that is, if it
has no NUL byte in it and is not too long.

A shortest form first goes up from where it starts, which always leads to a folder, and then down
along names (`locate_clean`).  So only the names have to be followed.

What a search finds is there (`names_of_shows`).
-/

namespace DateDisplay

open Text DateDisplay.Path

/-- The path can be looked up: it has no NUL byte in it, and neither the path nor any of its
components is too long. -/
structure Path.Fits (path : Text) : Prop where
  noNul : 0 ∉ path
  length : path.length < FileTree.maxPath
  names : ∀ c ∈ components path, c.length ≤ FileTree.maxName

instance (path : Text) : Decidable (Fits path) :=
  decidable_of_iff (0 ∉ path ∧ path.length < FileTree.maxPath ∧
    ∀ c ∈ components path, c.length ≤ FileTree.maxName)
    ⟨fun h => ⟨h.1, h.2.1, h.2.2⟩, fun h => ⟨h.1, h.2, h.3⟩⟩

namespace FileTree

/-- All that is listed has a name and is in a folder, and the working folder is one. -/
structure Sound (t : FileTree) : Prop where
  names : t.Named
  folders : ∀ e ∈ t.entries, t.get? e.1.dropLast = some .folder
  here : t.get? t.here = some .folder

instance (t : FileTree) : Decidable t.Sound :=
  decidable_of_iff (t.Named ∧ (∀ e ∈ t.entries, t.get? e.1.dropLast = some .folder) ∧
    t.get? t.here = some .folder) ⟨fun h => ⟨h.1, h.2.1, h.2.2⟩, fun h => ⟨h.1, h.2, h.3⟩⟩

/-- The location that a path names, read without looking at any file. -/
def target (t : FileTree) (path : Text) : Location :=
  ((components path).foldl (push true) (t.origin path).reverse).reverse

/-- A file stands on the way, where the path asks for a folder. -/
def Through (t : FileTree) (path : Text) : Prop :=
  ∃ l c, t.get? l = some (.file c) ∧ l <+: t.target path ∧ l ≠ t.target path

variable {t : FileTree}

theorem mem_of_get? {l : Location} {e : Entry} (h : t.get? l = some e) (hl : l ≠ []) :
    (l, e) ∈ t.entries := by
  rw [get?, if_neg (by simpa using hl), Option.map_eq_some_iff] at h
  obtain ⟨x, hx, rfl⟩ := h
  have hxl : x.1 = l := by simpa using List.find?_some hx
  rw [← hxl]
  exact List.mem_of_find?_eq_some hx

theorem through_iff {path : Text} : t.Through path ↔ ∃ e ∈ t.entries,
    e.1 ≠ [] ∧ e.2 ≠ .folder ∧ e.1 <+: t.target path ∧ e.1 ≠ t.target path := by
  constructor
  · rintro ⟨l, c, hl, hstart, hne⟩
    have hempty := ne_nil_of_file hl
    exact ⟨(l, .file c), mem_of_get? hl hempty, hempty, by simp, hstart, hne⟩
  · rintro ⟨⟨l, e⟩, he, hempty, hfile, hstart, hne⟩
    cases e with
    | folder => exact absurd rfl hfile
    | file c => exact ⟨l, c, get?_of_mem he hempty, hstart, hne⟩

instance (path : Text) : Decidable (t.Through path) := decidable_of_iff _ through_iff.symm

theorem Sound.isName (ht : t.Sound) {l : Location} {e : Entry} (h : t.get? l = some e) :
    ∀ c ∈ l, IsName c := by
  intro c hc
  exact ht.names _ (mem_of_get? h (List.ne_nil_of_mem hc)) c hc

/-- **Where something is, there are folders all the way.** -/
theorem Sound.folder_above (ht : t.Sound) : ∀ {k : Location} {e : Entry}, t.get? k = some e →
    ∀ l, l <+: k → l ≠ k → t.get? l = some .folder := by
  intro k
  induction k using List.reverseRecOn with
  | nil => intro e _ l hl hne; exact absurd (List.prefix_nil.mp hl) hne
  | append_singleton k c ih =>
    intro e he l hl hne
    have hfolder := ht.folders _ (mem_of_get? he (by simp))
    rw [List.dropLast_concat] at hfolder
    have hlk : l <+: k := (List.prefix_concat_iff.mp hl).resolve_left hne
    by_cases heq : l = k
    · rw [heq]
      exact hfolder
    · exact ih hfolder l hlk heq

/-! ### The way along names -/

theorem step_folder {l : Location} (hl : t.get? l = some .folder) {c : Text} (hc : IsName c)
    (hlen : c.length ≤ maxName) : t.step l c = .ok (l ++ [c]) := by
  unfold step
  simp only [hl]
  rw [if_neg (by simp [hc.1, hc.2.1]), if_neg (by simp [hc.2.2.1]), if_neg (by omega)]

theorem walk_cons_folder {l : Location} (hl : t.get? l = some .folder) {c : Text} (hc : IsName c)
    (hlen : c.length ≤ maxName) (names : List Text) :
    t.walk l (c :: names) = t.walk (l ++ [c]) names := by
  rw [walk_cons, step_folder hl hc hlen]
  rfl

theorem walk_folders : ∀ {names : List Text} {l : Location},
    (∀ c ∈ names, IsName c ∧ c.length ≤ maxName) →
    (∀ k, l <+: k → k <+: l ++ names → k ≠ l ++ names → t.get? k = some .folder) →
      t.walk l names = .ok (l ++ names) := by
  intro names
  induction names with
  | nil => intro l _ _; rw [List.append_nil]; rfl
  | cons c names ih =>
    intro l hnames hfolders
    rw [List.forall_mem_cons] at hnames
    have hl : t.get? l = some .folder :=
      hfolders l (List.prefix_refl l) (List.prefix_append l _) (by simp)
    have happend : l ++ [c] ++ names = l ++ c :: names := by simp
    rw [walk_cons_folder hl hnames.1.1 hnames.1.2, ← happend]
    refine ih hnames.2 fun k hk hk' hne => ?_
    rw [happend] at hk' hne
    exact hfolders k ((List.prefix_append l [c]).trans hk) hk' hne

/-- Names lead to their end, or to where nothing is, or to a file before the end. -/
theorem walk_cases : ∀ {names : List Text} (l : Location),
    (∀ c ∈ names, IsName c ∧ c.length ≤ maxName) →
    t.walk l names = .ok (l ++ names) ∨ t.walk l names = .error .notFound ∨
      ∃ k c, t.get? (l ++ k) = some (.file c) ∧ k <+: names ∧ k ≠ names := by
  intro names
  induction names with
  | nil => intro l _; rw [List.append_nil]; exact Or.inl rfl
  | cons d names ih =>
    intro l hnames
    rw [List.forall_mem_cons] at hnames
    cases he : t.get? l with
    | none =>
      refine Or.inr (Or.inl ?_)
      rw [walk_cons]
      simp only [step, he]
      rfl
    | some e =>
      cases e with
      | file c => exact Or.inr (Or.inr ⟨[], c, by rwa [List.append_nil], List.nil_prefix, by simp⟩)
      | folder =>
        rw [walk_cons_folder he hnames.1.1 hnames.1.2]
        rcases ih (l ++ [d]) hnames.2 with hok | hnone | ⟨k, c, hk, hstart, hne⟩
        · exact Or.inl (by rw [hok]; simp)
        · exact Or.inr (Or.inl hnone)
        · refine Or.inr (Or.inr ⟨d :: k, c, by simpa using hk, ?_, by simpa using hne⟩)
          exact (List.prefix_cons_inj d).mpr hstart

theorem walk_ups (ht : t.Sound) : ∀ {ups : List Text} {l : Location}, (∀ c ∈ ups, c = dotdot) →
    t.get? l = some .folder → ∃ m, t.get? m = some .folder ∧ t.walk l ups = .ok m ∧
      ups.foldl (push true) l.reverse = m.reverse := by
  intro ups
  induction ups with
  | nil => intro l _ hl; exact ⟨l, hl, rfl, rfl⟩
  | cons c ups ih =>
    intro l hups hl
    rw [List.forall_mem_cons] at hups
    obtain ⟨rfl, hups⟩ := hups
    have hstep : t.step l dotdot = .ok l.dropLast := by
      unfold step
      rw [hl]
      rfl
    have habove : t.get? l.dropLast = some .folder ∧
        push true l.reverse dotdot = l.dropLast.reverse := by
      rcases List.eq_nil_or_concat' l with rfl | ⟨front, top, rfl⟩
      · exact ⟨rfl, rfl⟩
      · have htop : top ≠ dotdot := (ht.isName hl top (by simp)).2.2.1
        rw [List.dropLast_concat, List.reverse_concat, push_dotdot htop]
        exact ⟨ht.folder_above hl front (List.prefix_append _ _) (by simp), rfl⟩
    obtain ⟨m, hm, hwalk, hpush⟩ := ih hups habove.1
    refine ⟨m, hm, ?_, by rw [List.foldl_cons, habove.2, hpush]⟩
    rw [walk_cons, hstep]
    exact hwalk

theorem foldl_push_stay {stay : List Text} (h : ∀ c ∈ stay, c = [] ∨ c = dot)
    (stack : List Text) : stay.foldl (push true) stack = stack := by
  induction stay with
  | nil => rfl
  | cons c stay ih =>
    rw [List.forall_mem_cons] at h
    have hpush : push true stack c = stack := if_pos (by simpa using h.1)
    rw [List.foldl_cons, hpush, ih h.2]

/-! ### Looking up a path -/

theorem locate_of_fits {path : Text} (hf : Fits path) (hne : path ≠ []) :
    t.locate path = t.walk (t.origin path) (components path) := by
  have hlen := hf.length
  rw [locate, if_neg (by simpa using hf.noNul), if_neg (by simpa using hne), if_neg (by omega)]

theorem Sound.folder_origin (ht : t.Sound) (path : Text) :
    t.get? (t.origin path) = some .folder := by
  rw [origin]
  split
  · rfl
  · exact ht.here

/-- **A path in its shortest form goes down from a folder along names.** -/
theorem locate_clean (ht : t.Sound) {path : Text} (hf : Fits (clean path)) :
    ∃ l names, t.get? l = some .folder ∧ (∀ c ∈ names, IsName c ∧ c.length ≤ maxName) ∧
      t.locate (clean path) = t.walk l names ∧ t.target (clean path) = l ++ names := by
  obtain ⟨stay, hstay, hcomponents⟩ := components_clean path
  obtain ⟨ups, names, hway, hups, hnames⟩ := isShort_way path
  have horigin := ht.folder_origin (clean path)
  obtain ⟨l, hl, hwalk, hpush⟩ := walk_ups ht hups horigin
  rw [hway] at hcomponents
  refine ⟨l, names, hl, fun c hc => ⟨hnames c hc, hf.names c ?_⟩, ?_, ?_⟩
  · rw [hcomponents]
    simp [hc]
  · rw [locate_of_fits hf (clean_ne_nil path), hcomponents, walk_stay horigin hstay, walk_append,
      hwalk]
    rfl
  · rw [target, hcomponents, List.foldl_append, foldl_push_stay hstay, List.foldl_append, hpush,
      foldl_push_names true _ hnames, List.reverse_append, List.reverse_reverse,
      List.reverse_reverse]

theorem lookup_of_locate_error {path : Text} {f : PathFault} (h : t.locate path = .error f) :
    t.lookup path = .error f := by
  rw [lookup, h]
  rfl

/-- **A file on the way** is told as the fault that it is no folder. -/
theorem lookup_of_through (ht : t.Sound) {path : Text} (hf : Fits (clean path))
    (h : t.Through (clean path)) : t.lookup (clean path) = .error .notFolder := by
  obtain ⟨l, names, hl, hnames, hlocate, htarget⟩ := locate_clean ht hf
  obtain ⟨f, c, hfile, hstart, hne⟩ := h
  rw [htarget] at hstart hne
  -- above the folder there are folders only, so the file is further down
  have hbelow : l <+: f := by
    refine (List.prefix_or_prefix_of_prefix hstart (List.prefix_append l names)).resolve_left
      fun hfl => ?_
    have hfolder : t.get? f = some .folder := by
      by_cases he : f = l
      · rw [he]
        exact hl
      · exact ht.folder_above hl f hfl he
    rw [hfile] at hfolder
    cases hfolder
  obtain ⟨k, rfl⟩ := hbelow
  obtain ⟨rest, rfl⟩ := (List.prefix_append_right_inj l).mp hstart
  cases rest with
  | nil => exact absurd (by rw [List.append_nil]) hne
  | cons d rest =>
    have hway : t.walk l k = .ok (l ++ k) :=
      walk_folders (fun x hx => hnames x (by simp [hx])) fun x _ hx hxne =>
        ht.folder_above hfile x hx hxne
    have hstop : t.step (l ++ k) d = .error .notFolder := by
      unfold step
      rw [hfile]
    refine lookup_of_locate_error ?_
    rw [hlocate, walk_append, hway]
    show t.walk (l ++ k) (d :: rest) = _
    rw [walk_cons, hstop]
    rfl

/-- **Without a file on the way** the shortest form of a path leads to something, or nothing is
found. -/
theorem lookup_of_not_through (ht : t.Sound) {path : Text} (hf : Fits (clean path))
    (h : ¬t.Through (clean path)) :
    (∃ e, t.lookup (clean path) = .ok e) ∨ t.lookup (clean path) = .error .notFound := by
  obtain ⟨l, names, -, hnames, hlocate, htarget⟩ := locate_clean ht hf
  rcases walk_cases l hnames with hok | hnone | ⟨k, c, hk, hstart, hne⟩
  · rw [lookup, hlocate, hok]
    simp only [bind, Except.bind]
    cases t.get? (l ++ names) with
    | some e => exact Or.inl ⟨e, rfl⟩
    | none => exact Or.inr rfl
  · exact Or.inr (lookup_of_locate_error (hlocate.trans hnone))
  · refine absurd ⟨l ++ k, c, hk, ?_, ?_⟩ h
    · rw [htarget]
      exact (List.prefix_append_right_inj l).mpr hstart
    · rw [htarget]
      simpa using hne

end FileTree

/-! ### Files that were found -/

theorem FileTree.locate_under {t : FileTree} (ht : t.Sound) {root x : Text} {l : Location}
    (hroot : t.locate root = .ok l) (hx : IsPlain x) {c : Text}
    (hfile : t.get? (l ++ components x) = some (.file c)) (hf : Fits (under (clean root) x)) :
    t.locate (under (clean root) x) = .ok (l ++ components x) := by
  have hfolder : t.walk (t.origin root) (components (clean root)) = .ok l :=
    walk_components_clean (walk_of_locate hroot)
  obtain ⟨front, hfront⟩ := components_under (clean root)
  have hlong : ∀ d ∈ components x, d.length ≤ maxName := fun d hd =>
    hf.names d (by rw [hfront hx]; exact List.mem_append_right _ hd)
  have hdown : t.walk l (components x) = .ok (l ++ components x) :=
    walk_folders (fun d hd => ⟨hx d hd, hlong d hd⟩) fun k _ hk hne =>
      ht.folder_above hfile k hk hne
  have horigin : t.origin (clean root ++ slash :: x) = t.origin root := by
    rw [← origin_clean root, origin, origin, isAbsolute, isAbsolute,
      List.head?_append_of_ne_nil _ (clean_ne_nil root)]
  have hwalk : t.walk (t.origin (clean root ++ slash :: x)) (components (clean root ++ slash :: x))
      = .ok (l ++ components x) := by
    rw [horigin, components_append, walk_append, hfolder]
    exact hdown
  rw [locate_of_fits hf (clean_ne_nil _), under, origin_clean]
  exact walk_components_clean hwalk

/-- **What a search finds is there**, if its path can be looked up. -/
theorem FileStore.names_of_shows {s : FileStore} {t : FileTree} (ht : t.Sound) {root x : Text}
    (hs : s.base = clean root) (hf : Fits (s.pathOf x))
    (hx : (Glob.Ground.below t root).Shows x) : ∃ l c, s.Names t x l c := by
  obtain ⟨name, ⟨hplain, l, c, hl, hfile⟩, hx⟩ := hx
  have hpath : s.pathOf x = under (clean root) name := by
    rw [pathOf, hs]
    rcases hx with rfl | rfl
    · rfl
    · exact under_concat_slash _ _
  rw [hpath] at hf
  refine ⟨_, c, place?_eq_some_iff.mpr ?_, hfile⟩
  rw [hpath]
  exact FileTree.locate_under ht (Glob.Ground.root_below hl).1 hplain hfile hf

end DateDisplay
