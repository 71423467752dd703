import DateDisplay.FileStore
import DateDisplay.Proofs.FileTree
import DateDisplay.Proofs.Text

/-!
# The file that a path names

A path below the base of a store is brought into its shortest form and then
looked up.  `place?` is the location that it leads to.  Different paths can lead to
one location; paths that do not are apart (`Apart`).

The three calls of a store see a tree through `place?`.  Whether a file is there
depends on the layout only (`contains_congr`), reading gives what is in the file,
and writing changes the file and nothing else, unless the call is made to fail.
-/

namespace DateDisplay

open Text

namespace FileStore

/-! ### Where the paths of a store lead -/

/-- The location that a path leads to, if it leads to one. -/
def place? (s : FileStore) (t : FileTree) (path : Text) : Option Location :=
  (t.locate (s.pathOf path)).toOption

theorem place?_eq_some_iff {s : FileStore} {t : FileTree} {path : Text} {l : Location} :
    s.place? t path = some l ↔ t.locate (s.pathOf path) = .ok l := by
  rw [place?]
  cases t.locate (s.pathOf path) with
  | error f => simp [Except.toOption]
  | ok l' => simp [Except.toOption]

theorem place?_congr {t t' : FileTree} (h : t.layout = t'.layout) (s : FileStore) (path : Text) :
    s.place? t path = s.place? t' path := by
  rw [place?, place?, FileTree.locate_congr h]

/-- The paths do not lead to one location. -/
def Apart (s : FileStore) (t : FileTree) (p q : Text) : Prop :=
  s.place? t p = none ∨ s.place? t p ≠ s.place? t q

instance (s : FileStore) (t : FileTree) (p q : Text) : Decidable (s.Apart t p q) :=
  inferInstanceAs (Decidable (_ ∨ _))

theorem Apart.ne {s : FileStore} {t : FileTree} {p q : Text} (h : s.Apart t p q) {l l' : Location}
    (hp : s.place? t p = some l) (hq : s.place? t q = some l') : l ≠ l' := by
  rintro rfl
  rcases h with hnone | hne
  · rw [hp] at hnone
    cases hnone
  · exact hne (hp.trans hq.symm)

theorem Apart.symm {s : FileStore} {t : FileTree} {p q : Text} (h : s.Apart t p q) :
    s.Apart t q p := by
  cases hq : s.place? t q with
  | none => exact Or.inl hq
  | some l => exact Or.inr fun he => h.ne (he.symm.trans hq) hq rfl

theorem apart_congr {t t' : FileTree} (h : t.layout = t'.layout) {s : FileStore} {p q : Text} :
    s.Apart t p q ↔ s.Apart t' p q := by
  rw [Apart, Apart, place?_congr h, place?_congr h]

/-! ### The calls -/

/-- There is a file with content `c` at location `l`, where the path leads. -/
def Names (s : FileStore) (t : FileTree) (path : Text) (l : Location) (c : Text) : Prop :=
  s.place? t path = some l ∧ t.get? l = some (.file c)

theorem eq_of_names {s : FileStore} {t : FileTree} {path : Text} {l l' : Location} {c c' : Text}
    (h : s.Names t path l c) (h' : s.Names t path l' c') : c = c' := by
  obtain rfl : l = l' := Option.some.inj (h.1.symm.trans h'.1)
  simpa using h.2.symm.trans h'.2

theorem lookup_of_names {s : FileStore} {t : FileTree} {path : Text} {l : Location} {c : Text}
    (h : s.Names t path l c) : t.lookup (s.pathOf path) = .ok (.file c) := by
  rw [FileTree.lookup, place?_eq_some_iff.mp h.1]
  simp only [bind, Except.bind, h.2]
  rfl

theorem names_of_lookup {s : FileStore} {t : FileTree} {path c : Text}
    (h : t.lookup (s.pathOf path) = .ok (.file c)) : ∃ l, s.Names t path l c := by
  rw [FileTree.lookup] at h
  cases hl : t.locate (s.pathOf path) with
  | error f => rw [hl] at h; cases h
  | ok l =>
    rw [hl] at h
    simp only [bind, Except.bind] at h
    cases he : t.get? l with
    | none => rw [he] at h; cases h
    | some e =>
      rw [he] at h
      obtain rfl : e = .file c := by simpa [pure, Except.pure] using h
      exact ⟨l, place?_eq_some_iff.mpr hl, he⟩

/-- A lookup in trees of one layout fails for the same reason, or finds files in
both or folders in both. -/
theorem lookup_cases {t t' : FileTree} (h : t.layout = t'.layout) (path : Text) :
    (∃ f, t.lookup path = .error f ∧ t'.lookup path = .error f) ∨
      (t.lookup path = .ok .folder ∧ t'.lookup path = .ok .folder) ∨
      ∃ c c', t.lookup path = .ok (.file c) ∧ t'.lookup path = .ok (.file c') := by
  rw [FileTree.lookup, FileTree.lookup, FileTree.locate_congr h]
  cases t'.locate path with
  | error f => exact Or.inl ⟨f, rfl, rfl⟩
  | ok l =>
    simp only [bind, Except.bind]
    rcases FileTree.kind_cases h l with ⟨he, he'⟩ | ⟨he, he'⟩ | ⟨c, c', he, he'⟩
    · rw [he, he']
      exact Or.inl ⟨_, rfl, rfl⟩
    · rw [he, he']
      exact Or.inr (Or.inl ⟨rfl, rfl⟩)
    · rw [he, he']
      exact Or.inr (Or.inr ⟨c, c', rfl, rfl⟩)

/-- **Whether there is a file depends on the layout only.** -/
theorem contains_congr {t t' : FileTree} (h : t.layout = t'.layout) (s : FileStore) (path : Text) :
    s.contains t path = s.contains t' path := by
  unfold contains FileTree.stat
  rcases lookup_cases h (s.pathOf path) with ⟨f, he, he'⟩ | ⟨he, he'⟩ | ⟨c, c', he, he'⟩
  · simp only [he, he']
  · simp only [he, he']
  · simp only [he, he']

theorem names_of_contains {s : FileStore} {t : FileTree} {path : Text}
    (h : s.contains t path = .ok true) : ∃ l c, s.Names t path l c := by
  unfold contains FileTree.stat at h
  split at h
  · cases h
  · cases hl : t.lookup (s.pathOf path) with
    | error f => rw [hl] at h; dsimp only at h; split at h <;> cases h
    | ok e =>
      rw [hl] at h
      cases e with
      | folder => cases h
      | file c =>
        obtain ⟨l, hn⟩ := names_of_lookup hl
        exact ⟨l, c, hn⟩

theorem contains_of_names {s : FileStore} {t : FileTree} {path : Text} {l : Location} {c : Text}
    (h : s.Names t path l c) {b : Bool} (hc : s.contains t path = .ok b) : b = true := by
  unfold contains FileTree.stat at hc
  rw [lookup_of_names h] at hc
  split at hc
  · cases hc
  · simpa using hc.symm

theorem read_of_names {s : FileStore} {t : FileTree} {path : Text} {l : Location} {c : Text}
    (h : s.Names t path l c) : s.read t path
      = match s.sabotage.reads path with | some m => .error (.imposed m) | none => .ok c := by
  cases hs : s.sabotage.reads path with
  | none => simp only [read, hs, FileTree.read, lookup_of_names h]
  | some m => simp only [read, hs]

theorem write_of_names {s : FileStore} {t : FileTree} {path : Text} {l : Location} {c : Text}
    (h : s.Names t path l c) (content : Text) : s.write t path content
      = match s.sabotage.writes path with
        | some m => .error (.imposed m)
        | none => .ok (t.setFile l content) := by
  cases hs : s.sabotage.writes path with
  | none => simp only [write, hs, FileTree.write, place?_eq_some_iff.mp h.1, h.2]
  | some m => simp only [write, hs]

/-! ### Calls that are not made to fail -/

/-- The store with no call made to fail. -/
def undisturbed (s : FileStore) : FileStore := { s with sabotage := {} }

theorem undisturbed_eq {s : FileStore} (h : s.sabotage = {}) : s.undisturbed = s := by
  rw [undisturbed, ← h]

theorem contains_undisturbed {s : FileStore} {t : FileTree} {path : Text} {b : Bool}
    (h : s.contains t path = .ok b) : s.undisturbed.contains t path = .ok b := by
  unfold contains at h
  split at h
  · cases h
  · exact h

theorem contains_undisturbed_of_names {s : FileStore} {t : FileTree} {path : Text} {l : Location}
    {c : Text} (h : s.Names t path l c) : s.undisturbed.contains t path = .ok true := by
  have hl : t.lookup (s.undisturbed.pathOf path) = .ok (.file c) := lookup_of_names h
  unfold contains FileTree.stat
  rw [hl]
  rfl

theorem not_names_of_contains {s : FileStore} {t : FileTree} {path : Text}
    (h : s.undisturbed.contains t path = .ok false) (l : Location) (c : Text) :
    ¬s.Names t path l c := by
  intro hn
  rw [contains_undisturbed_of_names hn] at h
  cases h

/-! ### New content where a path leads -/

theorem place?_setFile {s : FileStore} {t : FileTree} {path : Text} {l : Location} {c : Text}
    (h : s.Names t path l c) (u q : Text) : s.place? (t.setFile l u) q = s.place? t q :=
  place?_congr (FileTree.layout_setFile h.2 u) s q

theorem names_setFile_self {s : FileStore} {t : FileTree} {path : Text} {l : Location} {c : Text}
    (h : s.Names t path l c) (u : Text) : s.Names (t.setFile l u) path l u :=
  ⟨(place?_setFile h u path).trans h.1, FileTree.get?_setFile_self h.2 u⟩

/-! ### Trees that look the same from a path -/

/-- Two trees have one layout, and the same entry where the path leads. -/
structure Agree (s : FileStore) (t t' : FileTree) (path : Text) : Prop where
  layout : t.layout = t'.layout
  entry : ∀ l, s.place? t path = some l → t.get? l = t'.get? l

namespace Agree

variable {s : FileStore} {t t' t'' : FileTree} {path : Text}

theorem refl (s : FileStore) (t : FileTree) (path : Text) : s.Agree t t path :=
  ⟨rfl, fun _ _ => rfl⟩

theorem symm (h : s.Agree t t' path) : s.Agree t' t path := by
  refine ⟨h.layout.symm, fun l hl => ?_⟩
  rw [place?_congr h.layout.symm] at hl
  exact (h.entry l hl).symm

theorem trans (h : s.Agree t t' path) (h' : s.Agree t' t'' path) : s.Agree t t'' path := by
  refine ⟨h.layout.trans h'.layout, fun l hl => ?_⟩
  have hl' := hl
  rw [place?_congr h.layout] at hl'
  exact (h.entry l hl).trans (h'.entry l hl')

theorem names (h : s.Agree t t' path) {l : Location} {c : Text} (hn : s.Names t path l c) :
    s.Names t' path l c := by
  refine ⟨?_, ?_⟩
  · rw [← place?_congr h.layout]
    exact hn.1
  · rw [← h.entry l hn.1]
    exact hn.2

end Agree

/-- **A change of one file is not seen from a path to another.** -/
theorem agree_setFile {s : FileStore} {t : FileTree} {p q : Text} {l : Location} {c : Text}
    (hn : s.Names t p l c) (hpq : s.Apart t p q) (u : Text) : s.Agree t (t.setFile l u) q := by
  refine ⟨(FileTree.layout_setFile hn.2 u).symm, fun l' hl' => ?_⟩
  rw [FileTree.get?_setFile_of_ne hn.2 u (hpq.ne hn.1 hl').symm]

end FileStore

end DateDisplay
