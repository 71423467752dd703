import DateDisplay.Proofs.Expansion
import Mathlib.Data.List.Forall2

/-!
# The order of an expanded list

The entries of a plan's file list are taken one after the other, and a path is listed where it
comes up first.  So the place of a path is told by the first entry that yields it, and among the
paths that one pattern is the first to yield by their bytes (`pairwise_listedBefore`).  What comes
later in the list of entries adds to the end of the expanded list (`prefix_of_expand`).

`expansion_follows_entries` puts this together with the one way to fail: if a search comes to an
end for every valid pattern, the first entry that is no valid one stops the expansion.
-/

namespace DateDisplay

open Text
open scoped List

namespace Text

/-! ### Texts in order -/

theorem lt_iff : ∀ {s t : Text}, lt s t = true ↔ s < t := by
  intro s
  induction s with
  | nil =>
    intro t
    cases t with
    | nil => simp [lt]
    | cons b t => simp [lt]
  | cons a s ih =>
    intro t
    cases t with
    | nil => simp [lt]
    | cons b t => simp [lt, ih, List.cons_lt_cons_iff]

theorem pairwise_sorted (ts : List Text) : (sorted ts).Pairwise (· ≤ ·) := by
  have hle : ∀ {a b : Text}, (!lt b a) = true ↔ a ≤ b := by
    intro a b
    rw [Bool.not_eq_true', ← Bool.not_eq_true, lt_iff, List.not_lt]
  have h : (sorted ts).Pairwise fun a b => (!lt b a) = true := by
    apply List.pairwise_mergeSort
    · intro a b c hab hbc
      rw [hle] at hab hbc ⊢
      exact List.le_trans hab hbc
    · intro a b
      rw [Bool.or_eq_true, hle, hle]
      exact List.le_total a b
  exact h.imp hle.mp

theorem sorted_eq {ts us : List Text} (hus : us.Pairwise (· ≤ ·)) (h : ts.Perm us) :
    sorted ts = us := by
  have hperm : (sorted ts).Perm us := (List.mergeSort_perm ts _).trans h
  exact hperm.eq_of_pairwise (fun _ _ _ _ => List.le_antisymm) (pairwise_sorted ts) hus

theorem distinct_sublist : ∀ ts : List Text, distinct ts <+ ts := by
  intro ts
  induction ts with
  | nil => exact List.Sublist.slnil
  | cons t ts ih => exact (List.filter_sublist.trans ih).cons_cons t

theorem pairwise_lt_distinct {ts : List Text} (h : ts.Pairwise (· ≤ ·)) :
    (distinct ts).Pairwise (· < ·) := by
  have hne : (distinct ts).Pairwise (· ≠ ·) := nodup_distinct ts
  refine ((h.sublist (distinct_sublist ts)).and hne).imp fun {a b} hab => ?_
  rcases List.le_iff_lt_or_eq.mp hab.1 with hlt | heq
  · exact hlt
  · exact absurd heq hab.2

theorem pair_sublist_iff {R : Text → Text → Prop} {l : List Text} (h : l.Pairwise R)
    (hasymm : ∀ x y, R x y → ¬R y x) {x y : Text} (hx : x ∈ l) (hy : y ∈ l) :
    [x, y] <+ l ↔ R x y := by
  constructor
  · exact List.pairwise_iff_forall_sublist.mp h
  · intro hxy
    obtain ⟨u, v, rfl⟩ := List.append_of_mem hx
    have hne : y ≠ x := by
      rintro rfl
      exact hasymm y y hxy hxy
    rcases List.mem_append.mp hy with hu | hv
    · have hyx : [y, x] <+ u ++ x :: v :=
        (List.singleton_sublist.mpr hu).append (List.singleton_sublist.mpr (by simp))
      exact absurd (List.pairwise_iff_forall_sublist.mp h hyx) (hasymm x y hxy)
    · have hmem : y ∈ v := (List.mem_cons.mp hv).resolve_left hne
      exact ((List.singleton_sublist.mpr hmem).cons_cons x).trans (List.sublist_append_right u _)

end Text

theorem Glob.pairwise_of_find {t : FileTree} {root pattern : Text} {found : List Text}
    (h : Glob.find t root pattern = .ok found) : found.Pairwise (· ≤ ·) := by
  obtain ⟨-, -, hits, -, rfl⟩ := exists_search_of_find h
  exact pairwise_sorted hits

namespace Plan

/-! ### Entries one by one -/

/-- The entry is meant as a pattern but is no valid one. -/
def isRejected (entry : Text) : Bool := Glob.isPattern entry && !Glob.isValid entry

/-- The entry yields the path: it is the path itself, or a pattern that describes it. -/
def yields (t : FileTree) (root entry path : Text) : Bool :=
  if Glob.isPattern entry then
    match Glob.find t root entry with
    | .ok found => found.contains path
    | .error _ => false
  else path == entry

/-- The number of the first entry that yields the path. -/
def firstEntry (t : FileTree) (root : Text) (entries : List Text) (path : Text) : Nat :=
  entries.findIdx fun e => yields t root e path

/-- The path `x` comes up before `y`: an earlier entry yields it, or the same pattern does and it
is the smaller one. -/
def ListedBefore (t : FileTree) (root : Text) (entries : List Text) (x y : Text) : Prop :=
  firstEntry t root entries x < firstEntry t root entries y ∨
    firstEntry t root entries x = firstEntry t root entries y ∧ x < y

theorem ListedBefore.asymm {t : FileTree} {root : Text} {entries : List Text} {x y : Text}
    (h : ListedBefore t root entries x y) : ¬ListedBefore t root entries y x := by
  rintro (hlt | ⟨heq, hyx⟩)
  · rcases h with h | ⟨h, -⟩
    · omega
    · omega
  · rcases h with h | ⟨-, hxy⟩
    · omega
    · exact List.lt_asymm hxy hyx

variable {t : FileTree} {root : Text}

theorem entryPaths_of_rejected {find : Text → Except Glob.Malformed (List Text)} {e : Text}
    (h : isRejected e = true) : entryPaths find e = .error (.invalid e) := by
  rw [isRejected, Bool.and_eq_true] at h
  rw [entryPaths, h.1, h.2]
  rfl

theorem exists_entryPaths {find : Text → Except Glob.Malformed (List Text)} {e : Text}
    (h : isRejected e = false)
    (hfind : Glob.isPattern e = true → Glob.isValid e = true → ∃ found, find e = .ok found) :
    ∃ paths, entryPaths find e = .ok paths := by
  cases hp : Glob.isPattern e with
  | false => exact ⟨[e], by rw [entryPaths, hp]; rfl⟩
  | true =>
    have hv : Glob.isValid e = true := by simpa [isRejected, hp] using h
    obtain ⟨found, hf⟩ := hfind hp hv
    exact ⟨found, by rw [entryPaths, hp, hv, hf]; rfl⟩

theorem paths_of_entryPaths {e : Text} {paths : List Text}
    (h : entryPaths (Glob.find t root) e = .ok paths) :
    paths.Pairwise (· ≤ ·) ∧ ∀ x, x ∈ paths ↔ yields t root e x = true := by
  rw [entryPaths] at h
  cases hp : Glob.isPattern e with
  | false =>
    obtain rfl : [e] = paths := by simpa [hp] using h
    exact ⟨List.pairwise_singleton _ e, fun x => by simp [yields, hp]⟩
  | true =>
    rw [hp] at h
    cases hv : Glob.isValid e with
    | false => rw [hv] at h; cases h
    | true =>
      rw [hv] at h
      cases hf : Glob.find t root e with
      | error f => rw [hf] at h; cases h
      | ok found =>
        rw [hf] at h
        obtain rfl : found = paths := Except.ok.inj h
        exact ⟨Glob.pairwise_of_find hf, fun x => by simp [yields, hp, hf]⟩

/-! ### The entries of a list -/

theorem expandEntries_cons {find : Text → Except Glob.Malformed (List Text)} {e : Text}
    {paths : List Text} (h : entryPaths find e = .ok paths) (es : List Text) :
    (expandEntries find (e :: es)).2 = (expandEntries find es).2.map (paths :: ·) := by
  rw [expandEntries, h]

theorem expandEntries_eq_ok_iff {find : Text → Except Glob.Malformed (List Text)} :
    ∀ {es : List Text} {ps : List (List Text)}, (expandEntries find es).2 = .ok ps ↔
      List.Forall₂ (fun e paths => entryPaths find e = .ok paths) es ps := by
  intro es
  induction es with
  | nil => intro ps; simp [expandEntries, eq_comm]
  | cons e es ih =>
    intro ps
    rw [List.forall₂_cons_left_iff]
    cases he : entryPaths find e with
    | error f => simp [expandEntries, he]
    | ok paths =>
      simp only [← ih, Except.ok.injEq, expandEntries_cons he]
      cases (expandEntries find es).2 with
      | error f => simp [Except.map]
      | ok rest => simp [Except.map, eq_comm]

/-- **The first entry that is rejected stops the expansion**, if the valid patterns can be searched
for. -/
theorem expandEntries_eq_error_iff {find : Text → Except Glob.Malformed (List Text)}
    {f : ExpansionFault} : ∀ {es : List Text},
    (∀ e ∈ es, Glob.isPattern e = true → Glob.isValid e = true → ∃ found, find e = .ok found) →
    ((expandEntries find es).2 = .error f ↔
      ∃ e, es.find? isRejected = some e ∧ f = .invalid e) := by
  intro es
  induction es with
  | nil => intro _; simp [expandEntries]
  | cons e es ih =>
    intro hfind
    rw [List.forall_mem_cons] at hfind
    cases hr : isRejected e with
    | true =>
      rw [expandEntries, entryPaths_of_rejected hr, List.find?_cons_of_pos hr]
      simp [eq_comm]
    | false =>
      obtain ⟨paths, hpaths⟩ := exists_entryPaths hr hfind.1
      rw [expandEntries_cons hpaths, List.find?_cons_of_neg (by simp [hr]), ← ih hfind.2]
      cases (expandEntries find es).2 with
      | error g => simp [Except.map]
      | ok rest => simp [Except.map]

theorem firstEntry_cons (t : FileTree) (root : Text) (e : Text) (es : List Text) (x : Text) :
    firstEntry t root (e :: es) x =
      if yields t root e x = true then 0 else firstEntry t root es x + 1 := by
  rw [firstEntry, List.findIdx_cons, firstEntry]
  cases yields t root e x <;> rfl

/-- **The paths are listed by the first entries that yield them.**  The paths of the first entry
come first, in their order.  The others keep the order that they have without it. -/
theorem pairwise_listedBefore {es : List Text} {ps : List (List Text)}
    (h : List.Forall₂ (fun e paths => entryPaths (Glob.find t root) e = .ok paths) es ps) :
    (distinct ps.flatten).Pairwise (ListedBefore t root es) := by
  induction h with
  | nil => exact List.Pairwise.nil
  | @cons e paths es ps he _ ih =>
    obtain ⟨hsorted, hmem⟩ := paths_of_entryPaths he
    have hzero : ∀ x ∈ distinct paths, firstEntry t root (e :: es) x = 0 := by
      intro x hx
      rw [firstEntry_cons, if_pos ((hmem x).mp (mem_distinct.mp hx))]
    have hsucc : ∀ x ∉ paths, firstEntry t root (e :: es) x = firstEntry t root es x + 1 := by
      intro x hx
      rw [firstEntry_cons, if_neg fun hy => hx ((hmem x).mpr hy)]
    rw [List.flatten_cons, distinct_append, List.pairwise_append]
    refine ⟨?_, ?_, ?_⟩
    · refine (pairwise_lt_distinct hsorted).imp_of_mem fun {x y} hx hy hlt => Or.inr ⟨?_, hlt⟩
      rw [hzero x hx, hzero y hy]
    · refine (ih.filter _).imp_of_mem fun {x y} hx hy hxy => ?_
      have hx' := hsucc x (by simpa using (List.mem_filter.mp hx).2)
      have hy' := hsucc y (by simpa using (List.mem_filter.mp hy).2)
      rw [ListedBefore, hx', hy']
      exact hxy.imp (by omega) (And.imp_left (by omega))
    · intro x hx y hy
      refine Or.inl ?_
      rw [hzero x hx, hsucc y (by simpa using (List.mem_filter.mp hy).2)]
      omega

theorem mem_flatten_iff {es : List Text} {ps : List (List Text)} {x : Text}
    (h : List.Forall₂ (fun e paths => entryPaths (Glob.find t root) e = .ok paths) es ps) :
    x ∈ ps.flatten ↔ ∃ e ∈ es, yields t root e x = true := by
  induction h with
  | nil => simp
  | cons he _ ih =>
    rw [List.flatten_cons, List.mem_append, ih, (paths_of_entryPaths he).2 x]
    simp

/-- What more entries add is behind the paths of the first ones. -/
theorem exists_append_of_entries {es more : List Text} {ps qs : List (List Text)}
    (h : List.Forall₂ (fun e paths => entryPaths (Glob.find t root) e = .ok paths) es ps)
    (h' : List.Forall₂ (fun e paths => entryPaths (Glob.find t root) e = .ok paths)
      (es ++ more) qs) :
    ∃ rs, qs = ps ++ rs := by
  induction h generalizing qs with
  | nil => exact ⟨qs, rfl⟩
  | cons he _ ih =>
    rw [List.cons_append, List.forall₂_cons_left_iff] at h'
    obtain ⟨paths', qs, he', hqs, rfl⟩ := h'
    obtain ⟨rs, rfl⟩ := ih hqs
    rw [Except.ok.inj (he'.symm.trans he)]
    exact ⟨rs, rfl⟩

/-! ### Expanded lists -/

theorem snd_expand (p : Plan) (t : FileTree) (root : Text) : (p.expand t root).2 =
    (expandEntries (Glob.find t root) p.entries).2.map fun ps => distinct ps.flatten := rfl

theorem expand_eq_ok_iff {p : Plan} {files : List Text} : (p.expand t root).2 = .ok files ↔
    ∃ ps, List.Forall₂ (fun e paths => entryPaths (Glob.find t root) e = .ok paths) p.entries ps ∧
      files = distinct ps.flatten := by
  simp only [← expandEntries_eq_ok_iff, snd_expand]
  cases (expandEntries (Glob.find t root) p.entries).2 with
  | error f => simp [Except.map]
  | ok ps => simp [Except.map, eq_comm]

theorem mem_iff_yields {p : Plan} {files : List Text} (h : (p.expand t root).2 = .ok files)
    {x : Text} : x ∈ files ↔ ∃ e ∈ p.entries, yields t root e x = true := by
  obtain ⟨ps, hps, rfl⟩ := expand_eq_ok_iff.mp h
  exact mem_distinct.trans (mem_flatten_iff hps)

theorem expand_eq_error_iff {p : Plan} {f : ExpansionFault} :
    (p.expand t root).2 = .error f ↔ (expandEntries (Glob.find t root) p.entries).2 = .error f := by
  rw [snd_expand]
  cases (expandEntries (Glob.find t root) p.entries).2 with
  | error g => simp [Except.map]
  | ok ps => simp [Except.map]

theorem exists_entryPaths_of_mem {find : Text → Except Glob.Malformed (List Text)}
    {es : List Text} {ps : List (List Text)}
    (h : List.Forall₂ (fun e paths => entryPaths find e = .ok paths) es ps) :
    ∀ e ∈ es, ∃ paths, entryPaths find e = .ok paths := by
  induction h with
  | nil => simp
  | @cons e paths _ _ he _ ih => exact List.forall_mem_cons.mpr ⟨⟨paths, he⟩, ih⟩

/-- **A list whose patterns are valid is expanded exactly if they can all be searched for.** -/
theorem exists_expand_iff {p : Plan}
    (h : ∀ e ∈ p.entries, Glob.isPattern e = true → Glob.isValid e = true) :
    (∃ files, (p.expand t root).2 = .ok files) ↔
      ∀ e ∈ p.entries, Glob.isPattern e = true → ∃ found, Glob.find t root e = .ok found := by
  constructor
  · rintro ⟨files, hfiles⟩ e he hpattern
    obtain ⟨ps, hps, -⟩ := expand_eq_ok_iff.mp hfiles
    obtain ⟨paths, hpaths⟩ := exists_entryPaths_of_mem hps e he
    rw [entryPaths, hpattern, h e he hpattern] at hpaths
    cases hfind : Glob.find t root e with
    | ok found => exact ⟨found, rfl⟩
    | error f => rw [hfind] at hpaths; cases hpaths
  · intro hfind
    cases hexpand : (p.expand t root).2 with
    | ok files => exact ⟨files, rfl⟩
    | error f =>
      rw [expand_eq_error_iff,
        expandEntries_eq_error_iff fun e he hpattern _ => hfind e he hpattern] at hexpand
      obtain ⟨e, he, -⟩ := hexpand
      have hrejected := List.find?_some he
      rw [isRejected, Bool.and_eq_true, Bool.not_eq_true'] at hrejected
      rw [h e (List.mem_of_find?_eq_some he) hrejected.1] at hrejected
      exact absurd hrejected.2 (by simp)

/-- **More entries add to the end of the list.** -/
theorem prefix_of_expand {p q : Plan} {more files files' : List Text}
    (hq : q.entries = p.entries ++ more) (h : (p.expand t root).2 = .ok files)
    (h' : (q.expand t root).2 = .ok files') : files <+: files' := by
  obtain ⟨ps, hps, rfl⟩ := expand_eq_ok_iff.mp h
  obtain ⟨qs, hqs, rfl⟩ := expand_eq_ok_iff.mp h'
  rw [hq] at hqs
  obtain ⟨rs, rfl⟩ := exists_append_of_entries hps hqs
  rw [List.flatten_append, distinct_append]
  exact List.prefix_append _ _

theorem isPattern_of_firstEntry {es : List Text} {x y : Text}
    (hx : ∃ e ∈ es, yields t root e x = true) (hy : ∃ e ∈ es, yields t root e y = true)
    (h : firstEntry t root es x = firstEntry t root es y) (hne : x ≠ y) :
    (es[firstEntry t root es x]?).any Glob.isPattern = true := by
  have hx' : firstEntry t root es x < es.length := List.findIdx_lt_length.mpr hx
  have hy' : firstEntry t root es y < es.length := List.findIdx_lt_length.mpr hy
  have hyieldx : yields t root (es[firstEntry t root es x]) x = true :=
    List.findIdx_getElem (w := hx')
  have hyieldy : yields t root (es[firstEntry t root es y]) y = true :=
    List.findIdx_getElem (w := hy')
  simp only [← h] at hyieldy
  rw [List.getElem?_eq_getElem hx', Option.any_some]
  by_contra hp
  rw [yields, if_neg hp, beq_iff_eq] at hyieldx hyieldy
  exact hne (hyieldx.trans hyieldy.symm)

/-- **An expansion follows the list of entries.**  It fails exactly if some entry is rejected, for
the first such entry.  Otherwise it lists what the entries yield, each path once, by the first
entry that yields it and then by its bytes.  More entries add to the end of the list. -/
theorem expansion_follows_entries {p : Plan} {t : FileTree} {root : Text}
    (hfind : ∀ e ∈ p.entries, Glob.isPattern e = true → Glob.isValid e = true →
      ∃ found, Glob.find t root e = .ok found) :
    let first := firstEntry t root p.entries
    (∀ f, (p.expand t root).2 = .error f ↔
      ∃ e, p.entries.find? isRejected = some e ∧ f = .invalid e) ∧
    (p.entries.find? isRejected = none → ∃ files, (p.expand t root).2 = .ok files ∧ files.Nodup ∧
      (∀ x, x ∈ files ↔ ∃ e ∈ p.entries, yields t root e x = true) ∧
      ∀ x ∈ files, ∀ y ∈ files, [x, y] <+ files ↔ first x < first y ∨
        first x = first y ∧ (p.entries[first x]?).any Glob.isPattern = true ∧ x < y) ∧
    ∀ (q : Plan) (more files files' : List Text), q.entries = p.entries ++ more →
      (p.expand t root).2 = .ok files → (q.expand t root).2 = .ok files' → files <+: files' := by
  intro first
  have herror : ∀ f, (p.expand t root).2 = .error f ↔
      ∃ e, p.entries.find? isRejected = some e ∧ f = .invalid e :=
    fun f => expand_eq_error_iff.trans (expandEntries_eq_error_iff hfind)
  refine ⟨herror, fun hnone => ?_, fun q more files files' => prefix_of_expand⟩
  cases hexp : (p.expand t root).2 with
  | error f =>
    obtain ⟨e, he, -⟩ := (herror f).mp hexp
    rw [hnone] at he
    cases he
  | ok files =>
    obtain ⟨ps, hps, rfl⟩ := expand_eq_ok_iff.mp hexp
    have hmem : ∀ x, x ∈ distinct ps.flatten ↔ ∃ e ∈ p.entries, yields t root e x = true :=
      fun x => mem_distinct.trans (mem_flatten_iff hps)
    refine ⟨_, rfl, nodup_distinct _, hmem, fun x hx y hy => ?_⟩
    rw [pair_sublist_iff (pairwise_listedBefore hps) (fun _ _ => ListedBefore.asymm) hx hy]
    refine or_congr_right (and_congr_right fun heq => ⟨fun hlt => ⟨?_, hlt⟩, And.right⟩)
    refine isPattern_of_firstEntry ((hmem x).mp hx) ((hmem y).mp hy) heq ?_
    rintro rfl
    exact List.lt_irrefl _ hlt

/-- A path that is not there, and a pattern whose first match is listed again and whose second was
listed before. -/
theorem expansion_follows_overlapping_entries :
    let t : FileTree := { entries := [([lit "src"], .folder), ([lit "src", lit "b.tsx"], .file []),
      ([lit "src", lit "a.tsx"], .file []), ([lit "src", lit "c.tsx"], .file [])] }
    let entries := [lit "gone.tsx", lit "src/b.tsx", lit "src/*.tsx", lit "src/a.tsx"]
    let p : Plan := { files := some entries }
    let files := [lit "gone.tsx", lit "src/b.tsx", lit "src/a.tsx", lit "src/c.tsx"]
    let first := firstEntry t Path.dot entries
    (p.expand t Path.dot).2 = .ok files ∧
      (∀ x, x ∈ files ↔ ∃ e ∈ entries, yields t Path.dot e x = true) ∧
      ∀ x ∈ files, ∀ y ∈ files, [x, y] <+ files ↔ first x < first y ∨
        first x = first y ∧ (entries[first x]?).any Glob.isPattern = true ∧ x < y := by
  intro t entries p files first
  let found := [lit "src/a.tsx", lit "src/b.tsx", lit "src/c.tsx"]
  have hmatches : Glob.find t Path.dot (lit "src/*.tsx") = .ok found := by
    have hsearch : (Glob.Ground.below t Path.dot).search false 74 true (lit "src/*.tsx")
        = .ok [lit "src/b.tsx", lit "src/a.tsx", lit "src/c.tsx"] := by decide +kernel
    exact (congrArg (Except.map sorted) hsearch).trans
      (congrArg Except.ok (sorted_eq (by decide) (by decide)))
  have hexp : (p.expand t Path.dot).2 = .ok files := by
    refine expand_eq_ok_iff.mpr ⟨[[lit "gone.tsx"], [lit "src/b.tsx"], found, [lit "src/a.tsx"]],
      .cons rfl (.cons rfl (.cons ?_ (.cons rfl .nil))), by decide +kernel⟩
    rw [entryPaths, hmatches]
    rfl
  have hfind : ∀ e ∈ p.entries, Glob.isPattern e = true → Glob.isValid e = true →
      ∃ found, Glob.find t Path.dot e = .ok found := by
    intro e he hpattern _
    have hone : ∀ e ∈ entries, Glob.isPattern e = true → e = lit "src/*.tsx" := by decide
    rw [hone e he hpattern]
    exact ⟨_, hmatches⟩
  obtain ⟨-, hfiles, -⟩ := expansion_follows_entries hfind
  obtain ⟨files', hexp', -, hmem, horder⟩ := hfiles (by decide)
  obtain rfl : files = files' := Except.ok.inj (hexp.symm.trans hexp')
  exact ⟨hexp, hmem, horder⟩

end Plan

end DateDisplay
