import DateDisplay.Proofs.FileStore
import DateDisplay.Proofs.Folders

/-!
# How paths are written

A path is plain if each of its components is the name of a file or a folder: none is empty, and
none is `.` or `..`.  A plain path below a folder has the components of the folder and then its
own, as they are written (`components_under`), so that two plain paths below one folder are one
path on the disk, or lead to one location, only if they are written alike (`pathOf_inj`,
`apart_of_ne`).

Other paths can be written in many ways.  A slash at the end changes nothing
(`under_concat_slash`), and the shortest form of any path goes up first and then down along names
(`components_clean`).

Where a path leads somewhere, its shortest form leads there too, since taking names off the stack is
going up again (`walk_push`).
-/

namespace DateDisplay

open Text

namespace Path

/-- The text is the name of a file or a folder. -/
def IsName (c : Text) : Prop := c ≠ [] ∧ c ≠ dot ∧ c ≠ dotdot ∧ slash ∉ c

instance (c : Text) : Decidable (IsName c) :=
  inferInstanceAs (Decidable (c ≠ [] ∧ c ≠ dot ∧ c ≠ dotdot ∧ slash ∉ c))

/-- The path is written with names only. -/
def IsPlain (p : Text) : Prop := ∀ c ∈ components p, IsName c

instance (p : Text) : Decidable (IsPlain p) :=
  inferInstanceAs (Decidable (∀ c ∈ components p, IsName c))

theorem components_ne_nil (p : Text) : components p ≠ [] := splitOn_ne_nil slash p

theorem notMem_of_mem_components {p c : Text} (h : c ∈ components p) : slash ∉ c :=
  notMem_of_mem_splitOn slash p c h

theorem components_append (p q : Text) :
    components (p ++ slash :: q) = components p ++ components q := splitOn_append slash q p

theorem components_join {names : List Text} (hn : names ≠ []) (h : ∀ c ∈ names, slash ∉ c) :
    components (join [slash] names) = names := splitOn_join hn h

theorem join_ne_nil (sep : Text) {names : List Text} (hn : names ≠ [])
    (h : ∀ c ∈ names, c ≠ []) : join sep names ≠ [] := by
  match names with
  | [] => exact absurd rfl hn
  | [c] => exact h c (by simp)
  | c :: d :: names => rw [join]; simp [h c (by simp)]

theorem isPlain_join {names : List Text} (hn : names ≠ []) (h : ∀ c ∈ names, IsName c) :
    IsPlain (join [slash] names) := by
  rw [IsPlain, components_join hn fun c hc => (h c hc).2.2.2]
  exact h

/-! ### Components on a stack -/

theorem push_name {c : Text} (h : IsName c) (rooted : Bool) (stack : List Text) :
    push rooted stack c = c :: stack := by
  unfold push
  rw [if_neg (by simp [h.1, h.2.1]), if_neg (by simp [h.2.2.1])]

theorem push_dotdot {top : Text} (h : top ≠ dotdot) (rooted : Bool) (below : List Text) :
    push rooted (top :: below) dotdot = below := by
  have hstay : ¬(dotdot.isEmpty || dotdot == dot) = true := by decide
  unfold push
  rw [if_neg hstay, if_pos (by simp)]
  exact if_neg (by simpa using h)

theorem foldl_push_names (rooted : Bool) : ∀ {names : List Text} (stack : List Text),
    (∀ c ∈ names, IsName c) → names.foldl (push rooted) stack = names.reverse ++ stack := by
  intro names
  induction names with
  | nil => intro stack _; rfl
  | cons c names ih =>
    intro stack h
    rw [List.foldl_cons, push_name (h c (by simp)), ih _ fun d hd => h d (by simp [hd])]
    simp

theorem notMem_of_mem_push {rooted : Bool} {stack : List Text} {c : Text}
    (hs : ∀ d ∈ stack, slash ∉ d) (hc : slash ∉ c) : ∀ d ∈ push rooted stack c, slash ∉ d := by
  have hdd : slash ∉ dotdot := by decide
  have hcons : ∀ {e : Text}, slash ∉ e → ∀ d ∈ e :: stack, slash ∉ d :=
    fun he => List.forall_mem_cons.mpr ⟨he, hs⟩
  unfold push
  split
  · exact hs
  · split
    · cases stack with
      | nil =>
        dsimp only
        split
        · exact hs
        · exact hcons hdd
      | cons top below =>
        dsimp only
        split
        · exact hcons hdd
        · exact fun d hd => hs d (List.mem_cons_of_mem top hd)
    · exact hcons hc

theorem notMem_of_mem_foldl_push {rooted : Bool} : ∀ {cs stack : List Text},
    (∀ d ∈ stack, slash ∉ d) → (∀ c ∈ cs, slash ∉ c) →
      ∀ d ∈ cs.foldl (push rooted) stack, slash ∉ d := by
  intro cs
  induction cs with
  | nil => intro stack hs _; exact hs
  | cons c cs ih =>
    intro stack hs hcs
    rw [List.forall_mem_cons] at hcs
    exact ih (notMem_of_mem_push hs hcs.1) hcs.2

theorem clean_ne_nil (p : Text) : clean p ≠ [] := by
  unfold clean
  extract_lets rooted body
  split
  · exact List.cons_ne_nil _ _
  · split
    · decide
    · rename_i hbody
      simpa using hbody

/-! ### Plain paths below a folder -/

/-- The components that stand before those of a path below the folder. -/
def lead (base : Text) : List Text :=
  ((components base).foldl (push (isAbsolute (base ++ [slash]))) []).reverse

theorem notMem_of_mem_lead {base c : Text} (h : c ∈ lead base) : slash ∉ c :=
  notMem_of_mem_foldl_push (by simp) (fun _ => notMem_of_mem_components) c
    (List.mem_reverse.mp h)

theorem isAbsolute_append (base p : Text) :
    isAbsolute (base ++ slash :: p) = isAbsolute (base ++ [slash]) := by
  cases base <;> rfl

theorem relative_of_components {p c : Text} {cs : List Text} (h : components p = c :: cs)
    (hc : c ≠ []) : p ≠ [] ∧ isAbsolute p = false := by
  cases p with
  | nil => exact absurd (List.cons.inj h).1.symm hc
  | cons b t =>
    have hb : b ≠ slash := by
      rintro rfl
      rw [components, splitOn_cons_self] at h
      exact hc (List.cons.inj h).1.symm
    exact ⟨List.cons_ne_nil b t, by simpa [isAbsolute] using hb⟩

theorem isAbsolute_of_plain {p : Text} (h : IsPlain p) : isAbsolute (p ++ [slash]) = false := by
  obtain ⟨c, cs, hcs⟩ := List.exists_cons_of_ne_nil (components_ne_nil p)
  obtain ⟨hne, hrelative⟩ := relative_of_components hcs (h c (by simp [hcs])).1
  rwa [isAbsolute, List.head?_append_of_ne_nil _ hne]

theorem lead_of_plain {p : Text} (h : IsPlain p) : lead p = components p := by
  rw [lead, foldl_push_names _ _ h, List.append_nil, List.reverse_reverse]

/-- **A plain path stands behind its folder as it is written.** -/
theorem under_of_plain (base : Text) {p : Text} (hp : IsPlain p) :
    under base p = (if isAbsolute (base ++ [slash]) then [slash] else [])
      ++ join [slash] (lead base ++ components p) := by
  have hstack : ((components (base ++ slash :: p)).foldl
      (push (isAbsolute (base ++ [slash]))) []).reverse = lead base ++ components p := by
    rw [components_append, List.foldl_append, foldl_push_names _ _ hp, List.reverse_append,
      List.reverse_reverse, lead]
  have hbody : join [slash] (lead base ++ components p) ≠ [] := by
    obtain ⟨c, cs, hcs⟩ := List.exists_cons_of_ne_nil (components_ne_nil p)
    have hc : c ≠ [] := (hp c (by simp [hcs])).1
    have hinfix : c <:+: join [slash] (lead base ++ components p) := infix_join (by simp [hcs])
    intro he
    rw [he, List.infix_nil] at hinfix
    exact hc hinfix
  rw [under, clean, isAbsolute_append, hstack]
  split
  · rfl
  · rw [if_neg (by simpa using hbody), List.nil_append]

/-- The components of a plain path are the last ones of its path below a folder. -/
theorem components_under (base : Text) : ∃ front, ∀ {p : Text}, IsPlain p →
    components (under base p) = front ++ components p := by
  refine ⟨(if isAbsolute (base ++ [slash]) then [[]] else []) ++ lead base, fun {p} hp => ?_⟩
  have hslash : ∀ c ∈ lead base ++ components p, slash ∉ c := by
    intro c hc
    rcases List.mem_append.mp hc with hc | hc
    · exact notMem_of_mem_lead hc
    · exact notMem_of_mem_components hc
  have hjoin := components_join (by simp [components_ne_nil]) hslash
  rw [under_of_plain base hp, List.append_assoc]
  split
  · rw [components, List.singleton_append, splitOn_cons_self, ← components, hjoin]
    rfl
  · exact hjoin

theorem under_concat_slash (base p : Text) : under base (p ++ [slash]) = under base p := by
  have hcomponents : components (base ++ slash :: (p ++ [slash]))
      = components (base ++ slash :: p) ++ [[]] := by
    rw [← List.cons_append, ← List.append_assoc, components_append]
    rfl
  have hpush : ∀ (rooted : Bool) (stack : List Text), push rooted stack [] = stack :=
    fun _ _ => rfl
  simp only [under, clean, isAbsolute_append, hcomponents, List.foldl_append, List.foldl_cons,
    List.foldl_nil, hpush]

end Path

open DateDisplay.Path

/-- **Plain paths below one folder are one path on the disk only if they are written alike.** -/
theorem FileStore.pathOf_inj {s : FileStore} {p q : Text} (hp : IsPlain p) (hq : IsPlain q)
    (h : s.pathOf p = s.pathOf q) : p = q := by
  obtain ⟨front, hfront⟩ := components_under s.base
  have hlist : components (under s.base p) = components (under s.base q) := congrArg components h
  rw [hfront hp, hfront hq, List.append_cancel_left_eq] at hlist
  rw [← join_components p, hlist, join_components]

/-! ### Shortest forms -/

namespace Path

/-- A way that goes up first and then down along names. -/
def IsShort (cs : List Text) : Prop :=
  ∃ ups names, cs = ups ++ names ∧ (∀ c ∈ ups, c = dotdot) ∧ ∀ c ∈ names, IsName c

theorem IsShort.component {cs : List Text} (h : IsShort cs) :
    ∀ c ∈ cs, c ≠ [] ∧ c ≠ dot ∧ slash ∉ c := by
  obtain ⟨ups, names, rfl, hups, hnames⟩ := h
  intro c hc
  rcases List.mem_append.mp hc with hc | hc
  · rw [hups c hc]
    decide
  · exact ⟨(hnames c hc).1, (hnames c hc).2.1, (hnames c hc).2.2.2⟩

/-- **A stack stays short** with one more component. -/
theorem isShort_push {stack : List Text} (h : IsShort stack.reverse) {c : Text} (hc : slash ∉ c)
    (rooted : Bool) : IsShort (push rooted stack c).reverse := by
  obtain ⟨ups, names, hstack, hups, hnames⟩ := h
  have hup : ∀ d ∈ ups ++ [dotdot], d = dotdot := by
    simpa [or_imp, forall_and] using hups
  by_cases hstay : c = [] ∨ c = dot
  · have hpush : push rooted stack c = stack := if_pos (by simpa using hstay)
    exact ⟨ups, names, by rw [hpush, hstack], hups, hnames⟩
  · rw [not_or] at hstay
    by_cases hdd : c = dotdot
    · subst hdd
      rcases List.eq_nil_or_concat' names with rfl | ⟨names', top, rfl⟩
      · -- there is no name to take off, so this is one more step up
        cases stack with
        | nil =>
          cases rooted with
          | true => exact ⟨[], [], rfl, by simp, by simp⟩
          | false => exact ⟨[dotdot], [], rfl, by simp, by simp⟩
        | cons top below =>
          rw [List.append_nil, List.reverse_cons] at hstack
          have htop : top = dotdot := hups top (by simp [← hstack])
          have hpush : push rooted (top :: below) dotdot = dotdot :: top :: below := by
            rw [htop]
            rfl
          refine ⟨ups ++ [dotdot], [], ?_, hup, by simp⟩
          rw [hpush, List.reverse_cons, List.reverse_cons, hstack, List.append_nil]
      · have htop : top ≠ dotdot := (hnames top (by simp)).2.2.1
        have hcons : stack = top :: (ups ++ names').reverse := by
          rw [← List.reverse_reverse stack, hstack, ← List.append_assoc, List.reverse_concat]
        refine ⟨ups, names', ?_, hups, fun d hd => hnames d (by simp [hd])⟩
        rw [hcons, push_dotdot htop, List.reverse_reverse]
    · have hname : IsName c := ⟨hstay.1, hstay.2, hdd, hc⟩
      refine ⟨ups, names ++ [c], ?_, hups, ?_⟩
      · rw [push_name hname, List.reverse_cons, hstack, List.append_assoc]
      · simpa [or_imp, forall_and] using ⟨hnames, hname⟩

theorem isShort_foldl_push (rooted : Bool) : ∀ {cs stack : List Text}, IsShort stack.reverse →
    (∀ c ∈ cs, slash ∉ c) → IsShort (cs.foldl (push rooted) stack).reverse := by
  intro cs
  induction cs with
  | nil => intro stack h _; exact h
  | cons c cs ih =>
    intro stack h hcs
    rw [List.forall_mem_cons] at hcs
    exact ih (isShort_push h hcs.1 rooted) hcs.2

/-- The way that a path takes without looking at any file. -/
def way (path : Text) : List Text :=
  ((components path).foldl (push (isAbsolute path)) []).reverse

theorem isShort_way (path : Text) : IsShort (way path) :=
  isShort_foldl_push _ ⟨[], [], rfl, by simp, by simp⟩ fun _ => notMem_of_mem_components

/-- **The components of a shortest form** are those of the way, behind some that stay. -/
theorem components_clean (path : Text) : ∃ stay, (∀ c ∈ stay, c = [] ∨ c = dot) ∧
    components (clean path) = stay ++ way path := by
  have hway := (isShort_way path).component
  have hclean : clean path = if isAbsolute path then slash :: join [slash] (way path)
      else if (join [slash] (way path)).isEmpty then dot else join [slash] (way path) := rfl
  cases habs : isAbsolute path with
  | true =>
    rw [hclean, habs, if_pos rfl, components, splitOn_cons_self]
    by_cases hnil : way path = []
    · exact ⟨[[], []], by simp, by rw [hnil]; rfl⟩
    · exact ⟨[[]], by simp, by rw [splitOn_join hnil fun c hc => (hway c hc).2.2]; rfl⟩
  | false =>
    rw [hclean, habs, if_neg (by simp)]
    by_cases hnil : way path = []
    · exact ⟨[dot], by simp, by rw [hnil]; rfl⟩
    · have hne := join_ne_nil [slash] hnil fun c hc => (hway c hc).1
      rw [if_neg (by simpa using hne), components_join hnil fun c hc => (hway c hc).2.2]
      exact ⟨[], by simp, rfl⟩

theorem isAbsolute_clean (path : Text) : isAbsolute (clean path) = isAbsolute path := by
  cases habs : isAbsolute path with
  | true => rw [clean, habs]; rfl
  | false =>
    have hway := (isShort_way path).component
    have hclean : clean path = if (join [slash] (way path)).isEmpty then dot
        else join [slash] (way path) := by
      rw [clean, habs]
      simp only [way, habs, Bool.false_eq_true, if_false]
    rw [hclean]
    cases hw : way path with
    | nil => rfl
    | cons c cs =>
      rw [hw] at hway
      have hne := join_ne_nil [slash] (List.cons_ne_nil c cs) fun d hd => (hway d hd).1
      have hcomponents := components_join (List.cons_ne_nil c cs) fun d hd => (hway d hd).2.2
      rw [if_neg (by simpa using hne)]
      exact (relative_of_components hcomponents (hway c (by simp)).1).2

end Path

/-! ### Where a path leads -/

namespace FileTree

/-- What is listed has names. -/
def Named (t : FileTree) : Prop := ∀ e ∈ t.entries, ∀ c ∈ e.1, IsName c

instance (t : FileTree) : Decidable t.Named :=
  inferInstanceAs (Decidable (∀ e ∈ t.entries, ∀ c ∈ e.1, IsName c))

variable {t : FileTree}

theorem step_cases {l m : Location} {c : Text} (h : t.step l c = .ok m) :
    t.get? l = some .folder ∧ ((c = [] ∨ c = dot) ∧ m = l ∨ c = dotdot ∧ m = l.dropLast ∨
      c ≠ [] ∧ c ≠ dot ∧ c ≠ dotdot ∧ m = l ++ [c]) := by
  unfold step at h
  cases he : t.get? l with
  | none => rw [he] at h; cases h
  | some e =>
    rw [he] at h
    cases e with
    | file content => cases h
    | folder =>
      refine ⟨rfl, ?_⟩
      dsimp only at h
      by_cases hstay : c = [] ∨ c = dot
      · rw [if_pos (by simpa using hstay)] at h
        exact Or.inl ⟨hstay, (Except.ok.inj h).symm⟩
      · rw [if_neg (by simpa using hstay)] at h
        rw [not_or] at hstay
        by_cases hup : c = dotdot
        · rw [if_pos (by simp [hup])] at h
          exact Or.inr (Or.inl ⟨hup, (Except.ok.inj h).symm⟩)
        · rw [if_neg (by simpa using hup)] at h
          split at h
          · cases h
          · exact Or.inr (Or.inr ⟨hstay.1, hstay.2, hup, (Except.ok.inj h).symm⟩)

theorem walk_cons (l : Location) (c : Text) (cs : List Text) :
    t.walk l (c :: cs) = t.step l c >>= fun m => t.walk m cs := List.foldlM_cons

theorem walk_append (l : Location) (cs ds : List Text) :
    t.walk l (cs ++ ds) = t.walk l cs >>= fun m => t.walk m ds := List.foldlM_append

theorem walk_append_eq_ok_iff {l m : Location} {cs ds : List Text} :
    t.walk l (cs ++ ds) = .ok m ↔ ∃ k, t.walk l cs = .ok k ∧ t.walk k ds = .ok m := by
  rw [walk_append]
  cases t.walk l cs with
  | error f => simp [bind, Except.bind]
  | ok k => simp [bind, Except.bind]

theorem walk_singleton (l : Location) (c : Text) : t.walk l [c] = t.step l c := by
  rw [walk_cons]
  cases t.step l c with
  | error f => rfl
  | ok k => rfl

theorem walk_concat_eq_ok_iff {l m : Location} {cs : List Text} {c : Text} :
    t.walk l (cs ++ [c]) = .ok m ↔ ∃ k, t.walk l cs = .ok k ∧ t.step k c = .ok m := by
  simp only [walk_append_eq_ok_iff, walk_singleton]

theorem eq_append_of_walk : ∀ {names : List Text} {l m : Location}, (∀ c ∈ names, IsName c) →
    t.walk l names = .ok m → m = l ++ names := by
  intro names
  induction names with
  | nil =>
    intro l m _ h
    rw [List.append_nil]
    exact (Except.ok.inj h).symm
  | cons c names ih =>
    intro l m hnames h
    rw [List.forall_mem_cons] at hnames
    obtain ⟨⟨hempty, hdot, hdotdot, -⟩, hnames⟩ := hnames
    rw [← List.singleton_append, walk_append_eq_ok_iff, walk_singleton] at h
    obtain ⟨k, hs, hw⟩ := h
    obtain ⟨-, ⟨hstay, -⟩ | ⟨hup, -⟩ | ⟨-, -, -, rfl⟩⟩ := step_cases hs
    · exact absurd hstay (not_or.mpr ⟨hempty, hdot⟩)
    · exact absurd hup hdotdot
    · rw [ih hnames hw, List.append_assoc, List.singleton_append]

/-- **A step from where the stack leads** leads where the stack leads with one more component. -/
theorem walk_push {start l m : Location} {stack : List Text} {c : Text} {rooted : Bool}
    (hroot : rooted = true → start = []) (hstack : ∀ d ∈ stack, d ≠ [] ∧ d ≠ dot)
    (hl : t.walk start stack.reverse = .ok l) (hs : t.step l c = .ok m) :
    t.walk start (push rooted stack c).reverse = .ok m := by
  obtain ⟨hfolder, ⟨hstay, rfl⟩ | ⟨rfl, rfl⟩ | ⟨hempty, hdot, hdotdot, rfl⟩⟩ := step_cases hs
  · have hpush : push rooted stack c = stack := if_pos (by simpa using hstay)
    rw [hpush, hl]
  · have hup : t.walk start (stack.reverse ++ [dotdot]) = .ok l.dropLast :=
      walk_concat_eq_ok_iff.mpr ⟨l, hl, hs⟩
    cases stack with
    | nil =>
      obtain rfl : start = l := Except.ok.inj hl
      cases rooted with
      | true => rw [hroot rfl]; rfl
      | false => exact hup
    | cons top below =>
      by_cases htop : top = dotdot
      · have hpush : push rooted (top :: below) dotdot = dotdot :: top :: below := by
          rw [htop]
          rfl
        rw [hpush, List.reverse_cons]
        exact hup
      · -- going up takes back the step to the name on top
        rw [List.reverse_cons, walk_concat_eq_ok_iff] at hl
        obtain ⟨k, hk, hstep⟩ := hl
        obtain ⟨-, ⟨hstay, -⟩ | ⟨htop', -⟩ | ⟨-, -, -, rfl⟩⟩ := step_cases hstep
        · exact absurd hstay (not_or.mpr (hstack top (by simp)))
        · exact absurd htop' htop
        · rw [push_dotdot htop, hk, List.dropLast_concat]
  · have hpush : push rooted stack c = c :: stack := by
      unfold push
      rw [if_neg (by simp [hempty, hdot]), if_neg (by simpa using hdotdot)]
    rw [hpush, List.reverse_cons]
    exact walk_concat_eq_ok_iff.mpr ⟨l, hl, hs⟩

theorem walk_foldl_push {start m : Location} {rooted : Bool} (hroot : rooted = true → start = []) :
    ∀ {cs stack : List Text} {l : Location}, (∀ c ∈ cs, slash ∉ c) → IsShort stack.reverse →
      t.walk start stack.reverse = .ok l → t.walk l cs = .ok m →
      t.walk start (cs.foldl (push rooted) stack).reverse = .ok m := by
  intro cs
  induction cs with
  | nil => intro stack l _ _ hl hm; exact hl.trans hm
  | cons c cs ih =>
    intro stack l hcs hstack hl hm
    rw [List.forall_mem_cons] at hcs
    rw [walk_cons] at hm
    cases hs : t.step l c with
    | error f => rw [hs] at hm; cases hm
    | ok k =>
      rw [hs] at hm
      have hcomponent : ∀ d ∈ stack, d ≠ [] ∧ d ≠ dot := fun d hd =>
        ⟨(hstack.component d (by simpa using hd)).1, (hstack.component d (by simpa using hd)).2.1⟩
      exact ih hcs.2 (isShort_push hstack hcs.1 rooted) (walk_push hroot hcomponent hl hs) hm

theorem origin_of_absolute {path : Text} (h : isAbsolute path = true) : t.origin path = [] :=
  if_pos h

theorem origin_clean (path : Text) : t.origin (clean path) = t.origin path := by
  rw [origin, isAbsolute_clean, origin]

theorem folder_of_walk_ok {l m : Location} {cs : List Text} (hcs : cs ≠ [])
    (h : t.walk l cs = .ok m) : t.get? l = some .folder := by
  obtain ⟨c, cs, rfl⟩ := List.exists_cons_of_ne_nil hcs
  rw [walk_cons] at h
  cases hs : t.step l c with
  | error f => rw [hs] at h; cases h
  | ok k => exact (step_cases hs).1

theorem walk_stay {l : Location} (hl : t.get? l = some .folder) : ∀ {stay : List Text},
    (∀ c ∈ stay, c = [] ∨ c = dot) → ∀ cs, t.walk l (stay ++ cs) = t.walk l cs := by
  intro stay
  induction stay with
  | nil => intro _ cs; rfl
  | cons c stay ih =>
    intro h cs
    rw [List.forall_mem_cons] at h
    have hs : t.step l c = .ok l := by
      unfold step
      rw [hl]
      exact if_pos (by simpa using h.1)
    rw [List.cons_append, walk_cons, hs]
    exact ih h.2 cs

/-- **The shortest form of a path leads where the path leads.** -/
theorem walk_components_clean {path : Text} {m : Location}
    (h : t.walk (t.origin path) (components path) = .ok m) :
    t.walk (t.origin path) (components (clean path)) = .ok m := by
  obtain ⟨stay, hstay, hcomponents⟩ := components_clean path
  rw [hcomponents, walk_stay (folder_of_walk_ok (components_ne_nil path) h) hstay]
  exact walk_foldl_push origin_of_absolute (fun _ => notMem_of_mem_components)
    ⟨[], [], rfl, by simp, by simp⟩ rfl h

theorem walk_of_locate {path : Text} {l : Location} (h : t.locate path = .ok l) :
    t.walk (t.origin path) (components path) = .ok l := by
  unfold locate at h
  split at h
  · cases h
  · split at h
    · cases h
    · split at h
      · cases h
      · exact h

end FileTree

/-- **Plain paths below one folder lead to one location only if they are written alike.** -/
theorem FileStore.apart_of_ne {s : FileStore} {t : FileTree} {p q : Text} (hp : IsPlain p)
    (hq : IsPlain q) (hne : p ≠ q) : s.Apart t p q := by
  obtain ⟨front, hfront⟩ := components_under s.base
  have hwalk : ∀ {r l}, IsPlain r → s.place? t r = some l →
      ∃ k, t.walk (t.origin (s.base ++ [slash])) front = .ok k ∧ l = k ++ components r := by
    intro r l hr hl
    have horigin : t.origin (under s.base r) = t.origin (s.base ++ [slash]) := by
      rw [under, FileTree.origin_clean, FileTree.origin, FileTree.origin, isAbsolute_append]
    have hway := FileTree.walk_of_locate (place?_eq_some_iff.mp hl)
    rw [pathOf, horigin, hfront hr, FileTree.walk_append_eq_ok_iff] at hway
    obtain ⟨k, hk, hdown⟩ := hway
    exact ⟨k, hk, FileTree.eq_append_of_walk hr hdown⟩
  cases hl : s.place? t p with
  | none => exact Or.inl hl
  | some l =>
    refine Or.inr fun he => hne ?_
    obtain ⟨k, hk, hlp⟩ := hwalk hp hl
    obtain ⟨k', hk', hlq⟩ := hwalk hq (he ▸ hl)
    obtain rfl : k = k' := Except.ok.inj (hk.symm.trans hk')
    have hlist := List.append_cancel_left (hlp.symm.trans hlq)
    rw [← join_components p, hlist, join_components]

/-- A path that leaves the working folder and comes back is written differently. -/
example :
    let t : FileTree := {
      entries := [([lit "w"], .folder), ([lit "w", lit "a"], .file [])]
      here := [lit "w"] }
    let s := FileStore.below []
    s.pathOf (lit "../w/a") ≠ s.pathOf (lit "a") ∧ ¬s.Apart t (lit "../w/a") (lit "a") ∧
      s.place? t (lit "a") = some [lit "w", lit "a"] := by decide

end DateDisplay
