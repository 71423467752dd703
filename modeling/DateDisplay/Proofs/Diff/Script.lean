import DateDisplay.Diff.Script
import Mathlib.Data.List.Infix

/-!
# Edit scripts lead from one text to the other

A script has two sides, the text it starts from and the text it ends at, and each of
them is what is left when the edits of one kind are taken away (`side`).  Both are
treated alike: every step from two texts to a tidy script keeps either side.

Gathering moves what deleted and inserted text have in common into kept text, and kept
text is on both sides (`side_closeRun`).  Sliding turns a piece around between two kept
ones (`side_slideFrom`).  The cuts are harmless wherever they are made, because what is
cut is put together again.  So `script a b` starts from `a` and ends at `b`
(`leads_script`), and each of its edits that touches a side is a piece of it
(`infix_of_mem_script`).
-/

namespace DateDisplay

open Text

namespace Edit

/-! ### Sides -/

/-- What an edit leaves of its text where edits of the kind `gone` are taken away. -/
def piece (gone : EditKind) (e : Edit) : Text := if e.kind = gone then [] else e.text

/-- What is left of a script where the edits of the kind `gone` are taken away. -/
def side (gone : EditKind) (es : List Edit) : Text := es.flatMap (piece gone)

theorem source_eq_side (es : List Edit) : source es = side .insert es := rfl

theorem target_eq_side (es : List Edit) : target es = side .delete es := rfl

variable {gone : EditKind}

@[simp] theorem side_nil : side gone [] = [] := rfl

@[simp] theorem side_cons (e : Edit) (es : List Edit) :
    side gone (e :: es) = piece gone e ++ side gone es := rfl

@[simp] theorem side_append (es fs : List Edit) :
    side gone (es ++ fs) = side gone es ++ side gone fs := List.flatMap_append

theorem piece_keep (hg : gone ≠ .keep) (t : Text) : piece gone (keep t) = t := if_neg hg.symm

@[simp] theorem piece_empty (kind : EditKind) : piece gone ⟨kind, []⟩ = [] := by
  rw [piece, ite_self]

theorem infix_side {e : Edit} {es : List Edit} (he : e ∈ es) (hk : e.kind ≠ gone) :
    e.text <:+: side gone es := by
  obtain ⟨fs, hs, rfl⟩ := List.append_of_mem he
  rw [side_append, side_cons, piece, if_neg hk]
  exact ⟨side gone fs, side gone hs, by simp⟩

/-! ### Common ends -/

theorem exists_commonPrefix : ∀ a b : Text,
    ∃ p x y, a = p ++ x ∧ b = p ++ y ∧ commonPrefix a b = p.length := by
  intro a
  induction a with
  | nil => intro b; exact ⟨[], [], b, rfl, rfl, by simp [commonPrefix]⟩
  | cons c a ih =>
    intro b
    cases b with
    | nil => exact ⟨[], c :: a, [], rfl, rfl, by simp [commonPrefix]⟩
    | cons d b =>
      rw [commonPrefix]
      split
      · rename_i hcd
        obtain ⟨p, x, y, rfl, rfl, hp⟩ := ih b
        exact ⟨c :: p, x, y, rfl, by rw [eq_of_beq hcd]; rfl, by rw [hp, List.length_cons]⟩
      · exact ⟨[], c :: a, d :: b, rfl, rfl, rfl⟩

theorem exists_commonSuffix (a b : Text) :
    ∃ x y c, a = x ++ c ∧ b = y ++ c ∧ commonSuffix a b = c.length := by
  obtain ⟨p, x, y, ha, hb, hp⟩ := exists_commonPrefix a.reverse b.reverse
  refine ⟨x.reverse, y.reverse, p.reverse, ?_, ?_, by rw [commonSuffix, hp, List.length_reverse]⟩
  · rw [← List.reverse_append, ← ha, List.reverse_reverse]
  · rw [← List.reverse_append, ← hb, List.reverse_reverse]

/-! ### Gathering -/

namespace Run

/-- What a run leaves on a side. -/
def side (gone : EditKind) (r : Run) : Text :=
  piece gone (delete r.deleted) ++ piece gone (insert r.inserted)

/-- A run without deletions has deleted nothing, and one without insertions has inserted
nothing. -/
structure Counted (r : Run) : Prop where
  deleted : r.deletions = 0 → r.deleted = []
  inserted : r.insertions = 0 → r.inserted = []

theorem counted_empty : Counted {} := ⟨fun _ => rfl, fun _ => rfl⟩

theorem side_edits {r : Run} (hr : r.Counted) : Edit.side gone r.edits = r.side gone := by
  rw [edits, side_append, side]
  congr 1
  · split
    · rename_i h
      rw [hr.deleted h, piece_empty, side_nil]
    · simp
  · split
    · rename_i h
      rw [hr.inserted h, piece_empty, side_nil]
    · simp

theorem side_of_size_eq_zero {r : Run} (hr : r.Counted) (h : r.size = 0) : r.side gone = [] := by
  rw [size] at h
  rw [side, hr.deleted (by omega), hr.inserted (by omega), piece_empty, piece_empty,
    List.append_nil]

end Run

/-- The script, which is in reverse, is empty or ends with kept text. -/
def Landed (done : List Edit) : Prop := done = [] ∨ ∃ t rest, done = keep t :: rest

theorem landed_keep (t : Text) (done : List Edit) : Landed (keep t :: done) := Or.inr ⟨t, done, rfl⟩

theorem side_keepBehind (hg : gone ≠ .keep) {done : List Edit} (hd : Landed done) (t : Text) :
    side gone (keepBehind done t).reverse = side gone done.reverse ++ t := by
  rcases hd with rfl | ⟨u, rest, rfl⟩
  · simp [keepBehind, piece_keep hg]
  · simp [keepBehind, piece_keep hg]

/-- **What moves into kept text at the end of a run is on either side.** -/
theorem side_closeRun (hg : gone ≠ .keep) {done : List Edit} (hd : Landed done) {r : Run}
    (hr : r.Counted) (t : Text) :
    side gone (closeRun done r t).reverse = side gone done.reverse ++ (r.side gone ++ t) := by
  rw [closeRun]
  split
  · simp [Run.side_edits hr, piece_keep hg]
  · obtain ⟨p, x, y, hx, hy, hp⟩ := exists_commonPrefix r.inserted r.deleted
    obtain ⟨x', y', c, rfl, rfl, hc⟩ := exists_commonSuffix x y
    rw [hx, hy] at hp
    have hdone : side gone (if p.length = 0 then done else keepBehind done p).reverse
        = side gone done.reverse ++ p := by
      split
      · rename_i hzero
        rw [List.length_eq_zero_iff.mp hzero, List.append_nil]
      · exact side_keepBehind hg hd p
    simp only [hx, hy, hp, List.take_left, List.drop_left, hc, List.length_append,
      Nat.add_sub_cancel, List.reverse_cons, side_append, side_cons, side_nil, hdone,
      piece_keep hg, Run.side]
    cases gone with
    | keep => exact absurd rfl hg
    | delete => simp [piece]
    | insert => simp [piece]

theorem landed_closeRun (done : List Edit) (r : Run) (t : Text) : Landed (closeRun done r t) := by
  rw [closeRun]
  split
  · exact landed_keep t _
  · exact landed_keep _ _

theorem side_gatherFrom (hg : gone ≠ .keep) : ∀ (es done : List Edit) (r : Run), Landed done →
    r.Counted → side gone (gatherFrom done r es).reverse
      = side gone done.reverse ++ (r.side gone ++ side gone es) := by
  intro es
  induction es with
  | nil =>
    intro done r _ hr
    rw [gatherFrom]
    simp [Run.side_edits hr]
  | cons e es ih =>
    obtain ⟨kind, t⟩ := e
    intro done r hd hr
    cases kind with
    | insert =>
      have hr' : Run.Counted
          { r with insertions := r.insertions + 1, inserted := r.inserted ++ t } :=
        ⟨hr.deleted, fun h => absurd h (Nat.succ_ne_zero _)⟩
      rw [gatherFrom, ih done _ hd hr']
      cases gone <;> simp [Run.side, piece] at hg ⊢
    | delete =>
      have hr' : Run.Counted { r with deletions := r.deletions + 1, deleted := r.deleted ++ t } :=
        ⟨fun h => absurd h (Nat.succ_ne_zero _), hr.inserted⟩
      rw [gatherFrom, ih done _ hd hr']
      cases gone <;> simp [Run.side, piece] at hg ⊢
    | keep =>
      have hempty : Run.side gone {} = [] := Run.side_of_size_eq_zero Run.counted_empty rfl
      unfold gatherFrom
      split
      · rw [ih _ _ (landed_closeRun done r t) Run.counted_empty, side_closeRun hg hd hr, hempty]
        simp [piece_keep hg]
      · split
        · rename_i hzero
          have hside : r.side gone = [] := Run.side_of_size_eq_zero hr hzero
          rcases hd with rfl | ⟨u, rest, rfl⟩
          · rw [ih _ _ (landed_keep t _) Run.counted_empty, hempty, hside]
            simp [piece_keep hg]
          · rw [ih _ _ (landed_keep _ _) Run.counted_empty, hempty, hside]
            simp [piece_keep hg]
        · rw [List.cons_append, ih _ _ (landed_keep t _) Run.counted_empty, hempty]
          simp [Run.side_edits hr, piece_keep hg]

theorem side_gather (hg : gone ≠ .keep) (es : List Edit) :
    side gone (gather es) = side gone es := by
  have h := side_gatherFrom hg (es ++ [keep []]) [] {} (Or.inl rfl) Run.counted_empty
  rw [gather]
  generalize gatherFrom [] {} (es ++ [keep []]) = done at h ⊢
  have hes : side gone done.reverse = side gone es := by simpa [Run.side] using h
  split
  · rename_i e rest
    split
    · rename_i he
      obtain ⟨kind, t⟩ := e
      obtain rfl : t = [] := List.isEmpty_iff.mp he
      simpa using hes
    · exact hes
  · exact hes

/-! ### Sliding -/

/-- **A piece that slides over kept text keeps either side.** -/
theorem side_slideFrom (hg : gone ≠ .keep) (last : Edit) (es : List Edit) :
    side gone (slideFrom last es).1 = piece gone last ++ side gone es := by
  fun_induction slideFrom last es with
  | case1 last e next es hk hs e' ih =>
    obtain ⟨x, hx⟩ := List.isSuffixOf_iff_suffix.mp hs
    obtain ⟨_, last⟩ := last
    obtain ⟨_, next⟩ := next
    obtain ⟨rfl, rfl⟩ : _ = EditKind.keep ∧ _ = EditKind.keep := by simpa using hk
    rw [side_cons, ih]
    simp only [side_cons, piece_keep hg, e']
    by_cases he : e.kind = gone
    · simp [piece, he]
    · simp [piece, he, ← hx]
  | case2 last e next es hk hs hp e' ih =>
    obtain ⟨x, hx⟩ := List.isPrefixOf_iff_prefix.mp hp
    obtain ⟨_, last⟩ := last
    obtain ⟨_, next⟩ := next
    obtain ⟨rfl, rfl⟩ : _ = EditKind.keep ∧ _ = EditKind.keep := by simpa using hk
    rw [side_cons, ih]
    simp only [side_cons, piece_keep hg, e']
    by_cases he : e.kind = gone
    · simp [piece, he]
    · simp [piece, he, ← hx]
  | case3 last e next es hk hs hp rest slid heq ih =>
    rw [heq] at ih
    rw [side_cons, ih, side_cons]
    rfl
  | case4 last e next es hk rest slid heq ih =>
    rw [heq] at ih
    rw [side_cons, ih, side_cons]
    rfl
  | case5 last es => rfl

theorem side_slide (hg : gone ≠ .keep) (es : List Edit) :
    side gone (slide es).1 = side gone es := by
  cases es with
  | nil => rfl
  | cons e es => exact side_slideFrom hg e es

theorem side_tidyRounds (hg : gone ≠ .keep) : ∀ (rounds : Nat) (es : List Edit),
    side gone (tidyRounds rounds es) = side gone es := by
  intro rounds
  induction rounds with
  | zero => intro es; rfl
  | succ rounds ih =>
    intro es
    have hone : side gone (slide (gather es)).1 = side gone es := by
      rw [side_slide hg, side_gather hg]
    rw [tidyRounds]
    generalize slide (gather es) = s at hone ⊢
    obtain ⟨es', slid⟩ := s
    dsimp only at hone ⊢
    split
    · rw [ih, hone]
    · exact hone

/-- **Tidying keeps either side.** -/
theorem side_tidy (hg : gone ≠ .keep) (es : List Edit) : side gone (tidy es) = side gone es :=
  side_tidyRounds hg _ es

/-! ### Cuts -/

theorem placeFrom?_sound {p : Text} : ∀ {s : Text} {offset i : Nat},
    placeFrom? p offset s = some i → ∃ k, i = offset + k ∧ p <+: s.drop k := by
  intro s
  induction s with
  | nil =>
    intro offset i h
    rw [placeFrom?] at h
    split at h
    · rename_i hp
      rw [List.isEmpty_iff] at hp
      exact ⟨0, (Option.some.inj h).symm, by rw [hp]; exact List.nil_prefix⟩
    · cases h
  | cons b t ih =>
    intro offset i h
    rw [placeFrom?] at h
    split at h
    · rename_i hp
      exact ⟨0, (Option.some.inj h).symm, List.isPrefixOf_iff_prefix.mp hp⟩
    · obtain ⟨k, hk, hp⟩ := ih h
      exact ⟨k + 1, by omega, hp⟩

/-- The place where a text occurs in another cuts it in three. -/
theorem cut_at_place {p s : Text} {i : Nat} (h : place? p s = some i) :
    s.take i ++ (p ++ s.drop (i + p.length)) = s := by
  obtain ⟨k, hk, r, hr⟩ := placeFrom?_sound h
  rw [Nat.zero_add] at hk
  subst hk
  rw [← List.drop_drop, ← hr, List.drop_left, hr, List.take_append_drop]

/-- The parts of an overlap are those of the two texts. -/
def Overlap.Fits (long short : Text) (o : Overlap) : Prop :=
  long = o.longBefore ++ (o.common ++ o.longBehind) ∧
    short = o.shortBefore ++ (o.common ++ o.shortBehind)

/-- What two places have in common to the left and to the right is a common piece. -/
theorem fits_of_places (long short : Text) {i j : Nat} (hi : i ≤ long.length)
    (hj : j ≤ short.length) :
    let p := commonPrefix (long.drop i) (short.drop j)
    let s := commonSuffix (long.take i) (short.take j)
    Overlap.Fits long short ⟨long.take (i - s), long.drop (i + p), short.take (j - s),
      short.drop (j + p), (short.drop (j - s)).take (s + p)⟩ := by
  intro p s
  obtain ⟨P, x, y, hx, hy, hp⟩ := exists_commonPrefix (long.drop i) (short.drop j)
  obtain ⟨u, v, S, hu, hv, hs⟩ := exists_commonSuffix (long.take i) (short.take j)
  have hlong : long = u ++ (S ++ (P ++ x)) := by
    rw [← List.append_assoc, ← hu, ← hx, List.take_append_drop]
  have hshort : short = v ++ (S ++ (P ++ y)) := by
    rw [← List.append_assoc, ← hv, ← hy, List.take_append_drop]
  have hi' : i = u.length + S.length := by
    rw [← List.length_append, ← hu, List.length_take, Nat.min_eq_left hi]
  have hj' : j = v.length + S.length := by
    rw [← List.length_append, ← hv, List.length_take, Nat.min_eq_left hj]
  have hp' : p = P.length := hp
  have hs' : s = S.length := hs
  have hcommon : (short.drop (j - s)).take (s + p) = S ++ P := by
    rw [hshort, hj', hs', hp', Nat.add_sub_cancel, List.drop_left, ← List.append_assoc,
      ← List.length_append, List.take_left]
  have hlongBefore : long.take (i - s) = u := by
    rw [hlong, hi', hs', Nat.add_sub_cancel, List.take_left]
  have hshortBefore : short.take (j - s) = v := by
    rw [hshort, hj', hs', Nat.add_sub_cancel, List.take_left]
  have hlongBehind : long.drop (i + p) = x := by rw [← List.drop_drop, hx, hp', List.drop_left]
  have hshortBehind : short.drop (j + p) = y := by rw [← List.drop_drop, hy, hp', List.drop_left]
  rw [hcommon, hlongBefore, hshortBefore, hlongBehind, hshortBehind]
  exact ⟨by simpa using hlong, by simpa using hshort⟩

theorem fits_of_growSeed {long short seed : Text} {i : Nat} (hi : i ≤ long.length) :
    ∀ {rest : Text} {j : Nat} {best : Option Overlap}, rest = short.drop j → j ≤ short.length →
      (∀ o ∈ best, Overlap.Fits long short o) →
      ∀ o ∈ growSeed long short seed i j (tails rest) best, Overlap.Fits long short o := by
  intro rest
  induction rest with
  | nil =>
    intro j best hrest hj hbest
    have hfits := fits_of_places long short hi hj
    rw [← hrest] at hfits
    rw [tails, growSeed]
    split
    · dsimp only
      split
      · rw [growSeed]
        rintro o ⟨⟩
        exact hfits
      · exact hbest
    · exact hbest
  | cons b rest ih =>
    intro j best hrest hj hbest
    have hfits := fits_of_places long short hi hj
    rw [← hrest] at hfits
    have hlt : j < short.length := by
      by_contra hle
      rw [List.drop_eq_nil_of_le (by omega)] at hrest
      cases hrest
    have hrest' : rest = short.drop (j + 1) := by rw [← List.drop_drop, ← hrest]; rfl
    rw [tails, growSeed]
    split
    · dsimp only
      split
      · refine ih hrest' hlt ?_
        rintro o ⟨⟩
        exact hfits
      · exact ih hrest' hlt hbest
    · exact ih hrest' hlt hbest

theorem fits_of_overlapAt? {long short : Text} {i : Nat} {o : Overlap} (hi : i ≤ long.length)
    (h : overlapAt? long short i = some o) : o.Fits long short := by
  rw [overlapAt?] at h
  split at h
  · rename_i o' ho
    split at h
    · obtain rfl := Option.some.inj h
      exact fits_of_growSeed hi rfl (Nat.zero_le _) (by simp) o' ho
    · cases h
  · cases h

/-- **A common piece cuts both texts.** -/
theorem fits_of_overlap? {long short : Text} {o : Overlap} (h : overlap? long short = some o) :
    o.Fits long short := by
  rw [overlap?] at h
  split at h
  · cases h
  · rename_i hlen
    rw [Bool.or_eq_true, decide_eq_true_eq, decide_eq_true_eq, not_or] at hlen
    have hfirst : ∀ o, overlapAt? long short ((long.length + 3) / 4) = some o →
        o.Fits long short := fun _ => fits_of_overlapAt? (by omega)
    have hsecond : ∀ o, overlapAt? long short ((long.length + 1) / 2) = some o →
        o.Fits long short := fun _ => fits_of_overlapAt? (by omega)
    split at h
    · exact hsecond o h
    · rename_i first h₁ h₂
      obtain rfl := Option.some.inj h
      exact hfirst first h₁
    · rename_i first second h₁ h₂
      split at h
      · obtain rfl := Option.some.inj h
        exact hfirst first h₁
      · obtain rfl := Option.some.inj h
        exact hsecond second h₂

/-! ### The script -/

/-- The script starts from `a` and ends at `b`. -/
structure Leads (a b : Text) (es : List Edit) : Prop where
  source : source es = a
  target : target es = b

theorem Leads.append {a b c d : Text} {es fs : List Edit} (h : Leads a b es) (h' : Leads c d fs) :
    Leads (a ++ c) (b ++ d) (es ++ fs) := by
  refine ⟨?_, ?_⟩
  · rw [source_eq_side, side_append, ← source_eq_side, ← source_eq_side, h.source, h'.source]
  · rw [target_eq_side, side_append, ← target_eq_side, ← target_eq_side, h.target, h'.target]

theorem leads_nil : Leads [] [] [] := ⟨rfl, rfl⟩

theorem leads_keep (t : Text) : Leads t t [keep t] := by
  constructor <;> simp [source_eq_side, target_eq_side, piece]

theorem leads_delete (t : Text) : Leads t [] [delete t] := by
  constructor <;> simp [source_eq_side, target_eq_side, piece]

theorem leads_insert (t : Text) : Leads [] t [insert t] := by
  constructor <;> simp [source_eq_side, target_eq_side, piece]

theorem leads_replace (a b : Text) : Leads a b [delete a, insert b] := by
  simpa using (leads_delete a).append (leads_insert b)

theorem Leads.tidy {a b : Text} {es : List Edit} (h : Leads a b es) : Leads a b (tidy es) := by
  refine ⟨?_, ?_⟩
  · rw [source_eq_side, side_tidy (by decide), ← source_eq_side, h.source]
  · rw [target_eq_side, side_tidy (by decide), ← target_eq_side, h.target]

theorem leads_keep_if (t : Text) : Leads t t (if t.length = 0 then [] else [keep t]) := by
  split
  · rename_i ht
    rw [List.length_eq_zero_iff.mp ht]
    exact leads_nil
  · exact leads_keep t

theorem leads_delete_around {a b : Text} {i : Nat} (h : place? b a = some i) :
    Leads a b [delete (a.take i), keep b, delete (a.drop (i + b.length))] := by
  have hl := (leads_delete (a.take i)).append
    ((leads_keep b).append (leads_delete (a.drop (i + b.length))))
  rw [cut_at_place h] at hl
  simpa using hl

theorem leads_insert_around {a b : Text} {i : Nat} (h : place? a b = some i) :
    Leads a b [insert (b.take i), keep a, insert (b.drop (i + a.length))] := by
  have hl := (leads_insert (b.take i)).append
    ((leads_keep a).append (leads_insert (b.drop (i + a.length))))
  rw [cut_at_place h] at hl
  simpa using hl

section Halves

variable {halves : Text → Text → List Edit} (hh : ∀ a b, Leads a b (halves a b))
include hh

theorem leads_cut (a b : Text) : Leads a b (match Snake.cut? a b with
    | some (x, y) => halves (a.take x) (b.take y) ++ halves (a.drop x) (b.drop y)
    | none => [delete a, insert b]) := by
  split
  · rename_i x y _
    have h := (hh (a.take x) (b.take y)).append (hh (a.drop x) (b.drop y))
    rwa [List.take_append_drop, List.take_append_drop] at h
  · exact leads_replace a b

theorem leads_middle (a b : Text) : Leads a b (middle halves a b) := by
  rw [middle]
  split
  · rename_i ha
    rw [List.isEmpty_iff.mp ha]
    exact leads_insert b
  split
  · rename_i hb
    rw [List.isEmpty_iff.mp hb]
    exact leads_delete a
  -- either text may be the longer one
  by_cases hlen : b.length < a.length
  · simp only [hlen, if_true]
    split
    · rename_i i hi
      exact leads_delete_around hi
    split
    · exact leads_replace a b
    split
    · rename_i o ho
      obtain ⟨ha, hb⟩ := fits_of_overlap? ho
      rw [ha, hb]
      exact (hh _ _).append ((leads_keep _).append (hh _ _))
    · exact leads_cut hh a b
  · simp only [hlen, if_false]
    split
    · rename_i i hi
      exact leads_insert_around hi
    split
    · exact leads_replace a b
    split
    · rename_i o ho
      obtain ⟨hb, ha⟩ := fits_of_overlap? ho
      rw [ha, hb]
      exact (hh _ _).append ((leads_keep _).append (hh _ _))
    · exact leads_cut hh a b

end Halves

theorem leads_scriptTo : ∀ (depth : Nat) (a b : Text), Leads a b (scriptTo depth a b) := by
  intro depth
  induction depth with
  | zero => intro a b; exact leads_replace a b
  | succ depth ih =>
    intro a b
    rw [scriptTo]
    split
    · rename_i hab
      obtain rfl : a = b := eq_of_beq hab
      split
      · rename_i ha
        rw [List.isEmpty_iff.mp ha]
        exact leads_nil
      · exact leads_keep a
    · obtain ⟨p, x, y, rfl, rfl, hp⟩ := exists_commonPrefix a b
      obtain ⟨u, v, c, rfl, rfl, hc⟩ := exists_commonSuffix x y
      simp only [hp, List.drop_left, hc, List.length_append, Nat.add_sub_cancel, List.take_left]
      have h := ((leads_keep_if p).append (leads_middle ih u v)).append (leads_keep_if c)
      rw [List.append_assoc, List.append_assoc] at h
      exact h.tidy

/-- **The script between two texts starts from the first and ends at the second.** -/
theorem leads_script (a b : Text) : Leads a b (script a b) := leads_scriptTo _ a b

/-- **An edit of the script is a piece of the texts that it touches.** -/
theorem infix_of_mem_script {a b : Text} {e : Edit} (he : e ∈ script a b) :
    (e.kind ≠ .insert → e.text <:+: a) ∧ (e.kind ≠ .delete → e.text <:+: b) := by
  have h := leads_script a b
  refine ⟨fun hk => ?_, fun hk => ?_⟩
  · rw [← h.source, source_eq_side]
    exact infix_side he hk
  · rw [← h.target, target_eq_side]
    exact infix_side he hk

end Edit

end DateDisplay
