import DateDisplay.Proofs.Symbols
import Mathlib.Tactic.IntervalCases

/-!
# The words of a text

White space is a matter of characters, and a text is a list of bytes.  `Words s ws` says
without decoding anything what the words of a text are: the text is made of the bytes of
white space characters and of words, and a word is a piece that is not empty, has no
white space starting in it and goes on until white space or the end of the text comes.

`words_iff` says that this is what `fields` finds.  What it needs to know about UTF-8 is
that a character which is read has the bytes of its code point (`take_of_decodeHead`), and
that white space is read off its bytes (`decodeHead_encodePoint`).
-/

namespace DateDisplay

namespace Text

/-! ### Characters and their bytes -/

theorem toUInt8_eq {n : Nat} {b : UInt8} (hn : n = b.toNat) : n.toUInt8 = b := by
  rw [hn]
  exact UInt8.ofNat_toNat

theorem isContinuation_iff {b : UInt8} :
    isContinuation b = true ↔ 0x80 ≤ b.toNat ∧ b.toNat ≤ 0xBF := by
  simp [isContinuation, UInt8.le_iff_toNat_le]

theorem bounds_of_secondOk {a b : UInt8} (h : secondOk a b = true) :
    0x80 ≤ b.toNat ∧ b.toNat ≤ 0xBF ∧ (a.toNat = 0xE0 → 0xA0 ≤ b.toNat) ∧
      (a.toNat = 0xF0 → 0x90 ≤ b.toNat) := by
  simp only [secondOk, beq_iff_eq, ← UInt8.toNat_inj, isContinuation, UInt8.le_iff_toNat_le] at h
  repeat' split at h
  all_goals
    simp only [Bool.and_eq_true, decide_eq_true_eq, UInt8.reduceToNat] at *
    omega

/-- **A character that is read has the bytes of its code point.** -/
theorem take_of_decodeHead {s : Text} {p n : Nat} (h : decodeHead s = some (.point p, n)) :
    s.take n = encodePoint p := by
  revert h
  fun_cases decodeHead s <;> intro h <;> cases h
  case case2 a t ha =>
    have ha : a.toNat < 0x80 := UInt8.lt_iff_toNat_lt.mp ha
    rw [encodePoint, if_pos ha, toUInt8_eq rfl]
    rfl
  case case3 a _ ha b t hb =>
    simp only [Bool.and_eq_true, decide_eq_true_eq, UInt8.le_iff_toNat_le,
      UInt8.reduceToNat] at ha
    rw [isContinuation_iff] at hb
    rw [encodePoint, payload, if_neg (by omega), if_pos (by omega), toUInt8_eq (b := a) (by omega),
      toUInt8_eq (b := b) (by omega)]
    rfl
  case case6 a _ _ ha b c t hbc =>
    simp only [Bool.and_eq_true, decide_eq_true_eq, UInt8.le_iff_toNat_le,
      UInt8.reduceToNat] at ha hbc
    have hb := bounds_of_secondOk hbc.1
    have hc := isContinuation_iff.mp hbc.2
    rw [encodePoint, payload, payload, if_neg (by omega), if_neg (by omega), if_pos (by omega),
      toUInt8_eq (b := a) (by omega), toUInt8_eq (b := b) (by omega),
      toUInt8_eq (b := c) (by omega)]
    rfl
  case case9 a _ _ _ ha b c d t hbcd =>
    simp only [Bool.and_eq_true, decide_eq_true_eq, UInt8.le_iff_toNat_le,
      UInt8.reduceToNat] at ha hbcd
    have hb := bounds_of_secondOk hbcd.1.1
    have hc := isContinuation_iff.mp hbcd.1.2
    have hd := isContinuation_iff.mp hbcd.2
    rw [encodePoint, payload, payload, payload, if_neg (by omega), if_neg (by omega),
      if_neg (by omega), toUInt8_eq (b := a) (by omega), toUInt8_eq (b := b) (by omega),
      toUInt8_eq (b := c) (by omega), toUInt8_eq (b := d) (by omega)]
    rfl

theorem blank_cases {p : Nat} (hp : isBlankPoint p = true) :
    (9 ≤ p ∧ p ≤ 13) ∨ (0x2000 ≤ p ∧ p ≤ 0x200A) ∨ p = 0x20 ∨ p = 0x85 ∨ p = 0xA0 ∨
      p = 0x1680 ∨ p = 0x2028 ∨ p = 0x2029 ∨ p = 0x202F ∨ p = 0x205F ∨ p = 0x3000 := by
  simp only [isBlankPoint, Bool.or_eq_true, Bool.and_eq_true, decide_eq_true_eq, beq_iff_eq] at hp
  omega

/-- **White space is read off its bytes**, whatever stands behind them. -/
theorem decodeHead_encodePoint {p : Nat} (hp : isBlankPoint p = true) (r : Text) :
    decodeHead (encodePoint p ++ r) = some (.point p, (encodePoint p).length) := by
  rcases blank_cases hp with ⟨hl, hu⟩ | ⟨hl, hu⟩ | h
  · interval_cases p <;> rfl
  · interval_cases p <;> rfl
  · rcases h with rfl | rfl | rfl | rfl | rfl | rfl | rfl | rfl | rfl <;> rfl

/-! ### White space ahead -/

/-- The bytes of a white space character stand at the front of the text. -/
def BlankAhead (s : Text) : Prop := ∃ p, isBlankPoint p = true ∧ encodePoint p <+: s

theorem encodePoint_ne_nil (p : Nat) : encodePoint p ≠ [] := by
  unfold encodePoint
  split_ifs <;> simp

theorem blankHead_encodePoint {p : Nat} (hp : isBlankPoint p = true) (r : Text) :
    blankHead (encodePoint p ++ r) = (encodePoint p).length := by
  rw [blankHead, decodeHead_encodePoint hp]
  exact if_pos hp

theorem blankHead_eq_zero_iff {s : Text} : blankHead s = 0 ↔ ¬BlankAhead s := by
  constructor
  · rintro h ⟨p, hp, r, rfl⟩
    rw [blankHead_encodePoint hp, List.length_eq_zero_iff] at h
    exact encodePoint_ne_nil p h
  · intro h
    rw [blankHead]
    split
    · rename_i p n hd
      -- the character that is read has its bytes at the front
      have hs : encodePoint p <+: s := take_of_decodeHead hd ▸ List.take_prefix n s
      exact if_neg fun hp => h ⟨p, hp, hs⟩
    · rfl

/-! ### Words -/

/-- The text is made of white space characters and of the words, in this order.  A word
has no white space starting in it, and it goes on up to white space or to the end. -/
inductive Words : Text → List Text → Prop
  | nil : Words [] []
  | blank {p : Nat} {s : Text} {ws : List Text} : isBlankPoint p = true → Words s ws →
      Words (encodePoint p ++ s) ws
  | word {w s : Text} {ws : List Text} : w ≠ [] →
      (∀ x, x <:+ w → x ≠ [] → ¬BlankAhead (x ++ s)) → s = [] ∨ BlankAhead s → Words s ws →
      Words (w ++ s) (w :: ws)

theorem fieldsFrom_eq_drop : ∀ (s : Text) (skip : Nat),
    fieldsFrom skip s = fields (s.drop skip) := by
  intro s
  induction s with
  | nil => intro skip; cases skip <;> rfl
  | cons b s ih =>
    intro skip
    cases skip with
    | zero => rfl
    | succ skip => exact ih skip

theorem fields_blank {p : Nat} (hp : isBlankPoint p = true) (s : Text) :
    fields (encodePoint p ++ s) = fields s := by
  have hhead := blankHead_encodePoint hp s
  obtain ⟨b, c, hbc⟩ := List.exists_cons_of_ne_nil (encodePoint_ne_nil p)
  rw [hbc, List.cons_append, List.length_cons] at hhead
  rw [hbc, List.cons_append, fields, fieldsFrom, hhead]
  show fieldsFrom c.length (c ++ s) = fields s
  rw [fieldsFrom_eq_drop, List.drop_left]

theorem fields_cons_last {b : UInt8} {s : Text} (hb : ¬BlankAhead (b :: s))
    (hs : s = [] ∨ BlankAhead s) : fields (b :: s) = [b] :: fields s := by
  have hcond : (s.isEmpty || blankHead s != 0) = true := by
    rcases hs with rfl | hs
    · rfl
    · simpa [blankHead_eq_zero_iff] using Or.inr hs
  rw [fields, fieldsFrom, blankHead_eq_zero_iff.mpr hb]
  exact if_pos hcond

theorem fields_cons_word {b : UInt8} {s w : Text} {ws : List Text} (hb : ¬BlankAhead (b :: s))
    (hne : s ≠ []) (hs : ¬BlankAhead s) (hw : fields s = w :: ws) :
    fields (b :: s) = (b :: w) :: ws := by
  have hcond : ¬(s.isEmpty || blankHead s != 0) = true := by
    simp [blankHead_eq_zero_iff.mpr hs, hne]
  rw [fields] at hw
  rw [fields, fieldsFrom, blankHead_eq_zero_iff.mpr hb]
  dsimp only
  rw [if_neg hcond, hw]

theorem fields_word {s : Text} (hs : s = [] ∨ BlankAhead s) : ∀ {w : Text}, w ≠ [] →
    (∀ x, x <:+ w → x ≠ [] → ¬BlankAhead (x ++ s)) → fields (w ++ s) = w :: fields s := by
  intro w
  induction w with
  | nil => intro h _; exact absurd rfl h
  | cons b w ih =>
    intro _ h
    have hb : ¬BlankAhead (b :: (w ++ s)) := h (b :: w) List.suffix_rfl (by simp)
    by_cases hw : w = []
    · subst hw
      exact fields_cons_last hb hs
    · have hrest := ih hw fun x hx => h x (hx.trans (List.suffix_cons b w))
      exact fields_cons_word hb (by simp [hw]) (h w (List.suffix_cons b w) hw) hrest

theorem words_fields (s : Text) : Words s (fields s) := by
  induction hn : s.length using Nat.strong_induction_on generalizing s with
  | _ n ih =>
    by_cases hs : BlankAhead s
    · obtain ⟨p, hp, r, rfl⟩ := hs
      have hlen := List.length_pos_of_ne_nil (encodePoint_ne_nil p)
      rw [List.length_append] at hn
      rw [fields_blank hp]
      exact .blank hp (ih r.length (by omega) r rfl)
    · cases s with
      | nil => exact .nil
      | cons b t =>
        have hb : ∀ x, x <:+ [b] → x ≠ [] → ¬BlankAhead (x ++ t) := by
          intro x hx hne
          obtain rfl : x = [b] := (List.suffix_cons_iff.mp hx).resolve_right fun h =>
            hne (List.suffix_nil.mp h)
          exact hs
        have ht := ih t.length (by rw [← hn]; simp) t rfl
        by_cases hend : t = [] ∨ BlankAhead t
        · rw [fields_cons_last hs hend]
          exact .word (by simp) hb hend ht
        · rw [not_or] at hend
          -- `t` starts with a word, and the byte before it belongs to this word
          generalize hws : fields t = ws at ht
          cases ht with
          | nil => exact absurd rfl hend.1
          | blank hp _ => exact absurd ⟨_, hp, List.prefix_append _ _⟩ hend.2
          | @word w r ws hw hin hr hrest =>
            rw [fields_cons_word hs hend.1 hend.2 hws]
            refine .word (w := b :: w) (by simp) (fun x hx hne => ?_) hr hrest
            rcases List.suffix_cons_iff.mp hx with rfl | hx
            · exact hs
            · exact hin x hx hne

/-- **The words of a text are those that are found.** -/
theorem words_iff {s : Text} {ws : List Text} : Words s ws ↔ fields s = ws := by
  constructor
  · intro h
    induction h with
    | nil => rfl
    | blank hp _ ih => rw [fields_blank hp, ih]
    | word hw hin hs _ ih => rw [fields_word hs hw hin, ih]
  · rintro rfl
    exact words_fields s

theorem ne_nil_of_mem_fields {s w : Text} (h : w ∈ fields s) : w ≠ [] := by
  have hwords := words_fields s
  generalize fields s = ws at h hwords
  induction hwords with
  | nil => cases h
  | blank _ _ ih => exact ih h
  | word hw _ _ _ ih =>
    rcases List.mem_cons.mp h with rfl | h
    · exact hw
    · exact ih h

end Text

end DateDisplay
