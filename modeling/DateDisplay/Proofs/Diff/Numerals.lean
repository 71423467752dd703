import DateDisplay.Diff.Lines
import DateDisplay.Proofs.Diff.Script
import DateDisplay.Proofs.Text
import Mathlib.Data.Nat.Digits.Defs

/-!
# Texts as lists of line numbers

A line diff is made for texts of decimal numbers with commas between them.  An edit of
such a script is a piece of one of these texts, and what stands between two commas of it
is a piece of a number.  This reads as a number that is not greater
(`ofDigits_le_of_infix`), so it stands for a line of the table unless it is zero
(`lineOf_eq_nil_iff`).

So an edit shows no line exactly when it has no digit but zeros in it
(`readNumerals_eq_nil_iff`), and a diff is empty exactly when this holds of all edits that
change anything (`changes_eq_nil_iff`).
-/

namespace DateDisplay

namespace Text

/-! ### Decimal numbers -/

theorem foldl_digits (s : Text) : ∀ n : Nat,
    s.foldl (fun n b => n * 10 + (b.toNat - 48)) n = n * 10 ^ s.length + ofDigits s := by
  induction s with
  | nil => intro n; simp [ofDigits]
  | cons b s ih =>
    intro n
    rw [ofDigits, List.foldl_cons, List.foldl_cons, ih, ih, List.length_cons, pow_succ]
    ring

theorem ofDigits_append (s t : Text) :
    ofDigits (s ++ t) = ofDigits s * 10 ^ t.length + ofDigits t := by
  rw [ofDigits, List.foldl_append, foldl_digits t]
  rfl

/-- **A piece of a number is a number that is not greater.** -/
theorem ofDigits_le_of_infix {p s : Text} (h : p <:+: s) : ofDigits p ≤ ofDigits s := by
  obtain ⟨u, v, rfl⟩ := h
  have hpos : 0 < 10 ^ v.length := Nat.pow_pos (by decide)
  calc ofDigits p ≤ ofDigits (u ++ p) := by rw [ofDigits_append]; omega
    _ ≤ ofDigits (u ++ p) * 10 ^ v.length := Nat.le_mul_of_pos_right _ hpos
    _ ≤ ofDigits (u ++ p ++ v) := by rw [ofDigits_append (u ++ p)]; omega

theorem isDigit_iff {b : UInt8} : isDigit b = true ↔ 48 ≤ b.toNat ∧ b.toNat ≤ 57 := by
  rw [isDigit, Bool.and_eq_true, decide_eq_true_eq, decide_eq_true_eq, UInt8.le_iff_toNat_le,
    UInt8.le_iff_toNat_le]
  rfl

theorem ofDigits_eq_zero_iff {s : Text} (h : ∀ b ∈ s, isDigit b = true) :
    ofDigits s = 0 ↔ ∀ b ∈ s, b = '0'.toUInt8 := by
  induction s with
  | nil => simp [ofDigits]
  | cons b s ih =>
    have hb := isDigit_iff.mp (h b (by simp))
    have hs := ih fun c hc => h c (by simp [hc])
    have hpos : 10 ^ s.length ≠ 0 := by positivity
    have hone : ofDigits [b] = 0 ↔ b = '0'.toUInt8 := by
      have hval : ofDigits [b] = b.toNat - 48 := by simp [ofDigits]
      rw [hval, ← UInt8.toNat_inj]
      change b.toNat - 48 = 0 ↔ b.toNat = 48
      omega
    rw [List.forall_mem_cons, ← hs, ← hone, ← List.singleton_append, ofDigits_append,
      Nat.add_eq_zero_iff, Nat.mul_eq_zero, or_iff_left hpos]

theorem toNat_of_isDigit {c : Char} (h : c.isDigit = true) :
    c.toUInt8.toNat = c.toNat ∧ 48 ≤ c.toNat ∧ c.toNat ≤ 57 := by
  have hc : 48 ≤ c.toNat ∧ c.toNat ≤ 57 := by
    rw [Char.isDigit, Bool.and_eq_true, decide_eq_true_eq, decide_eq_true_eq] at h
    exact ⟨UInt32.le_iff_toNat_le.mp h.1, UInt32.le_iff_toNat_le.mp h.2⟩
  refine ⟨?_, hc⟩
  change c.toNat % 256 = c.toNat
  omega

theorem isDigit_of_mem_decimal {n : Nat} {b : UInt8} (h : b ∈ decimal n) : isDigit b = true := by
  obtain ⟨c, hc, rfl⟩ := List.mem_map.mp h
  obtain ⟨hval, hlo, hhi⟩ :=
    toNat_of_isDigit (Nat.isDigit_of_mem_toDigits (by decide) (by decide) hc)
  rw [isDigit_iff, hval]
  exact ⟨hlo, hhi⟩

theorem ofDigits_decimal (n : Nat) : ofDigits (decimal n) = n := by
  have hn := Nat.ofDigitChars_ten_toDigits (n := n)
  rw [Nat.ofDigitChars_eq_foldl] at hn
  rw [decimal, ofDigits, List.foldl_map]
  refine Eq.trans (List.foldl_ext _ _ _ fun m c hc => ?_) hn
  obtain ⟨hval, -⟩ := toNat_of_isDigit (Nat.isDigit_of_mem_toDigits (by decide) (by decide) hc)
  rw [hval, Nat.mul_comm]
  rfl

theorem decimal_of_lt {n : Nat} (h : n < 10) : ∃ b : UInt8, decimal n = [b] ∧ b.toNat = 48 + n := by
  have hdigits := Nat.toDigits_of_lt_base h
  have hdigit : (Nat.digitChar n).isDigit = true :=
    Nat.isDigit_of_mem_toDigits (b := 10) (n := n) (by decide) (by decide) (by simp [hdigits])
  refine ⟨(Nat.digitChar n).toUInt8, by rw [decimal, hdigits, List.map_singleton], ?_⟩
  rw [(toNat_of_isDigit hdigit).1, Nat.toNat_digitChar_of_lt_ten h]

/-! ### Pieces between commas -/

theorem flatten_splitOn (x : UInt8) : ∀ s : Text,
    (splitOn [x] s).flatten = s.filter (· != x) := by
  intro s
  induction s with
  | nil => rfl
  | cons b s ih =>
    by_cases hb : b = x
    · subst hb
      rw [splitOn_cons_self, List.flatten_cons, List.nil_append, ih,
        List.filter_cons_of_neg (by simp)]
    · obtain ⟨p, ps, hp⟩ := List.exists_cons_of_ne_nil (splitOn_ne_nil x s)
      rw [hp, List.flatten_cons] at ih
      rw [splitOn_cons_of_ne hb hp, List.flatten_cons, List.cons_append, ih,
        List.filter_cons_of_pos (by simpa using hb)]

theorem infix_of_mem_splitOn {x : UInt8} {p s : Text} (h : p ∈ splitOn [x] s) : p <:+: s := by
  have hp : p <:+: join [x] (splitOn [x] s) := infix_join h
  rwa [join_splitOn (by simp)] at hp

end Text

open Text

namespace LineDiff

/-! ### Lines -/

theorem flatten_linesOf (s : Text) : (linesOf s).flatten = s := by
  fun_induction linesOf s with
  | case1 => rfl
  | case2 b t hb ih => rw [List.flatten_cons, ih, List.singleton_append]
  | case3 b t hb hnil ih =>
    rw [hnil] at ih
    simpa using ih
  | case4 b t hb l ls hls ih =>
    rw [hls, List.flatten_cons] at ih
    rw [List.flatten_cons, List.cons_append, ih]

theorem nil_notMem_linesOf (s : Text) : [] ∉ linesOf s := by
  fun_induction linesOf s with
  | case1 => simp
  | case2 b t hb ih => simpa using ih
  | case3 b t hb hnil ih => simp
  | case4 b t hb l ls hls ih =>
    rw [hls, List.mem_cons, not_or] at ih
    simpa using ih.2

theorem linesOf_eq_nil_iff {s : Text} : linesOf s = [] ↔ s = [] := by
  constructor
  · intro h
    rw [← flatten_linesOf s, h, List.flatten_nil]
  · rintro rfl
    rfl

/-! ### The table -/

variable {before after : Text}

theorem mem_table {l : Text} : l ∈ table before after ↔ l ∈ linesOf before ∨ l ∈ linesOf after := by
  rw [table, mem_distinct, List.mem_append]

theorem nil_notMem_table : [] ∉ table before after := by
  rw [mem_table, not_or]
  exact ⟨nil_notMem_linesOf before, nil_notMem_linesOf after⟩

theorem numberOf_le {t : List Text} {l : Text} (h : l ∈ t) : numberOf t l ≤ t.length := by
  have := List.idxOf_lt_length_iff.mpr h
  rw [numberOf]
  omega

/-! ### Reading numbers back -/

/-- What stands between two commas of a piece of a numeral text is nothing or a piece of a
number. -/
theorem infix_decimal {t : List Text} {s c p : Text} (hc : c <:+: numerals t s)
    (hp : p ∈ splitOn [','.toUInt8] c) (hne : p ≠ []) :
    ∃ l ∈ linesOf s, p <:+: decimal (numberOf t l) := by
  have hcomma := notMem_of_mem_splitOn _ _ p hp
  obtain ⟨q, hq, hpq⟩ :=
    infix_of_infix_join hcomma hne ((infix_of_mem_splitOn hp).trans hc)
  obtain ⟨l, hl, rfl⟩ := List.mem_map.mp hq
  exact ⟨l, hl, hpq⟩

/-- **A piece of a line's number stands for a line, unless it is zero.** -/
theorem lineOf_eq_nil_iff {t : List Text} {p : Text} {n : Nat} (ht : [] ∉ t) (hn : n ≤ t.length)
    (hp : p <:+: decimal n) : lineOf t p = [] ↔ ∀ b ∈ p, b = '0'.toUInt8 := by
  have hdigits : ∀ b ∈ p, isDigit b = true := fun b hb => isDigit_of_mem_decimal (hp.mem hb)
  have hle : ofDigits p ≤ t.length := by
    have := ofDigits_le_of_infix hp
    rw [ofDigits_decimal] at this
    omega
  rw [← ofDigits_eq_zero_iff hdigits, lineOf]
  split
  · rename_i h
    have hnil : p = [] := by
      rcases Bool.or_eq_true _ _ ▸ h with h | h
      · exact List.isEmpty_iff.mp h
      · simp only [Bool.not_eq_true', List.all_eq_false] at h
        obtain ⟨b, hb, hnot⟩ := h
        exact absurd (hdigits b hb) hnot
    subst hnil
    simp [ofDigits]
  · split
    · rename_i hzero
      simp [hzero]
    · rename_i k hk
      have hk' : k < t.length := by omega
      have hline : t.getD k [] ≠ [] := by
        rw [List.getD_eq_getElem?_getD, List.getElem?_eq_getElem hk', Option.getD_some]
        intro h
        exact ht (h ▸ List.getElem_mem hk')
      exact ⟨fun h => absurd h hline, fun h => absurd h (by rw [hk]; exact Nat.succ_ne_zero k)⟩

/-- **An edit shows no line exactly when it has no digit but zeros.** -/
theorem readNumerals_eq_nil_iff {t : List Text} {s c : Text} (ht : [] ∉ t)
    (hs : ∀ l ∈ linesOf s, l ∈ t) (hc : c <:+: numerals t s) :
    readNumerals t c = [] ↔ ∀ b ∈ c, b = ','.toUInt8 ∨ b = '0'.toUInt8 := by
  have hpiece : ∀ p ∈ splitOn [','.toUInt8] c, lineOf t p = [] ↔ ∀ b ∈ p, b = '0'.toUInt8 := by
    intro p hp
    by_cases hne : p = []
    · subst hne
      simp [lineOf]
    · obtain ⟨l, hl, hpl⟩ := infix_decimal hc hp hne
      exact lineOf_eq_nil_iff ht (numberOf_le (hs l hl)) hpl
  have hmem : ∀ b, (∃ p ∈ splitOn [','.toUInt8] c, b ∈ p) ↔ b ∈ c ∧ b ≠ ','.toUInt8 := by
    intro b
    rw [← List.mem_flatten, flatten_splitOn, List.mem_filter, bne_iff_ne]
  rw [readNumerals, List.flatMap_eq_nil_iff]
  constructor
  · intro h b hb
    by_cases hcomma : b = ','.toUInt8
    · exact Or.inl hcomma
    · obtain ⟨p, hp, hbp⟩ := (hmem b).mpr ⟨hb, hcomma⟩
      exact Or.inr ((hpiece p hp).mp (h p hp) b hbp)
  · intro h p hp
    refine (hpiece p hp).mpr fun b hbp => ?_
    obtain ⟨hb, hcomma⟩ := (hmem b).mp ⟨p, hp, hbp⟩
    exact (h b hb).resolve_left hcomma

/-! ### Empty diffs -/

theorem render_eq_nil_iff : ∀ {es : List Edit} {old new : Nat}, render old new es = [] ↔
    ∀ e ∈ es, e.kind ≠ .keep → e.text = [] := by
  intro es
  induction es with
  | nil => intro old new; simp [render]
  | cons e es ih =>
    intro old new
    have hentries : entries old new e = [] ↔ (e.kind ≠ .keep → e.text = []) := by
      rw [entries]
      split <;> rename_i hk <;> simp [hk, bareLines, linesOf_eq_nil_iff]
    rw [render, List.append_eq_nil_iff, ih, hentries, List.forall_mem_cons]

/-- The script for the line numbers of two texts. -/
def numberScript (before after : Text) : List Edit :=
  Edit.script (numerals (table before after) before) (numerals (table before after) after)

/-- All that changes in the line numbers are commas and zeros. -/
def Silent (before after : Text) : Prop :=
  ∀ e ∈ numberScript before after, e.kind ≠ .keep →
    ∀ b ∈ e.text, b = ','.toUInt8 ∨ b = '0'.toUInt8

theorem edits_eq (before after : Text) : edits before after = (numberScript before after).map
    fun e => { e with text := readNumerals (table before after) e.text } := rfl

theorem infix_numerals {e : Edit} (he : e ∈ numberScript before after) :
    ∃ s, (∀ l ∈ linesOf s, l ∈ table before after) ∧
      e.text <:+: numerals (table before after) s := by
  obtain ⟨hbefore, hafter⟩ := Edit.infix_of_mem_script he
  by_cases hk : e.kind = .insert
  · exact ⟨after, fun l hl => mem_table.mpr (Or.inr hl), hafter (by rw [hk]; decide)⟩
  · exact ⟨before, fun l hl => mem_table.mpr (Or.inl hl), hbefore hk⟩

/-- **Nothing is shown exactly when all that changes are commas and zeros.** -/
theorem render_edits_eq_nil_iff {old new : Nat} :
    render old new (edits before after) = [] ↔ Silent before after := by
  rw [render_eq_nil_iff, edits_eq, List.forall_mem_map]
  refine forall₂_congr fun e he => imp_congr_right fun _ => ?_
  obtain ⟨s, hs, hc⟩ := infix_numerals he
  exact readNumerals_eq_nil_iff nil_notMem_table hs hc

theorem silent_self (s : Text) : Silent s s := by
  intro e he hk
  rw [numberScript, Edit.script, Edit.scriptTo] at he
  simp only [beq_self_eq_true, if_true] at he
  split at he
  · cases he
  · rw [List.mem_singleton.mp he] at hk
    exact absurd rfl hk

theorem changes_eq_nil_iff : changes before after = [] ↔ Silent before after := by
  rw [changes]
  split
  · rename_i h
    obtain rfl : before = after := eq_of_beq h
    simp [silent_self]
  · exact render_edits_eq_nil_iff

theorem unified_eq_nil_iff {path : Text} :
    unified path before after = [] ↔ Silent before after := by
  rw [← changes_eq_nil_iff, unified]
  split
  · rename_i h
    simp [h]
  · rename_i h
    exact ⟨fun he => absurd he (by simp), fun he => absurd he h⟩

end LineDiff

end DateDisplay
