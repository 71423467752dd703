import DateDisplay.Proofs.Diff.Numerals

/-!
# What a line diff says about its texts

A diff shows the lines of a script one after the other, and counts the lines of either
text along the way.  `perLine` takes a script apart into edits of one line each, so that
every step of the count is one edit (`render_eq_shown`).  Each text is then the lines of
all edits but those of one kind (`linesOn`), and three facts hold on either side: the
numbers that are shown increase (`pairwise_numbered`), each stands with the line that it
is the number of (`mem_shown`), and the lines whose numbers are not shown are the kept
ones (`without_numbered`).

With fewer than ten different lines a number is one digit, and cannot be cut in two.  The
lines of a script for the numbers are then the lines of the texts (`linesOn_edits`), so
the diff accounts for every line: what it does not show is the same in both texts
(`without_changes`).
-/

namespace DateDisplay

open Text

namespace LineDiff

/-! ### Entries of a diff -/

/-- A line without the line feed that ends it. -/
def bare (l : Text) : Text := if l.getLast? == some 10 then l.dropLast else l

theorem bareLines_eq (s : Text) : bareLines s = (linesOf s).map bare := rfl

/-- The entry has the sign `sign`. -/
def hasSign (sign : Char) (e : Text) : Bool := e.head? == some sign.toUInt8

/-- The number of an entry, which stands behind its sign and some spaces. -/
def entryNumber (e : Text) : Nat :=
  ofDigits (((e.drop 1).dropWhile (· == 32)).takeWhile isDigit)

/-- The numbers of the entries with a sign. -/
def numbers (sign : Char) (es : List Text) : List Nat := (es.filter (hasSign sign)).map entryNumber

theorem hasSign_entry (sign sign' : Char) (n : Nat) (l : Text) :
    hasSign sign (entry sign' n l) = (sign'.toUInt8 == sign.toUInt8) := rfl

theorem entryNumber_entry (sign : Char) (n : Nat) (l : Text) :
    entryNumber (entry sign n l) = n := by
  obtain ⟨b, ds, hds⟩ := List.exists_cons_of_ne_nil
    (show decimal n ≠ [] by simp [decimal, Nat.toDigits_ne_nil])
  have hb : (b == (32 : UInt8)) = false := by
    have := isDigit_iff.mp (isDigit_of_mem_decimal (n := n) (b := b) (by simp [hds]))
    rw [beq_eq_false_iff_ne]
    rintro rfl
    exact absurd this.1 (by decide)
  have hspaces : ∀ k, ∀ c ∈ spaces k, (c == (32 : UInt8)) = true := by
    intro k c hc
    rw [List.eq_of_mem_replicate hc]
    rfl
  have hdrop : (entry sign n l).drop 1
      = spaces (4 - (decimal n).length) ++ b :: (ds ++ 32 :: (lit "| " ++ l)) := by
    rw [entry, column]
    simp only [hds]
    simp [List.append_assoc]
    rfl
  rw [entryNumber, hdrop, dropWhile_cut (hspaces _) hb, ← List.cons_append, ← hds,
    takeWhile_cut (fun c => isDigit_of_mem_decimal) (by decide), ofDigits_decimal]

@[simp] theorem numbers_nil (sign : Char) : numbers sign [] = [] := rfl

theorem numbers_cons_of_sign (sign : Char) (n : Nat) (l : Text) (es : List Text) :
    numbers sign (entry sign n l :: es) = n :: numbers sign es := by
  have h : hasSign sign (entry sign n l) = true := by rw [hasSign_entry, beq_self_eq_true]
  rw [numbers, List.filter_cons_of_pos h, List.map_cons, entryNumber_entry, numbers]

theorem numbers_cons_of_ne {sign sign' : Char} (hs : (sign'.toUInt8 == sign.toUInt8) = false)
    (n : Nat) (l : Text) (es : List Text) :
    numbers sign (entry sign' n l :: es) = numbers sign es := by
  have h : ¬hasSign sign (entry sign' n l) = true := by rw [hasSign_entry, hs]; decide
  rw [numbers, List.filter_cons_of_neg h, numbers]

/-! ### Line by line -/

/-- A script of whole lines as edits of one line each. -/
def perLine (es : List Edit) : List Edit :=
  es.flatMap fun e => (linesOf e.text).map (Edit.mk e.kind)

/-- The entries for edits of one line each, where `old` and `new` number the next line of
either text. -/
def shown : Nat → Nat → List Edit → List Text
  | _, _, [] => []
  | old, new, ⟨.keep, _⟩ :: es => shown (old + 1) (new + 1) es
  | old, new, ⟨.delete, l⟩ :: es => entry '-' old (bare l) :: shown (old + 1) new es
  | old, new, ⟨.insert, l⟩ :: es => entry '+' new (bare l) :: shown old (new + 1) es

theorem shown_lines (kind : EditKind) (es : List Edit) : ∀ (ls : List Text) (old new : Nat),
    shown old new (ls.map (Edit.mk kind) ++ es)
      = (match kind with
          | .keep => []
          | .delete => (ls.map bare).mapIdx fun i l => entry '-' (old + i) l
          | .insert => (ls.map bare).mapIdx fun i l => entry '+' (new + i) l)
        ++ shown (if kind = .insert then old else old + ls.length)
          (if kind = .delete then new else new + ls.length) es := by
  intro ls
  induction ls with
  | nil => intro old new; cases kind <;> simp
  | cons l ls ih =>
    intro old new
    cases kind <;> simp [shown, ih, List.mapIdx_cons, Nat.add_assoc, Nat.add_comm 1]

theorem render_eq_shown : ∀ (es : List Edit) (old new : Nat),
    render old new es = shown old new (perLine es) := by
  intro es
  induction es with
  | nil => intro old new; rfl
  | cons e es ih =>
    intro old new
    have hcons : perLine (e :: es) = (linesOf e.text).map (Edit.mk e.kind) ++ perLine es := rfl
    rw [render, ih, hcons, shown_lines, bareLines_eq, List.length_map]
    rfl

/-! ### The two texts of a script -/

/-- The lines of a script's edits, but for those of the kind `gone`. -/
def linesOn (gone : EditKind) (es : List Edit) : List Text :=
  (es.filter (·.kind != gone)).map (·.text)

/-- The numbers of the lines that are not kept, counted from `n` on where the edits of the kind
`gone` are left out. -/
def numbered (gone : EditKind) : Nat → List Edit → List Nat
  | _, [] => []
  | n, e :: es =>
    if e.kind = gone then numbered gone n es
    else if e.kind = .keep then numbered gone (n + 1) es
    else n :: numbered gone (n + 1) es

/-- The lines from number `n` on without those with the numbers `ns`. -/
def without (n : Nat) (ns : List Nat) (ls : List Text) : List Text :=
  ((ls.zipIdx n).filter (fun p => p.2 ∉ ns)).map Prod.fst

/-- The kept lines of a script. -/
def kept (es : List Edit) : List Text := (es.filter (·.kind == .keep)).map (·.text)

theorem numbers_shown : ∀ (es : List Edit) (old new : Nat),
    numbers '-' (shown old new es) = numbered .insert old es ∧
      numbers '+' (shown old new es) = numbered .delete new es := by
  have hplus : ('+'.toUInt8 == '-'.toUInt8) = false := by decide
  have hminus : ('-'.toUInt8 == '+'.toUInt8) = false := by decide
  intro es
  induction es with
  | nil => intro old new; exact ⟨rfl, rfl⟩
  | cons e es ih =>
    obtain ⟨kind, l⟩ := e
    intro old new
    cases kind with
    | keep => simp [shown, numbered, ih]
    | delete => simp [shown, numbered, ih, numbers_cons_of_sign, numbers_cons_of_ne hminus]
    | insert => simp [shown, numbered, ih, numbers_cons_of_sign, numbers_cons_of_ne hplus]

variable {gone : EditKind}

theorem le_of_mem_numbered {i : Nat} : ∀ {es : List Edit} {n : Nat}, i ∈ numbered gone n es →
    n ≤ i := by
  intro es
  induction es with
  | nil => intro n h; cases h
  | cons e es ih =>
    intro n h
    rw [numbered] at h
    split at h
    · exact ih h
    · split at h
      · have := ih h
        omega
      · rcases List.mem_cons.mp h with rfl | h
        · exact Nat.le_refl _
        · have := ih h
          omega

/-- **The numbers that a diff shows of a text increase.** -/
theorem pairwise_numbered : ∀ (es : List Edit) (n : Nat),
    (numbered gone n es).Pairwise (· < ·) := by
  intro es
  induction es with
  | nil => intro n; exact .nil
  | cons e es ih =>
    intro n
    rw [numbered]
    split
    · exact ih n
    · split
      · exact ih (n + 1)
      · exact List.pairwise_cons.mpr ⟨fun i hi => le_of_mem_numbered hi, ih (n + 1)⟩

theorem without_nil (n : Nat) (ls : List Text) : without n [] ls = ls := by
  simp [without]

theorem without_cons (n : Nat) (ns : List Nat) (l : Text) (ls : List Text) :
    without n ns (l :: ls)
      = if n ∈ ns then without (n + 1) ns ls else l :: without (n + 1) ns ls := by
  rw [without, List.zipIdx_cons]
  by_cases h : n ∈ ns
  · rw [if_pos h, List.filter_cons_of_neg (by simpa using h), without]
  · rw [if_neg h, List.filter_cons_of_pos (by simpa using h), List.map_cons, without]

theorem without_drop_number {m : Nat} (ns : List Nat) : ∀ {ls : List Text} {n : Nat}, m < n →
    without n (m :: ns) ls = without n ns ls := by
  intro ls
  induction ls with
  | nil => intro n _; rfl
  | cons l ls ih =>
    intro n h
    have hmem : n ∈ m :: ns ↔ n ∈ ns := by
      rw [List.mem_cons, or_iff_right (by omega)]
    rw [without_cons, without_cons, ih (by omega)]
    simp only [hmem]

/-- **Without the lines that a diff shows, a text has its kept lines.** -/
theorem without_numbered (hg : gone ≠ .keep) : ∀ (es : List Edit) (n : Nat),
    without n (numbered gone n es) (linesOn gone es) = kept es := by
  intro es
  induction es with
  | nil => intro n; rfl
  | cons e es ih =>
    obtain ⟨kind, l⟩ := e
    intro n
    rw [numbered]
    split
    · rename_i hk
      obtain rfl : kind = gone := hk
      rw [linesOn, List.filter_cons_of_neg (by simp), kept,
        List.filter_cons_of_neg (by simpa using hg)]
      exact ih n
    · rename_i hk
      rw [linesOn, List.filter_cons_of_pos (by simpa using hk), List.map_cons, without_cons]
      split
      · rename_i hkeep
        have hn : n ∉ numbered gone (n + 1) es := by
          intro h
          have := le_of_mem_numbered h
          omega
        rw [if_neg hn, kept, List.filter_cons_of_pos (by simpa using hkeep), List.map_cons]
        exact congrArg (l :: ·) (ih (n + 1))
      · rename_i hkeep
        rw [if_pos (by simp), without_drop_number _ (by omega), kept,
          List.filter_cons_of_neg (by simpa using hkeep)]
        exact ih (n + 1)

/-- The entry shows a line of the text, under the line's number counted from `n` on. -/
def Shows (sign : Char) (n : Nat) (ls : List Text) (e : Text) : Prop :=
  ∃ i l, ls[i]? = some l ∧ e = entry sign (n + i) (bare l)

theorem Shows.cons {sign : Char} {n : Nat} {ls : List Text} {e : Text} (l : Text)
    (h : Shows sign (n + 1) ls e) : Shows sign n (l :: ls) e := by
  obtain ⟨i, k, hk, rfl⟩ := h
  exact ⟨i + 1, k, hk, by rw [Nat.add_assoc, Nat.add_comm 1]⟩

/-- **Every entry shows a line under its number.** -/
theorem mem_shown {t : Text} : ∀ {es : List Edit} {old new : Nat}, t ∈ shown old new es →
    Shows '-' old (linesOn .insert es) t ∨ Shows '+' new (linesOn .delete es) t := by
  intro es
  induction es with
  | nil => intro old new h; cases h
  | cons e es ih =>
    obtain ⟨kind, l⟩ := e
    intro old new h
    cases kind with
    | keep => exact (ih h).imp (·.cons l) (·.cons l)
    | delete =>
      rcases List.mem_cons.mp h with rfl | h
      · exact Or.inl ⟨0, l, rfl, rfl⟩
      · exact (ih h).imp_left (·.cons l)
    | insert =>
      rcases List.mem_cons.mp h with rfl | h
      · exact Or.inr ⟨0, l, rfl, rfl⟩
      · exact (ih h).imp_right (·.cons l)

/-! ### Lists of lines -/

/-- The lines of some text: each is ended by its only line feed, but for the last, which may
have none. -/
inductive AreLines : List Text → Prop
  | nil : AreLines []
  | last {l : Text} : l ≠ [] → 10 ∉ l → AreLines [l]
  | cons {w : Text} {ls : List Text} : 10 ∉ w → AreLines ls → AreLines ((w ++ [10]) :: ls)

theorem AreLines.uncons {l : Text} {ls : List Text} (h : AreLines (l :: ls)) :
    (ls = [] ∧ l ≠ [] ∧ 10 ∉ l) ∨ ∃ w, l = w ++ [10] ∧ 10 ∉ w ∧ AreLines ls := by
  cases h with
  | last hne hl => exact Or.inl ⟨rfl, hne, hl⟩
  | cons hw h => exact Or.inr ⟨_, rfl, hw, h⟩

theorem areLines_linesOf (s : Text) : AreLines (linesOf s) := by
  fun_induction linesOf s with
  | case1 => exact .nil
  | case2 b t hb ih =>
    rw [eq_of_beq hb]
    exact .cons (w := []) (by simp) ih
  | case3 b t hb hnil ih => exact .last (by simp) (by simpa using Ne.symm (mt beq_iff_eq.mpr hb))
  | case4 b t hb l ls hls ih =>
    have hb' : (10 : UInt8) ≠ b := Ne.symm (mt beq_iff_eq.mpr hb)
    rw [hls] at ih
    rcases ih.uncons with ⟨rfl, -, hl⟩ | ⟨w, rfl, hw, hrest⟩
    · exact .last (by simp) (by simp [hb', hl])
    · exact .cons (w := b :: w) (by simp [hb', hw]) hrest

theorem linesOf_of_notMem : ∀ {l : Text}, l ≠ [] → 10 ∉ l → linesOf l = [l] := by
  intro l
  induction l with
  | nil => intro h _; exact absurd rfl h
  | cons b l ih =>
    intro _ h
    rw [List.mem_cons, not_or] at h
    have hb : ¬(b == 10) = true := mt beq_iff_eq.mp (Ne.symm h.1)
    rw [linesOf, if_neg hb]
    cases l with
    | nil => rfl
    | cons c l => rw [ih (by simp) h.2]

theorem linesOf_line_append {w : Text} (hw : 10 ∉ w) (t : Text) :
    linesOf (w ++ 10 :: t) = (w ++ [10]) :: linesOf t := by
  induction w with
  | nil => rfl
  | cons b w ih =>
    rw [List.mem_cons, not_or] at hw
    have hb : ¬(b == 10) = true := mt beq_iff_eq.mp (Ne.symm hw.1)
    rw [List.cons_append, linesOf, if_neg hb, ih hw.2]
    rfl

/-- **Lines are read off what they join to.** -/
theorem AreLines.linesOf_flatten {ls : List Text} (h : AreLines ls) : linesOf ls.flatten = ls := by
  induction h with
  | nil => rfl
  | last hne hl => rw [List.flatten_singleton, linesOf_of_notMem hne hl]
  | cons hw _ ih =>
    rw [List.flatten_cons, List.append_assoc, List.singleton_append, linesOf_line_append hw, ih]

theorem AreLines.of_append {v : List Text} : ∀ {u : List Text}, AreLines (u ++ v) →
    AreLines u ∧ AreLines v := by
  intro u
  induction u with
  | nil => intro h; exact ⟨.nil, h⟩
  | cons l u ih =>
    intro h
    rcases h.uncons with ⟨hnil, hne, hl⟩ | ⟨w, rfl, hw, h⟩
    · obtain ⟨rfl, rfl⟩ := List.append_eq_nil_iff.mp hnil
      exact ⟨.last hne hl, .nil⟩
    · exact ⟨.cons hw (ih h).1, (ih h).2⟩

theorem AreLines.of_isInfix {ls ks : List Text} (h : AreLines ls) (hk : ks <:+: ls) :
    AreLines ks := by
  obtain ⟨u, v, rfl⟩ := hk
  exact h.of_append.1.of_append.2

/-! ### Numbers of one digit -/

/-- The lines that the digits of a numeral text stand for, where each is a number. -/
def linesIn (t : List Text) (c : Text) : List Text :=
  (c.filter (· != ','.toUInt8)).map fun b => t.getD (b.toNat - 49) []

theorem digit_of_mem {t : List Text} {l : Text} (ht : t.length ≤ 9) (hl : l ∈ t) :
    ∃ b : UInt8, decimal (numberOf t l) = [b] ∧ lineOf t [b] = l ∧
      t.getD (b.toNat - 49) [] = l := by
  have hidx := List.idxOf_lt_length_iff.mpr hl
  obtain ⟨b, hb, hval⟩ := decimal_of_lt (show numberOf t l < 10 by rw [numberOf]; omega)
  rw [numberOf] at hval
  have hget : t.getD (b.toNat - 49) [] = l := by
    rw [hval, show 48 + (t.idxOf l + 1) - 49 = t.idxOf l by omega, List.getD_eq_getElem?_getD,
      List.getElem?_eq_getElem hidx, Option.getD_some, List.getElem_idxOf]
  have hdigit : isDigit b = true := isDigit_iff.mpr (by omega)
  have hnum : ofDigits [b] = b.toNat - 49 + 1 := by
    simp only [ofDigits, List.foldl_cons, List.foldl_nil]
    omega
  refine ⟨b, hb, ?_, hget⟩
  rw [lineOf, hnum]
  simpa [hdigit] using hget

section Few

variable {t : List Text} {s : Text} (ht : t.length ≤ 9) (hs : ∀ l ∈ linesOf s, l ∈ t)
include ht hs

theorem readNumerals_eq_flatten {c : Text} (hc : c <:+: numerals t s) :
    readNumerals t c = (linesIn t c).flatten := by
  have hpiece : ∀ p ∈ splitOn [','.toUInt8] c,
      lineOf t p = (p.map fun b => t.getD (b.toNat - 49) []).flatten := by
    intro p hp
    by_cases hne : p = []
    · subst hne
      rfl
    · obtain ⟨l, hl, hpl⟩ := infix_decimal hc hp hne
      obtain ⟨b, hb, hline, hget⟩ := digit_of_mem ht (hs l hl)
      rw [hb] at hpl
      obtain rfl : p = [b] := by
        have hlen := hpl.length_le
        exact hpl.eq_of_length (by
          have := List.length_pos_of_ne_nil hne
          rw [List.length_singleton] at hlen ⊢
          omega)
      simpa [hline] using hget.symm
  rw [linesIn, ← flatten_splitOn, readNumerals, List.flatMap_congr hpiece]
  generalize splitOn [','.toUInt8] c = ps
  induction ps with
  | nil => rfl
  | cons p ps ih =>
    rw [List.flatMap_cons, ih, List.flatten_cons, List.map_append, List.flatten_append]

theorem linesIn_numerals : linesIn t (numerals t s) = linesOf s := by
  have hfilter : (numerals t s).filter (· != ','.toUInt8)
      = ((linesOf s).map fun l => decimal (numberOf t l)).flatten := by
    by_cases hnil : linesOf s = []
    · rw [numerals, hnil]
      rfl
    · rw [← flatten_splitOn, numerals, splitOn_join (by simpa using hnil)]
      intro c hc hm
      obtain ⟨l, -, rfl⟩ := List.mem_map.mp hc
      exact absurd (isDigit_of_mem_decimal hm) (by decide)
  rw [linesIn, hfilter]
  generalize linesOf s = ls at hs
  induction ls with
  | nil => rfl
  | cons l ls ih =>
    obtain ⟨b, hb, -, hget⟩ := digit_of_mem ht (hs l (by simp))
    rw [List.map_cons, List.flatten_cons, hb, List.singleton_append, List.map_cons, hget]
    exact congrArg (l :: ·) (ih fun k hk => hs k (by simp [hk]))

theorem linesOf_readNumerals {c : Text} (hc : c <:+: numerals t s) :
    linesOf (readNumerals t c) = linesIn t c := by
  have hin : linesIn t c <:+: linesOf s := by
    rw [← linesIn_numerals ht hs]
    exact (hc.filter _).map _
  rw [readNumerals_eq_flatten ht hs hc, ((areLines_linesOf s).of_isInfix hin).linesOf_flatten]

end Few

/-! ### Texts with few lines -/

variable {before after : Text}

theorem linesIn_side (t : List Text) (es : List Edit) : linesIn t (Edit.side gone es)
    = es.flatMap fun e => if e.kind = gone then [] else linesIn t e.text := by
  induction es with
  | nil => rfl
  | cons e es ih =>
    rw [Edit.side_cons, linesIn, List.filter_append, List.map_append, List.flatMap_cons, ← ih]
    congr 1
    rw [Edit.piece]
    split <;> rfl

theorem linesOn_lines (kind : EditKind) (ls : List Text) :
    linesOn gone (ls.map (Edit.mk kind)) = if kind = gone then [] else ls := by
  induction ls with
  | nil => simp [linesOn]
  | cons l ls ih =>
    rw [linesOn] at ih
    by_cases hk : kind = gone
    · rw [if_pos hk] at ih ⊢
      rw [linesOn, List.map_cons, List.filter_cons_of_neg (by simpa using hk), ih]
    · rw [if_neg hk] at ih ⊢
      rw [linesOn, List.map_cons, List.filter_cons_of_pos (by simpa using hk), List.map_cons, ih]

/-- **The lines of a script are those of the text**, on either side. -/
theorem linesOn_edits (h : (table before after).length ≤ 9) :
    linesOn .insert (perLine (edits before after)) = linesOf before ∧
      linesOn .delete (perLine (edits before after)) = linesOf after := by
  have hbefore : ∀ l ∈ linesOf before, l ∈ table before after :=
    fun l hl => mem_table.mpr (Or.inl hl)
  have hafter : ∀ l ∈ linesOf after, l ∈ table before after :=
    fun l hl => mem_table.mpr (Or.inr hl)
  have hon : ∀ gone, linesOn gone (perLine (edits before after))
      = linesIn (table before after) (Edit.side gone (numberScript before after)) := by
    intro gone
    rw [linesIn_side, edits_eq, perLine, linesOn, List.flatMap_map, List.filter_flatMap,
      List.map_flatMap]
    refine List.flatMap_congr fun e he => ?_
    obtain ⟨s, hs, hc⟩ := infix_numerals he
    rw [linesOf_readNumerals h hs hc]
    exact linesOn_lines e.kind _
  have hlead := Edit.leads_script (numerals (table before after) before)
    (numerals (table before after) after)
  refine ⟨?_, ?_⟩
  · rw [hon, numberScript, ← Edit.source_eq_side, hlead.source, linesIn_numerals h hbefore]
  · rw [hon, numberScript, ← Edit.target_eq_side, hlead.target, linesIn_numerals h hafter]

theorem changes_of_ne (h : before ≠ after) :
    changes before after = shown 1 1 (perLine (edits before after)) := by
  rw [changes, if_neg (by simpa using h), render_eq_shown]

theorem changes_self (s : Text) : changes s s = [] := by
  rw [changes, if_pos (beq_self_eq_true s)]

/-- **The lines that a diff does not show are the same in both texts.** -/
theorem without_changes (h : (table before after).length ≤ 9) :
    without 1 (numbers '-' (changes before after)) (linesOf before)
      = without 1 (numbers '+' (changes before after)) (linesOf after) := by
  by_cases heq : before = after
  · subst heq
    rw [changes_self]
    rfl
  · obtain ⟨hold, hnew⟩ := linesOn_edits h
    obtain ⟨hdel, hins⟩ := numbers_shown (perLine (edits before after)) 1 1
    rw [changes_of_ne heq, hdel, hins, ← hold, ← hnew, without_numbered (by decide),
      without_numbered (by decide)]

/-- **Nothing is shown only of equal texts.** -/
theorem changes_eq_nil_iff_eq (h : (table before after).length ≤ 9) :
    changes before after = [] ↔ before = after := by
  constructor
  · intro hnil
    have hsame := without_changes h
    rw [hnil, numbers_nil, numbers_nil, without_nil, without_nil] at hsame
    rw [← flatten_linesOf before, hsame, flatten_linesOf]
  · rintro rfl
    exact changes_self before

/-- **A diff of texts with fewer than ten different lines accounts for all of them.**  It is empty
only for equal texts, its numbers increase for either sign, each entry shows the line that has its
number, and the lines that are not shown are the same in both texts. -/
theorem changes_account_for_lines (h : (table before after).length ≤ 9) :
    (changes before after = [] ↔ before = after) ∧
      (numbers '-' (changes before after)).Pairwise (· < ·) ∧
      (numbers '+' (changes before after)).Pairwise (· < ·) ∧
      (∀ e ∈ changes before after,
        Shows '-' 1 (linesOf before) e ∨ Shows '+' 1 (linesOf after) e) ∧
      without 1 (numbers '-' (changes before after)) (linesOf before)
        = without 1 (numbers '+' (changes before after)) (linesOf after) := by
  rcases eq_or_ne before after with rfl | hne
  · rw [changes_self]
    exact ⟨by simp, .nil, .nil, by simp, rfl⟩
  · obtain ⟨hdel, hins⟩ := numbers_shown (perLine (edits before after)) 1 1
    refine ⟨changes_eq_nil_iff_eq h, ?_, ?_, fun e he => ?_, without_changes h⟩
    · rw [changes_of_ne hne, hdel]
      exact pairwise_numbered _ 1
    · rw [changes_of_ne hne, hins]
      exact pairwise_numbered _ 1
    · obtain ⟨hold, hnew⟩ := linesOn_edits h
      rw [changes_of_ne hne] at he
      rw [← hold, ← hnew]
      exact mem_shown he

/-- Two lines are new, and the last of them has no line feed.  The edit for it starts with the
comma between two numbers. -/
theorem changes_account_for_lines_sample :
    let before := lit "a\n\n"
    let after := lit "x\na\n\ny"
    (table before after).length = 4 ∧
      changes before after = [lit "+   1 | x", lit "+   4 | y"] ∧
      without 1 (numbers '-' (changes before after)) (linesOf before) = [lit "a\n", lit "\n"] ∧
      without 1 (numbers '+' (changes before after)) (linesOf after) = [lit "a\n", lit "\n"] := by
  intro before after
  have hlen : (table before after).length = 4 := by decide +kernel
  obtain ⟨-, -, -, -, hsame⟩ := changes_account_for_lines
    (show (table before after).length ≤ 9 by omega)
  have hkept : without 1 (numbers '-' (changes before after)) (linesOf before)
      = [lit "a\n", lit "\n"] := by decide +kernel
  exact ⟨hlen, by decide +kernel, hkept, hsame ▸ hkept⟩

end LineDiff

end DateDisplay
