import DateDisplay.Import.Declaration
import DateDisplay.Proofs.Substitution

/-!
# The symbols of a brace list

A name that is put behind the last symbol of a brace list is read back as one more
symbol, and the others stay as they were (`symbolsOf_extendList`).  The reading goes
through two cuts, at commas and at white space, and the second one reads characters:
what is needed of it is that an ASCII byte behind a text changes no character of the
text (`decodeHead_append`), so that blanks at the end of a piece do not matter.

In the other direction, what a declaration binds stands in its brace list
(`infix_of_binds`).
-/

namespace DateDisplay

namespace Text

/-! ### White space behind a text -/

theorem not_isContinuation_of_ascii {b : UInt8} (hb : b < 0x80) : isContinuation b = false := by
  simp only [isContinuation, Bool.and_eq_false_iff, decide_eq_false_iff_not]
  exact Or.inl (UInt8.not_le.mpr hb)

theorem not_secondOk_of_ascii (a : UInt8) {b : UInt8} (hb : b < 0x80) : secondOk a b = false := by
  have hc := not_isContinuation_of_ascii hb
  have hle : ∀ c : UInt8, 0x80 ≤ c → ¬c ≤ b := fun c h =>
    UInt8.not_le.mpr (UInt8.lt_of_lt_of_le hb h)
  simp [secondOk, hc, hle 0xA0 (by decide), hle 0x80 (by decide), hle 0x90 (by decide)]

/-- **An ASCII byte behind a text changes no character of it.** -/
theorem decodeHead_append {s r : Text} {b : UInt8} (hs : s ≠ []) (hb : b < 0x80) :
    decodeHead (s ++ b :: r) = decodeHead s := by
  have hc := not_isContinuation_of_ascii hb
  have h2 := fun a => not_secondOk_of_ascii a hb
  -- a character has at most three bytes behind its first
  match s with
  | [] => exact absurd rfl hs
  | [a] =>
    simp only [decodeHead, List.cons_append, List.nil_append, hc]
    grind
  | [a, x] =>
    simp only [decodeHead, List.cons_append, List.nil_append, hc]
    grind
  | [a, x, y] =>
    simp only [decodeHead, List.cons_append, List.nil_append, hc]
    grind
  | a :: x :: y :: z :: t => rfl

theorem blankHead_append {s r : Text} {b : UInt8} (hs : s ≠ []) (hb : b < 0x80) :
    blankHead (s ++ b :: r) = blankHead s := by
  rw [blankHead, decodeHead_append hs hb, blankHead]

theorem blankHead_of_ascii {b : UInt8} (hb : b < 0x80) (t : Text) :
    blankHead (b :: t) = if isBlankPoint b.toNat then 1 else 0 := by
  simp only [blankHead, decodeHead, hb, if_true]

/-- An ASCII byte that is white space. -/
def IsAsciiBlank (b : UInt8) : Prop := b < 0x80 ∧ isBlankPoint b.toNat = true

theorem blankHead_of_blank {b : UInt8} (hb : IsAsciiBlank b) (t : Text) :
    blankHead (b :: t) = 1 := by
  rw [blankHead_of_ascii hb.1, if_pos hb.2]

theorem fieldsFrom_of_blanks : ∀ {g : Text} (skip : Nat), (∀ b ∈ g, IsAsciiBlank b) →
    fieldsFrom skip g = [] := by
  intro g
  induction g with
  | nil => intro skip _; cases skip <;> rfl
  | cons b g ih =>
    intro skip h
    have hg : ∀ c ∈ g, IsAsciiBlank c := fun c hc => h c (by simp [hc])
    cases skip with
    | succ skip => rw [fieldsFrom, ih skip hg]
    | zero =>
      rw [fieldsFrom, blankHead_of_blank (h b (by simp))]
      exact ih 0 hg

theorem fieldsFrom_append_blanks {g : Text} (hg : ∀ b ∈ g, IsAsciiBlank b) :
    ∀ (s : Text) (skip : Nat), fieldsFrom skip (s ++ g) = fieldsFrom skip s := by
  intro s
  cases g with
  | nil => intro skip; rw [List.append_nil]
  | cons c g =>
    have hc := hg c (by simp)
    induction s with
    | nil => intro skip; rw [List.nil_append, fieldsFrom_of_blanks skip hg]; cases skip <;> rfl
    | cons b s ih =>
      intro skip
      cases skip with
      | succ skip => exact ih skip
      | zero =>
        have hb : blankHead (b :: (s ++ c :: g)) = blankHead (b :: s) :=
          blankHead_append (s := b :: s) (by simp) hc.1
        rw [List.cons_append, fieldsFrom, fieldsFrom, hb]
        split
        · exact ih _
        · rw [ih 0]
          by_cases hs : s = []
          · subst hs
            simp [blankHead_of_blank hc]
          · simp [blankHead_append hs hc.1, hs]

theorem fields_append_blanks {g : Text} (hg : ∀ b ∈ g, IsAsciiBlank b) (s : Text) :
    fields (s ++ g) = fields s :=
  fieldsFrom_append_blanks hg s 0

theorem collapse_append_blanks {g : Text} (hg : ∀ b ∈ g, IsAsciiBlank b) (s : Text) :
    collapse (s ++ g) = collapse s := by
  rw [collapse, fields_append_blanks hg, collapse]

theorem fields_space_cons (s : Text) : fields (32 :: s) = fields s := by
  rw [fields, fieldsFrom, blankHead_of_blank ⟨by decide, by decide⟩]
  rfl

/-! ### Words -/

/-- An ASCII byte that is no white space. -/
def IsAsciiInk (b : UInt8) : Prop := b < 0x80 ∧ isBlankPoint b.toNat = false

theorem blankHead_of_ink {b : UInt8} (hb : IsAsciiInk b) (t : Text) : blankHead (b :: t) = 0 := by
  rw [blankHead_of_ascii hb.1, hb.2]
  rfl

theorem fields_of_ink : ∀ {w : Text}, w ≠ [] → (∀ b ∈ w, IsAsciiInk b) → fields w = [w] := by
  intro w
  induction w with
  | nil => intro h _; exact absurd rfl h
  | cons b w ih =>
    intro _ h
    rw [fields, fieldsFrom, blankHead_of_ink (h b (by simp))]
    cases w with
    | nil => rfl
    | cons c w =>
      have hw : fieldsFrom 0 (c :: w) = [c :: w] :=
        ih (by simp) fun a ha => h a (List.mem_cons_of_mem b ha)
      simp [blankHead_of_ink (h c (by simp)), hw]

theorem fieldsFrom_of_blankHead : ∀ {t : Text}, t ≠ [] → blankHead t = 0 →
    ∃ w ws, fieldsFrom 0 t = w :: ws ∧ w <+: t := by
  intro t
  induction t with
  | nil => intro h _; exact absurd rfl h
  | cons b t ih =>
    intro _ hb
    rw [fieldsFrom, hb]
    by_cases ht : t = [] ∨ blankHead t ≠ 0
    · have hcond : (t.isEmpty || blankHead t != 0) = true := by simpa using ht
      rw [if_pos hcond]
      exact ⟨[b], _, rfl, by simp⟩
    · rw [not_or, not_not] at ht
      obtain ⟨w, ws, hw, hpre⟩ := ih ht.1 ht.2
      have hcond : ¬(t.isEmpty || blankHead t != 0) = true := by simpa using ht
      rw [if_neg hcond, hw]
      exact ⟨b :: w, ws, rfl, (List.prefix_cons_inj b).mpr hpre⟩

theorem le_length_of_decodeHead {s : Text} {c : Character} {n : Nat}
    (h : decodeHead s = some (c, n)) : n ≤ s.length := by
  revert h
  fun_cases decodeHead s <;> grind

theorem blankHead_le (s : Text) : blankHead s ≤ s.length := by
  rw [blankHead]
  split
  · rename_i p n hd
    split
    · exact le_length_of_decodeHead hd
    · exact Nat.zero_le _
  · exact Nat.zero_le _

theorem fieldsFrom_ne_nil_of_ink {b : UInt8} {r : Text} (hb : IsAsciiInk b) :
    ∀ (p : Text) (skip : Nat), skip ≤ p.length → fieldsFrom skip (p ++ b :: r) ≠ [] := by
  intro p
  induction p with
  | nil =>
    intro skip hskip
    obtain rfl : skip = 0 := Nat.le_zero.mp hskip
    obtain ⟨w, ws, hw, -⟩ := fieldsFrom_of_blankHead (t := b :: r) (by simp) (blankHead_of_ink hb r)
    simp [hw]
  | cons c p ih =>
    intro skip hskip
    rw [List.length_cons] at hskip
    cases skip with
    | succ skip => exact ih skip (by omega)
    | zero =>
      have hhead : blankHead (c :: (p ++ b :: r)) = blankHead (c :: p) :=
        blankHead_append (s := c :: p) (by simp) hb.1
      have hle := blankHead_le (c :: p)
      rw [List.length_cons] at hle
      cases hn : blankHead (c :: p) with
      | zero =>
        rw [hn] at hhead
        obtain ⟨w, ws, hw, -⟩ := fieldsFrom_of_blankHead (by simp) hhead
        simp [hw]
      | succ n =>
        rw [List.cons_append, fieldsFrom, hhead, hn]
        exact ih n (by omega)

theorem isBlank_eq_false_of_ink {b : UInt8} {s : Text} (hb : IsAsciiInk b) (h : b ∈ s) :
    isBlank s = false := by
  obtain ⟨p, r, rfl⟩ := List.append_of_mem h
  have hne := fieldsFrom_ne_nil_of_ink (r := r) hb p 0 (Nat.zero_le _)
  rw [isBlank, fields]
  simpa using hne

theorem infix_of_mem_fieldsFrom {w : Text} : ∀ {s : Text} {skip : Nat}, w ∈ fieldsFrom skip s →
    w <:+: s := by
  intro s
  induction s with
  | nil => intro skip h; cases skip <;> cases h
  | cons b t ih =>
    intro skip h
    cases skip with
    | succ skip => exact List.infix_cons (ih h)
    | zero =>
      cases hb : blankHead (b :: t) with
      | succ n =>
        rw [fieldsFrom, hb] at h
        exact List.infix_cons (ih h)
      | zero =>
        obtain ⟨v, vs, hv, hpre⟩ := fieldsFrom_of_blankHead (by simp) hb
        rw [hv, List.mem_cons] at h
        rcases h with rfl | h
        · exact hpre.isInfix
        · -- the words behind the first are words of the rest
          rw [fieldsFrom, hb] at hv
          dsimp only at hv
          split at hv
          · obtain ⟨-, rfl⟩ := List.cons.inj hv
            exact List.infix_cons (ih h)
          · split at hv
            · obtain ⟨-, rfl⟩ := List.cons.inj hv
              cases h
            · rename_i ht
              obtain ⟨-, rfl⟩ := List.cons.inj hv
              exact List.infix_cons (ih (by rw [ht]; exact List.mem_cons_of_mem _ h))

theorem infix_of_mem_fields {w s : Text} (h : w ∈ fields s) : w <:+: s :=
  infix_of_mem_fieldsFrom h

end Text

open Text

namespace Plan

theorem isAsciiInk_of_isName {name : Text} (h : isName name = true) :
    ∀ b ∈ name, IsAsciiInk b := by
  intro b hb
  have hc := Substitution.isCallByte_of_isName h b hb
  simp only [Substitution.isCallByte, startsName, isLetter, isDigit, Bool.or_eq_true,
    Bool.and_eq_true, decide_eq_true_eq, beq_iff_eq, UInt8.le_iff_toNat_le,
    ← UInt8.toNat_inj] at hc
  change (((((97 ≤ b.toNat ∧ b.toNat ≤ 122) ∨ 65 ≤ b.toNat ∧ b.toNat ≤ 90) ∨ b.toNat = 95) ∨
    b.toNat = 36) ∨ 48 ≤ b.toNat ∧ b.toNat ≤ 57) ∨ b.toNat = 46 at hc
  refine ⟨UInt8.lt_iff_toNat_lt.mpr ?_, ?_⟩
  · change b.toNat < 128
    omega
  · simp only [isBlankPoint, Bool.or_eq_false_iff, Bool.and_eq_false_iff, decide_eq_false_iff_not,
      beq_eq_false_iff_ne]
    omega

theorem notMem_of_isName {name : Text} (h : isName name = true) {b : UInt8}
    (hb : Substitution.isCallByte b = false) : b ∉ name := by
  intro hm
  rw [Substitution.isCallByte_of_isName h b hm] at hb
  cases hb

end Plan

namespace Declaration

/-! ### A list with one more name -/

theorem isAsciiBlank_of_isListBlank {b : UInt8} (h : isListBlank b = true) : IsAsciiBlank b := by
  simp only [isListBlank, Bool.or_eq_true, beq_iff_eq] at h
  rcases h with ((rfl | rfl) | rfl) | rfl <;> exact ⟨by decide, by decide⟩

theorem notMem_of_isListBlank {g : Text} (hg : ∀ b ∈ g, isListBlank b = true) {x : UInt8}
    (hx : isListBlank x = false) : x ∉ g := by
  intro hm
  rw [hg x hm] at hx
  cases hx

theorem extendList_eq (list name : Text) : ∃ blanks, list = trimEnd isListBlank list ++ blanks ∧
    (∀ b ∈ blanks, isListBlank b = true) ∧
    extendList list name =
      if trimEnd isListBlank list = [] then 32 :: (name ++ [32])
      else if [','.toUInt8] <:+ trimEnd isListBlank list then
        trimEnd isListBlank list ++ 32 :: (name ++ ','.toUInt8 :: blanks)
      else trimEnd isListBlank list ++ ','.toUInt8 :: 32 :: (name ++ blanks) := by
  obtain ⟨blanks, hlist, hblanks⟩ := trimEnd_append isListBlank list
  have hdrop : list.drop (trimEnd isListBlank list).length = blanks := by
    nth_rewrite 2 [hlist]
    rw [List.drop_left]
  refine ⟨blanks, hlist, hblanks, ?_⟩
  rw [extendList]
  simp only [hdrop, List.isEmpty_iff, List.isSuffixOf_iff_suffix, List.append_assoc,
    List.cons_append]

/-- **The three layouts of a list with one more name**: a list that was blank, one
with a comma behind its last symbol, and any other. -/
theorem extendList_cases (list name : Text) : ∃ body blanks, list = body ++ blanks ∧
    (∀ b ∈ blanks, isListBlank b = true) ∧
    ((body = [] ∧ extendList list name = 32 :: (name ++ [32])) ∨
      (∃ body', body = body' ++ [','.toUInt8] ∧
        extendList list name = body ++ 32 :: (name ++ ','.toUInt8 :: blanks)) ∨
      extendList list name = body ++ ','.toUInt8 :: 32 :: (name ++ blanks)) := by
  obtain ⟨blanks, hlist, hblanks, heq⟩ := extendList_eq list name
  refine ⟨_, blanks, hlist, hblanks, ?_⟩
  rw [heq]
  split
  · rename_i he
    exact Or.inl ⟨he, rfl⟩
  · split
    · rename_i hs
      obtain ⟨body', hb⟩ := hs
      exact Or.inr (Or.inl ⟨body', hb.symm, rfl⟩)
    · exact Or.inr (Or.inr rfl)

/-- The pieces of a brace list that are not blank, with repetitions. -/
def specifiers (list : Text) : List Text :=
  ((splitOn [','.toUInt8] list).map collapse).filter (!·.isEmpty)

theorem symbolsOf_eq (list : Text) : symbolsOf list = distinct (specifiers list) := rfl

theorem specifiers_append (s t : Text) :
    specifiers (s ++ ','.toUInt8 :: t) = specifiers s ++ specifiers t := by
  rw [specifiers, splitOn_append, List.map_append, List.filter_append]
  rfl

theorem specifiers_append_blanks {g : Text} (hg : ∀ b ∈ g, isListBlank b = true) (s : Text) :
    specifiers (s ++ g) = specifiers s := by
  obtain ⟨ps, p, hs, hsg⟩ :=
    splitOn_append_of_notMem (notMem_of_isListBlank hg (x := ','.toUInt8) (by decide)) s
  rw [specifiers, specifiers, hs, hsg, List.map_append, List.map_append, List.map_singleton,
    List.map_singleton, collapse_append_blanks fun b hb => isAsciiBlank_of_isListBlank (hg b hb)]

theorem specifiers_blanks {g : Text} (hg : ∀ b ∈ g, isListBlank b = true) : specifiers g = [] := by
  rw [← List.nil_append g, specifiers_append_blanks hg]
  rfl

theorem splitOn_space_name {name : Text} (h : Plan.isName name = true) :
    splitOn [','.toUInt8] (32 :: name) = [32 :: name] := by
  refine splitOn_of_notMem ?_
  rw [List.mem_cons, not_or]
  exact ⟨by decide, Plan.notMem_of_isName h (by decide)⟩

theorem collapse_space_name {name : Text} (h : Plan.isName name = true) :
    collapse (32 :: name) = name := by
  rw [collapse, fields_space_cons,
    fields_of_ink (Substitution.ne_nil_of_isName h) (Plan.isAsciiInk_of_isName h), join_singleton]

theorem specifiers_name {name : Text} (h : Plan.isName name = true) :
    specifiers (32 :: name) = [name] := by
  rw [specifiers, splitOn_space_name h, List.map_singleton, collapse_space_name h]
  simp [Substitution.ne_nil_of_isName h]

theorem specifiers_extendList {name : Text} (h : Plan.isName name = true) (list : Text) :
    specifiers (extendList list name) = specifiers list ++ [name] := by
  obtain ⟨body, blanks, rfl, hblanks, ⟨rfl, he⟩ | ⟨body', rfl, he⟩ | he⟩ :=
    extendList_cases list name
  · have hspace : ∀ b ∈ ([32] : Text), isListBlank b = true :=
      List.forall_mem_singleton.mpr (by decide)
    rw [he, List.nil_append, specifiers_blanks hblanks, ← List.cons_append,
      specifiers_append_blanks hspace, specifiers_name h]
    rfl
  · rw [he, specifiers_append_blanks hblanks, List.append_assoc, List.singleton_append,
      ← List.cons_append, specifiers_append, specifiers_append, specifiers_append,
      specifiers_name h, specifiers_blanks hblanks, List.append_nil,
      specifiers_blanks (g := []) (by simp), List.append_nil]
  · rw [he, specifiers_append_blanks hblanks, ← List.cons_append, specifiers_append,
      specifiers_append_blanks hblanks, specifiers_name h]

/-- **A name put behind the last symbol is read back as one more symbol.** -/
theorem symbolsOf_extendList {list name : Text} (h : Plan.isName name = true)
    (hnew : name ∉ symbolsOf list) :
    symbolsOf (extendList list name) = symbolsOf list ++ [name] := by
  rw [symbolsOf_eq, mem_distinct] at hnew
  rw [symbolsOf_eq, specifiers_extendList h, distinct_concat hnew, symbolsOf_eq]

theorem mem_extendList {list name : Text} {b : UInt8} (h : b ∈ extendList list name) :
    b ∈ list ∨ b ∈ name ∨ b = 32 ∨ b = ','.toUInt8 := by
  obtain ⟨body, blanks, rfl, -, ⟨-, he⟩ | ⟨-, -, he⟩ | he⟩ := extendList_cases list name <;>
    · rw [he] at h
      simp only [List.mem_append, List.mem_cons, List.not_mem_nil, or_false] at h ⊢
      tauto

theorem extendList_ne_nil (list name : Text) : extendList list name ≠ [] := by
  obtain ⟨body, blanks, -, -, ⟨-, he⟩ | ⟨-, -, he⟩ | he⟩ := extendList_cases list name <;>
    simp [he]

/-! ### What a list binds -/

theorem localName_infix (s : Text) : localName s <:+: s := by
  rw [localName]
  split
  · rename_i a word name hf
    split
    · exact infix_of_mem_fields (by rw [hf]; simp)
    · exact List.infix_rfl
  · rename_i word name hf
    split
    · exact infix_of_mem_fields (by rw [hf]; simp)
    · exact List.infix_rfl
  · exact List.infix_rfl

theorem infix_of_mem_symbolsOf {list name symbol : Text} (hs : symbol ∈ symbolsOf list)
    (hn : name <:+: symbol) (hne : name ≠ []) (hsp : 32 ∉ name) : name <:+: list := by
  rw [symbolsOf_eq, mem_distinct, specifiers] at hs
  obtain ⟨piece, hpiece, rfl⟩ := List.mem_map.mp (List.mem_of_mem_filter hs)
  obtain ⟨word, hword, hin⟩ := infix_of_infix_join hsp hne hn
  have hlist : piece <:+: list := by
    rw [← join_splitOn (show ([','.toUInt8] : Text) ≠ [] by simp) list]
    exact infix_join hpiece
  exact hin.trans ((infix_of_mem_fields hword).trans hlist)

/-- **What a declaration binds stands in its brace list.** -/
theorem infix_of_binds {d : Declaration} {name : Text} (hs : d.symbols = symbolsOf d.list)
    (hn : Plan.isName name = true) (hb : d.binds name = true) : name <:+: d.list := by
  rw [binds, List.any_eq_true] at hb
  obtain ⟨symbol, hmem, heq⟩ := hb
  rw [hs] at hmem
  rw [beq_iff_eq] at heq
  exact infix_of_mem_symbolsOf hmem (heq ▸ localName_infix symbol)
    (Substitution.ne_nil_of_isName hn) (Plan.notMem_of_isName hn (by decide))

theorem localName_of_isName {name : Text} (hn : Plan.isName name = true) :
    localName name = name := by
  rw [localName, fields_of_ink (Substitution.ne_nil_of_isName hn) (Plan.isAsciiInk_of_isName hn)]

theorem binds_of_mem {d : Declaration} {name : Text} (hn : Plan.isName name = true)
    (h : name ∈ d.symbols) : d.binds name = true := by
  rw [binds, List.any_eq_true]
  exact ⟨name, h, by rw [localName_of_isName hn, beq_iff_eq]⟩

end Declaration

end DateDisplay
