import DateDisplay.Proofs.Extension
import DateDisplay.Proofs.Grammar

/-!
# The names that specifiers bind

A specifier of a brace list is `x`, `x as y`, `type x` or `type x as y`, and it binds `y`
where there is one and `x` where there is none.  `Spaced` says how its tokens may be laid
out: with any white space around them, and with some between neighbours.  `Enumerates`
says the same of a whole list, whose specifiers have commas between them and perhaps one
more behind the last.

Whatever the layout is, the words of a specifier are its tokens (`Spaced.words`), so the
symbols of a list are its specifiers with one space between tokens
(`Enumerates.specifiers_eq`).  What a symbol binds is read off its words, of which there
may be one, two or three.  A specifier `type x as y` has four, and is taken for a name of
its own (`localName_text`).  So a declaration binds the names of all its specifiers but
these (`binds_iff_not_type_rename`), and a name that only they bind is added once more.
-/

namespace DateDisplay

namespace Text

/-! ### White space behind a word -/

/-- Of the bytes of a white space character, all but the first continue it. -/
theorem encodePoint_of_blank {p : Nat} (hp : isBlankPoint p = true) :
    ∃ b cs, encodePoint p = b :: cs ∧ b ≠ ','.toUInt8 ∧ isContinuation b = false ∧
      cs.all isContinuation = true := by
  rcases blank_cases hp with ⟨hl, hu⟩ | ⟨hl, hu⟩ | h
  · interval_cases p <;> exact ⟨_, _, rfl, by decide, by decide, by decide⟩
  · interval_cases p <;> exact ⟨_, _, rfl, by decide, by decide, by decide⟩
  · rcases h with rfl | rfl | rfl | rfl | rfl | rfl | rfl | rfl | rfl <;>
      exact ⟨_, _, rfl, by decide, by decide, by decide⟩

/-- **White space behind a text does not complete a character of it.** -/
theorem not_blankAhead_append {x s : Text} (hne : x ≠ []) (hx : ¬BlankAhead x)
    (hs : s = [] ∨ BlankAhead s) : ¬BlankAhead (x ++ s) := by
  rintro ⟨p, hp, hpre⟩
  rcases List.prefix_or_prefix_of_prefix hpre (List.prefix_append x s) with h | ⟨r, hr⟩
  · exact hx ⟨p, hp, h⟩
  rw [← hr, List.prefix_append_right_inj] at hpre
  cases r with
  | nil => exact hx ⟨p, hp, by rw [← hr, List.append_nil]⟩
  | cons c r =>
    obtain ⟨a, x, rfl⟩ := List.exists_cons_of_ne_nil hne
    -- the byte `c` is not the first of its character, but it is the first of `s`
    have hc : isContinuation c = true := by
      obtain ⟨b, cs, hb, -, -, hcs⟩ := encodePoint_of_blank hp
      rw [← hr, List.cons_append] at hb
      exact List.all_eq_true.mp hcs c (by rw [← (List.cons.inj hb).2]; simp)
    rcases hs with rfl | ⟨q, hq, u, rfl⟩
    · exact absurd (List.prefix_nil.mp hpre) (by simp)
    · obtain ⟨b, cs, hb, -, hb', -⟩ := encodePoint_of_blank hq
      rw [hb, List.cons_append, List.cons_prefix_cons] at hpre
      rw [hpre.1, hb'] at hc
      cases hc

/-! ### Tokens and their layout -/

/-- The text is a token of a list: it is not empty, and there is neither white space nor a comma
in it. -/
structure Token (w : Text) : Prop where
  ne_nil : w ≠ []
  solid : ∀ x, x <:+ w → ¬BlankAhead x
  comma : ','.toUInt8 ∉ w

theorem token_iff {w : Text} :
    Token w ↔ w ≠ [] ∧ (∀ x ∈ w.tails, blankHead x = 0) ∧ ','.toUInt8 ∉ w := by
  simp only [List.mem_tails, blankHead_eq_zero_iff]
  exact ⟨fun h => ⟨h.ne_nil, h.solid, h.comma⟩, fun ⟨hne, hsolid, hcomma⟩ => ⟨hne, hsolid, hcomma⟩⟩

instance (w : Text) : Decidable (Token w) := decidable_of_iff _ token_iff.symm

/-- The text has the tokens in this order.  White space may stand before and behind each of them,
and has to stand between neighbours. -/
inductive Spaced : List Text → Text → Prop
  | nil : Spaced [] []
  | blank {p : Nat} {ws : List Text} {s : Text} : isBlankPoint p = true → Spaced ws s →
      Spaced ws (encodePoint p ++ s)
  | token {w : Text} {ws : List Text} {s : Text} : ws = [] ∨ BlankAhead s → Spaced ws s →
      Spaced (w :: ws) (w ++ s)

theorem Spaced.eq_nil_or_blankAhead {s : Text} (h : Spaced [] s) : s = [] ∨ BlankAhead s := by
  cases h with
  | nil => exact Or.inl rfl
  | blank hp _ => exact Or.inr ⟨_, hp, List.prefix_append _ _⟩

/-- **The words of a text are its tokens**, in any layout. -/
theorem Spaced.words {ws : List Text} {s : Text} (h : Spaced ws s) (hws : ∀ w ∈ ws, Token w) :
    Words s ws := by
  induction h with
  | nil => exact .nil
  | blank hp _ ih => exact .blank hp (ih hws)
  | token hs hrest ih =>
    rw [List.forall_mem_cons] at hws
    have hend := hs.elim (fun hnil => (hnil ▸ hrest).eq_nil_or_blankAhead) Or.inr
    refine .word hws.1.ne_nil (fun x hx hne => ?_) hend (ih hws.2)
    exact not_blankAhead_append hne (hws.1.solid x hx) hend

theorem spaced_of_words {ws : List Text} {s : Text} (h : Words s ws) : Spaced ws s := by
  induction h with
  | nil => exact .nil
  | blank hp _ ih => exact .blank hp ih
  | word _ _ hs hrest ih =>
    refine .token (hs.imp_left fun hnil => ?_) ih
    subst hnil
    exact (words_iff.mp hrest).symm

theorem spaced_iff {ws : List Text} (hws : ∀ w ∈ ws, Token w) {s : Text} :
    Spaced ws s ↔ fields s = ws :=
  ⟨fun h => words_iff.mp (h.words hws), fun h => spaced_of_words (words_iff.mpr h)⟩

theorem Spaced.comma {ws : List Text} {s : Text} (h : Spaced ws s) (hws : ∀ w ∈ ws, Token w) :
    ','.toUInt8 ∉ s := by
  induction h with
  | nil => simp
  | blank hp _ ih =>
    obtain ⟨b, cs, hb, hcomma, -, hcs⟩ := encodePoint_of_blank hp
    rw [hb, List.mem_append, List.mem_cons, not_or, not_or]
    refine ⟨⟨hcomma.symm, fun hm => ?_⟩, ih hws⟩
    exact absurd (List.all_eq_true.mp hcs _ hm) (by decide)
  | token _ _ ih =>
    rw [List.forall_mem_cons] at hws
    rw [List.mem_append, not_or]
    exact ⟨hws.1.comma, ih hws.2⟩

theorem spaced_join : ∀ ws : List Text, Spaced ws (join [32] ws) := by
  intro ws
  induction ws with
  | nil => exact .nil
  | cons w ws ih =>
    by_cases hws : ws = []
    · subst hws
      have h : Spaced [w] (w ++ []) := .token (Or.inl rfl) .nil
      rwa [List.append_nil] at h
    · rw [join_cons hws, List.append_assoc]
      exact .token (Or.inr ⟨32, rfl, List.prefix_append _ _⟩) (.blank (p := 32) rfl ih)

theorem Token.fields_eq {w : Text} (hw : Token w) : fields w = [w] := by
  have h : Spaced [w] w := spaced_join [w]
  exact words_iff.mp (h.words (List.forall_mem_singleton.mpr hw))

end Text

open Text

/-! ### Specifiers -/

/-- A specifier of a brace list: `type`, if it is for a type, the name of what is imported, and
the name that it is given, if it is another one. -/
structure Specifier where
  isType : Bool := false
  name : Text
  rename : Option Text := none
  deriving Repr, DecidableEq

namespace Specifier

/-- The text is a name that a specifier may have: any token but the two words of the syntax. -/
def Identifier (w : Text) : Prop := Token w ∧ w ≠ lit "as" ∧ w ≠ lit "type"

instance (w : Text) : Decidable (Identifier w) := inferInstanceAs (Decidable (_ ∧ _ ∧ _))

/-- The names of a specifier are identifiers. -/
structure WellFormed (s : Specifier) : Prop where
  name : Identifier s.name
  rename : ∀ y ∈ s.rename, Identifier y

instance (s : Specifier) : Decidable s.WellFormed :=
  decidable_of_iff (Identifier s.name ∧ ∀ y ∈ s.rename, Identifier y)
    ⟨fun h => ⟨h.1, h.2⟩, fun h => ⟨h.name, h.rename⟩⟩

/-- The tokens of a specifier. -/
def tokens (s : Specifier) : List Text :=
  (if s.isType then [lit "type"] else []) ++
    s.name :: (match s.rename with
      | some y => [lit "as", y]
      | none => [])

/-- The name that a specifier binds. -/
def binding (s : Specifier) : Text := s.rename.getD s.name

/-- The specifier is for a type and gives it another name. -/
def isTypeRename (s : Specifier) : Bool := s.isType && s.rename.isSome

/-- The specifier with one space between neighbouring tokens. -/
def text (s : Specifier) : Text := join [32] s.tokens

variable {s : Specifier}

theorem WellFormed.token_of_mem (hs : s.WellFormed) : ∀ w ∈ s.tokens, Token w := by
  have htype : Token (lit "type") := by decide
  have has : Token (lit "as") := by decide
  obtain ⟨isType, name, rename⟩ := s
  cases rename with
  | none => cases isType <;> simp [tokens, htype, hs.name.1]
  | some y =>
    have hy : Token y := (hs.rename y rfl).1
    cases isType <;> simp [tokens, htype, has, hs.name.1, hy]

theorem WellFormed.fields_text (hs : s.WellFormed) : fields s.text = s.tokens :=
  words_iff.mp ((spaced_join s.tokens).words hs.token_of_mem)

/-- **What a specifier counts as binding**: its name, unless there are four tokens. -/
theorem localName_text (hs : s.WellFormed) :
    Declaration.localName s.text = if s.isTypeRename then s.text else s.binding := by
  rw [Declaration.localName, hs.fields_text]
  obtain ⟨isType, name, rename⟩ := s
  cases isType <;> cases rename <;> simp [tokens, isTypeRename, binding, text]

theorem length_tokens (h : s.isTypeRename = true) : s.tokens.length = 4 := by
  obtain ⟨isType, name, rename⟩ := s
  cases isType <;> cases rename <;> simp [isTypeRename, tokens] at h ⊢

theorem localName_text_eq_iff (hs : s.WellFormed) {n : Text} (hn : Token n) :
    Declaration.localName s.text = n ↔ s.binding = n ∧ s.isTypeRename = false := by
  rw [localName_text hs]
  cases hr : s.isTypeRename with
  | false => simp
  | true =>
    -- `n` is one word, and the specifier has four
    have hne : s.text ≠ n := by
      intro h
      have htokens : s.tokens = [n] := by rw [← hs.fields_text, h, hn.fields_eq]
      have hlen := length_tokens hr
      rw [htokens] at hlen
      cases hlen
    simp [hne]

end Specifier

namespace Declaration

/-! ### Lists of specifiers -/

/-- The list has the specifiers in this order, each in any layout, with commas between them.  One
more comma may stand behind the last, and a list without specifiers is white space. -/
inductive Enumerates : List Specifier → Text → Prop
  | blank {g : Text} : Spaced [] g → Enumerates [] g
  | last {s : Specifier} {p : Text} : Spaced s.tokens p → Enumerates [s] p
  | cons {s : Specifier} {ss : List Specifier} {p list : Text} : Spaced s.tokens p →
      Enumerates ss list → Enumerates (s :: ss) (p ++ ','.toUInt8 :: list)

theorem specifiers_of_spaced {ws : List Text} {p : Text} (h : Spaced ws p)
    (hws : ∀ w ∈ ws, Token w) : specifiers p = if ws = [] then [] else [join [32] ws] := by
  have hfields : fields p = ws := words_iff.mp (h.words hws)
  have hempty : (collapse p).isEmpty = ws.isEmpty := by rw [isEmpty_collapse, hfields]
  rw [specifiers, splitOn_of_notMem (h.comma hws), List.map_singleton]
  cases ws with
  | nil => rw [List.filter_cons_of_neg (by simp [hempty]), List.filter_nil, if_pos rfl]
  | cons w ws =>
    rw [List.filter_cons_of_pos (by simp [hempty]), List.filter_nil, if_neg (by simp), collapse,
      hfields]

theorem specifiers_of_specifier {s : Specifier} (hs : s.WellFormed) {p : Text}
    (h : Spaced s.tokens p) : specifiers p = [s.text] := by
  rw [specifiers_of_spaced h hs.token_of_mem, if_neg (by simp [Specifier.tokens])]
  rfl

/-- **The pieces of a list that are not blank are its specifiers.** -/
theorem Enumerates.specifiers_eq {ss : List Specifier} {list : Text} (h : Enumerates ss list)
    (hss : ∀ s ∈ ss, s.WellFormed) : specifiers list = ss.map Specifier.text := by
  induction h with
  | blank hg => exact specifiers_of_spaced hg (by simp)
  | last hp => exact specifiers_of_specifier (hss _ (by simp)) hp
  | cons hp _ ih =>
    rw [List.forall_mem_cons] at hss
    rw [specifiers_append, specifiers_of_specifier hss.1 hp, ih hss.2]
    rfl

theorem declarations_of_written {list path m : Text} {q : UInt8} (h : Written list q path m) :
    ∃ d, declarations m = [d] ∧ d.list = list := by
  obtain ⟨g, g', g'', q', hg, hg', hg'', hne, hlist, hq, hq', hpath, rfl⟩ := h
  let d : Declaration := ⟨0, symbolsOf list, g, list, g', g'', q, path, q'⟩
  have hd : d.WellFormed := ⟨hg, hne, hlist, hg', hg'', hq, hpath, hq', rfl⟩
  refine ⟨d, ?_, rfl⟩
  rw [← declarations_text hd]
  congr 1
  simp [d, text, head, tail, keyword, fromWord]

section Bindings

variable {ss : List Specifier} {d : Declaration}

/-- **A declaration binds what one of its specifiers binds**, unless this is a type under
another name. -/
theorem binds_iff_of_enumerates (hd : d.symbols = symbolsOf d.list) (h : Enumerates ss d.list)
    (hss : ∀ s ∈ ss, s.WellFormed) {n : Text} (hn : Token n) :
    d.binds n = true ↔ ∃ s ∈ ss, s.binding = n ∧ s.isTypeRename = false := by
  have hmem : ∀ t, t ∈ d.symbols ↔ ∃ s ∈ ss, s.text = t := by
    intro t
    rw [hd, symbolsOf_eq, mem_distinct, h.specifiers_eq hss, List.mem_map]
  rw [binds, List.any_eq_true]
  constructor
  · rintro ⟨t, ht, hlocal⟩
    obtain ⟨s, hs, rfl⟩ := (hmem t).mp ht
    rw [beq_iff_eq] at hlocal
    exact ⟨s, hs, (Specifier.localName_text_eq_iff (hss s hs) hn).mp hlocal⟩
  · rintro ⟨s, hs, hbinding⟩
    refine ⟨s.text, (hmem _).mpr ⟨s, hs, rfl⟩, ?_⟩
    rw [beq_iff_eq]
    exact (Specifier.localName_text_eq_iff (hss s hs) hn).mpr hbinding

theorem withSymbol_eq_self_iff (d : Declaration) (n : Text) :
    d.withSymbol n = d ↔ d.binds n = true := by
  constructor
  · intro h
    by_contra hb
    rw [withSymbol_of_not_binds (by simpa using hb)] at h
    have hlen := congrArg (·.symbols.length) h
    simp at hlen
  · exact withSymbol_of_binds

end Bindings

/-- **A declaration binds the names of all its specifiers but those for a type under another
name.**  This holds of every list of specifiers in every layout, and there is a declaration of
every such list.  A name is added, behind the symbols that are there, exactly if no other
specifier binds it. -/
theorem binds_iff_not_type_rename {ss : List Specifier} {list : Text} (h : Enumerates ss list)
    (hss : ∀ s ∈ ss, s.WellFormed) :
    (∀ q path m, Written list q path m → ∃ d, declarations m = [d] ∧ d.list = list) ∧
    ∀ content, ∀ d ∈ declarations content, d.list = list →
      d.symbols = (ss.map Specifier.text).eraseDups ∧
      ∀ n, Token n →
        (d.binds n = true ↔ ∃ s ∈ ss, s.binding = n ∧ s.isTypeRename = false) ∧
        (d.withSymbol n = d ↔ ∃ s ∈ ss, s.binding = n ∧ s.isTypeRename = false) ∧
        (d.withSymbol n ≠ d → (d.withSymbol n).symbols = d.symbols ++ [n]) := by
  refine ⟨fun q path m => declarations_of_written, ?_⟩
  rintro content d hd rfl
  have hsymbols := (mem_declarations hd).1.symbols
  refine ⟨?_, fun n hn => ?_⟩
  · rw [hsymbols, symbolsOf_eq, h.specifiers_eq hss, distinct_eq_eraseDups]
  · have hbinds := binds_iff_of_enumerates hsymbols h hss hn
    refine ⟨hbinds, (withSymbol_eq_self_iff d n).trans hbinds, fun hne => ?_⟩
    rw [ne_eq, withSymbol_eq_self_iff] at hne
    rw [withSymbol_of_not_binds (by simpa using hne)]

/-- All four forms, with a no-break space, line feeds between the tokens of a specifier and a comma
at the end.  The name `a` is bound by the last specifier only, `f` by none that counts. -/
theorem binds_iff_not_type_rename_sample :
    let ss : List Specifier := [⟨false, lit "c", some (lit "d")⟩, ⟨true, lit "b", none⟩,
      ⟨true, lit "e", some (lit "f")⟩, ⟨false, lit "ação", some (lit "a")⟩]
    let list := lit "\n c\u00a0as\n d,type\tb , type e as f,ação as a,\n"
    let content := lit "import \x7b" ++ list ++ lit "\x7d from './types'"
    Enumerates ss list ∧ (∀ s ∈ ss, s.WellFormed) ∧ ∃ d, declarations content = [d] ∧
      d.symbols = [lit "c as d", lit "type b", lit "type e as f", lit "ação as a"] ∧
      d.binds (lit "a") = true ∧ d.binds (lit "c") = false ∧ d.binds (lit "f") = false ∧
      d.withSymbol (lit "a") = d ∧ (d.withSymbol (lit "f")).symbols = d.symbols ++ [lit "f"] := by
  intro ss list content
  have hss : ∀ s ∈ ss, s.WellFormed := by decide +kernel
  have hspaced : ∀ s ∈ ss, ∀ p, fields p = s.tokens → Spaced s.tokens p := fun s hs p =>
    (spaced_iff (hss s hs).token_of_mem).mpr
  have hlist : list = lit "\n c\u00a0as\n d" ++ ','.toUInt8 :: (lit "type\tb " ++ ','.toUInt8 ::
      (lit " type e as f" ++ ','.toUInt8 :: (lit "ação as a" ++ ','.toUInt8 :: lit "\n"))) := by
    decide +kernel
  have henum : Enumerates ss list := by
    rw [hlist]
    refine .cons (hspaced _ (by simp [ss]) _ (by decide +kernel))
      (.cons (hspaced _ (by simp [ss]) _ (by decide +kernel))
        (.cons (hspaced _ (by simp [ss]) _ (by decide +kernel))
          (.cons (hspaced _ (by simp [ss]) _ (by decide +kernel)) (.blank ?_))))
    exact (spaced_iff (by simp)).mpr (by decide +kernel)
  have hblank : Blanks [32] := ⟨by simp, List.forall_mem_singleton.mpr (by decide)⟩
  have hwritten : Written list '\''.toUInt8 (lit "./types") content :=
    ⟨[32], [32], [32], '\''.toUInt8, hblank, hblank, hblank, by decide +kernel, by decide +kernel,
      by decide, by decide, by decide +kernel, by decide +kernel⟩
  obtain ⟨hdeclared, hbinds⟩ := binds_iff_not_type_rename henum hss
  obtain ⟨d, hd, hdlist⟩ := hdeclared _ _ _ hwritten
  obtain ⟨hsymbols, hnames⟩ := hbinds content d (by rw [hd]; simp) hdlist
  obtain ⟨ha, hwith, -⟩ := hnames (lit "a") (by decide)
  obtain ⟨hc, -, -⟩ := hnames (lit "c") (by decide)
  obtain ⟨hf, hf', hadd⟩ := hnames (lit "f") (by decide)
  have hbound : ∃ s ∈ ss, s.binding = lit "a" ∧ s.isTypeRename = false := by decide +kernel
  have hfree : ¬∃ s ∈ ss, s.binding = lit "f" ∧ s.isTypeRename = false := by decide +kernel
  have hother : ¬∃ s ∈ ss, s.binding = lit "c" ∧ s.isTypeRename = false := by decide +kernel
  refine ⟨henum, hss, d, hd, hsymbols.trans (by decide +kernel), ha.mpr hbound, ?_, ?_,
    hwith.mpr hbound, hadd (mt hf'.mp hfree)⟩
  · simpa using mt hc.mp hother
  · simpa using mt hf.mp hfree

/-- **A type under another name is bound twice**: the declaration does not count the name as bound,
and adds it. -/
theorem type_rename_is_bound_twice :
    let content := lit "import \x7b type a as b \x7d from './types';"
    let s : Specifier := ⟨true, lit "a", some (lit "b")⟩
    ∃ d ∈ declarations content, Enumerates [s] d.list ∧ s.WellFormed ∧ s.binding = lit "b" ∧
      d.binds (lit "b") = false ∧
      (d.withSymbol (lit "b")).text = lit "import \x7b type a as b, b \x7d from './types'" := by
  intro content s
  have hs : s.WellFormed := by decide +kernel
  obtain ⟨d, hd, hlist, hb, htext⟩ : ∃ d ∈ declarations content, d.list = lit " type a as b " ∧
      d.binds (lit "b") = false ∧
      (d.withSymbol (lit "b")).text = lit "import \x7b type a as b, b \x7d from './types'" := by
    decide +kernel
  have hspaced : Spaced s.tokens d.list := by
    rw [hlist]
    exact (spaced_iff hs.token_of_mem).mpr (by decide +kernel)
  exact ⟨d, hd, .last hspaced, hs, rfl, hb, htext⟩

end Declaration

end DateDisplay
