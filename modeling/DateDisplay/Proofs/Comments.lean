import DateDisplay.Proofs.Augmentation

/-!
# Brace lists with comments

The list between the braces of an import may have comments in it, and a name is put
behind its last byte that is no blank, whatever this byte belongs to.

A text is read byte by byte, and `CommentState` says of each byte whether it is in a
comment.  In code, what follows is read as it stands (`uncommented_append`).  In a comment,
nothing of a name is left (`uncommented_append_hidden`).  So a list gets one more symbol
exactly when its last byte is in code and a symbol or a comma ends there (`Extensible`).
-/

namespace DateDisplay

open Text

/-! ### Reading past comments -/

/-- Where a text is read: in code or in a comment. -/
inductive CommentState where
  | code
  /-- behind a slash that may open a comment -/
  | slash
  /-- in a comment up to the end of the line -/
  | line
  /-- in a comment up to a star and a slash -/
  | block
  /-- behind a star in such a comment -/
  | star
  deriving Repr, DecidableEq

namespace CommentState

/-- The byte ends a line. -/
def isLineEnd (b : UInt8) : Bool := b == 10 || b == 13

/-- What is left of a byte, and the state behind it.  A slash is held back until it is
known that it opens no comment. -/
def step (r : CommentState) (b : UInt8) : Text × CommentState :=
  match r with
  | .code => if b == '/'.toUInt8 then ([], .slash) else ([b], .code)
  | .slash =>
    if b == '/'.toUInt8 then ([], .line)
    else if b == '*'.toUInt8 then ([], .block)
    else (['/'.toUInt8, b], .code)
  | .line => if isLineEnd b then ([b], .code) else ([], .line)
  | .block => if b == '*'.toUInt8 then ([], .star) else ([], .block)
  | .star =>
    if b == '/'.toUInt8 then ([], .code)
    else if b == '*'.toUInt8 then ([], .star)
    else ([], .block)

/-- What is left of a text, and the state behind it. -/
def read : CommentState → Text → Text × CommentState
  | r, [] => ([], r)
  | r, b :: s => ((r.step b).1 ++ (read (r.step b).2 s).1, (read (r.step b).2 s).2)

/-- The slash that is held back. -/
def held : CommentState → Text
  | .slash => ['/'.toUInt8]
  | _ => []

/-- The text is read in code. -/
def isCode : CommentState → Bool
  | .code => true
  | .slash => true
  | _ => false

theorem read_append (s t : Text) : ∀ r : CommentState, r.read (s ++ t)
    = ((r.read s).1 ++ ((r.read s).2.read t).1, ((r.read s).2.read t).2) := by
  induction s with
  | nil => intro r; rfl
  | cons b s ih =>
    intro r
    rw [List.cons_append, read, read, ih, List.append_assoc]

theorem read_code {s : Text} (h : '/'.toUInt8 ∉ s) : read .code s = (s, .code) := by
  induction s with
  | nil => rfl
  | cons b s ih =>
    rw [List.mem_cons, not_or] at h
    have hb : step .code b = ([b], .code) := by simp [step, Ne.symm h.1]
    rw [read, hb, ih h.2]
    rfl

theorem read_of_isCode {r : CommentState} (hr : r.isCode = true) {x : UInt8} {s : Text}
    (hx : x ≠ '*'.toUInt8) (h : '/'.toUInt8 ∉ x :: s) :
    r.read (x :: s) = (r.held ++ x :: s, .code) := by
  cases r with
  | code => exact read_code h
  | slash =>
    rw [List.mem_cons, not_or] at h
    have hnext : step .slash x = (['/'.toUInt8, x], .code) := by simp [step, Ne.symm h.1, hx]
    rw [read, hnext, read_code h.2]
    rfl
  | line => cases hr
  | block => cases hr
  | star => cases hr

theorem read_line {s : Text} (h : ∀ b ∈ s, isLineEnd b = false) : read .line s = ([], .line) := by
  induction s with
  | nil => rfl
  | cons b s ih =>
    rw [List.forall_mem_cons] at h
    have hb : step .line b = ([], .line) := by simp [step, h.1]
    rw [read, hb, ih h.2]
    rfl

/-- A comment that a star and a slash end goes on as long as there is no slash. -/
theorem read_block {s : Text} (h : '/'.toUInt8 ∉ s) : ∀ {r : CommentState}, r = .block ∨ r = .star →
    r.read s = ([], .block) ∨ r.read s = ([], .star) := by
  induction s with
  | nil => rintro r (rfl | rfl) <;> simp [read]
  | cons b s ih =>
    intro r hr
    rw [List.mem_cons, not_or] at h
    have hstep : r.step b = ([], .block) ∨ r.step b = ([], .star) := by
      have hb : (b == '/'.toUInt8) = false := by simpa using Ne.symm h.1
      rcases hr with rfl | rfl <;> cases hstar : b == '*'.toUInt8 <;> simp [step, hb, hstar]
    rcases hstep with hstep | hstep <;> rw [read, hstep, List.nil_append]
    · exact ih h.2 (Or.inl rfl)
    · exact ih h.2 (Or.inr rfl)

theorem isCode_of_comma {s : Text} (h : (read .code (s ++ [','.toUInt8])).2.isCode = true) :
    (read .code s).2.isCode = true := by
  rw [read_append] at h
  generalize read .code s = p at h
  obtain ⟨u, r⟩ := p
  cases r with
  | code => rfl
  | slash => rfl
  | line => cases h
  | block => cases h
  | star => cases h

end CommentState

/-- What is left of a text without its comments. -/
def uncommented (s : Text) : Text :=
  (CommentState.read .code s).1 ++ (CommentState.read .code s).2.held

/-- **Behind code a text without a slash stays as it is.** -/
theorem uncommented_append {s t : Text} (hs : (CommentState.read .code s).2.isCode = true)
    (ht : '/'.toUInt8 ∉ t) (hstar : t.head? ≠ some '*'.toUInt8) :
    uncommented (s ++ t) = uncommented s ++ t := by
  cases t with
  | nil => rw [List.append_nil, List.append_nil]
  | cons x t =>
    have hx : x ≠ '*'.toUInt8 := fun h => hstar (by rw [h]; rfl)
    rw [uncommented, uncommented, CommentState.read_append, CommentState.read_of_isCode hs hx ht]
    simp [CommentState.held]

/-- **In a comment a text is not seen**, if it has no slash and no end of a line. -/
theorem uncommented_append_hidden {s t g : Text}
    (hs : (CommentState.read .code s).2.isCode = false) (ht : '/'.toUInt8 ∉ t)
    (hline : ∀ b ∈ t, CommentState.isLineEnd b = false) (hg : '/'.toUInt8 ∉ g) :
    uncommented (s ++ (t ++ g)) = uncommented (s ++ g) := by
  have hblock : ∀ {r : CommentState}, r = .block ∨ r = .star → ∀ {u : Text}, '/'.toUInt8 ∉ u →
      (r.read u).1 = [] ∧ (r.read u).2.held = [] := by
    intro r hr u hu
    rcases CommentState.read_block hu hr with h | h <;> rw [h] <;> exact ⟨rfl, rfl⟩
  have htg : '/'.toUInt8 ∉ t ++ g := by
    rw [List.mem_append, not_or]
    exact ⟨ht, hg⟩
  rw [uncommented, uncommented, CommentState.read_append s, CommentState.read_append s]
  generalize CommentState.read .code s = p at hs
  obtain ⟨u, r⟩ := p
  cases r with
  | code => cases hs
  | slash => cases hs
  | line => rw [CommentState.read_append t, CommentState.read_line hline, List.nil_append]
  | block => simp only [hblock (Or.inl rfl) htg, hblock (Or.inl rfl) hg]
  | star => simp only [hblock (Or.inr rfl) htg, hblock (Or.inr rfl) hg]

namespace Declaration

/-! ### Lists of symbols -/

/-- The symbols of a list in order, if none of the comma-separated pieces is blank but
perhaps the last. -/
def listed? (list : Text) : Option (List Text) :=
  let pieces := (splitOn [','.toUInt8] list).map collapse
  let symbols := if pieces.getLast? = some [] then pieces.dropLast else pieces
  if [] ∈ symbols then none else some symbols

theorem listed?_eq {list : Text} {ps : List Text} {p : Text}
    (h : splitOn [','.toUInt8] list = ps ++ [p]) : listed? list
      = if [] ∈ ps.map collapse then none
        else some (ps.map collapse ++ if collapse p = [] then [] else [collapse p]) := by
  rw [listed?, h, List.map_append, List.map_singleton]
  by_cases hp : collapse p = []
  · simp [hp]
  · simp [hp, Ne.symm hp]

theorem listed?_append_blanks {g : Text} (hg : ∀ b ∈ g, isListBlank b = true) (list : Text) :
    listed? (list ++ g) = listed? list := by
  obtain ⟨ps, p, hs, hsg⟩ :=
    splitOn_append_of_notMem (notMem_of_isListBlank hg (x := ','.toUInt8) (by decide)) list
  rw [listed?_eq hs, listed?_eq hsg,
    collapse_append_blanks fun b hb => isAsciiBlank_of_isListBlank (hg b hb)]

theorem listed?_comma (list : Text) : listed? (list ++ [','.toUInt8])
    = if [] ∈ (splitOn [','.toUInt8] list).map collapse then none
      else some ((splitOn [','.toUInt8] list).map collapse) := by
  have hsplit : splitOn [','.toUInt8] (list ++ [','.toUInt8])
      = splitOn [','.toUInt8] list ++ [[]] := splitOn_append _ [] list
  rw [listed?_eq hsplit]
  simp [collapse, fields, fieldsFrom, join]

/-- A name behind a comma and a space is one more symbol, if no piece before it is blank. -/
theorem listed?_name {name : Text} (hn : Plan.isName name = true) (list : Text) :
    listed? (list ++ ','.toUInt8 :: 32 :: name)
      = if [] ∈ (splitOn [','.toUInt8] list).map collapse then none
        else some ((splitOn [','.toUInt8] list).map collapse ++ [name]) := by
  have hsplit : splitOn [','.toUInt8] (list ++ ','.toUInt8 :: 32 :: name)
      = splitOn [','.toUInt8] list ++ [32 :: name] := by
    rw [splitOn_append, splitOn_space_name hn]
  rw [listed?_eq hsplit, collapse_space_name hn, if_neg (Substitution.ne_nil_of_isName hn)]

/-! ### Lists that a name can be put behind -/

/-- The last byte of the list that is no blank is in code, and it is a comma or ends a
symbol.  A blank list is one, too. -/
def Extensible (list : Text) : Prop :=
  let body := trimEnd isListBlank list
  body = [] ∨ ((CommentState.read .code body).2.isCode = true ∧
    ([','.toUInt8] <:+ body ∨
      collapse ((splitOn [','.toUInt8] (uncommented body)).getLastD []) ≠ []))

instance (list : Text) : Decidable (Extensible list) :=
  inferInstanceAs (Decidable (_ ∨ _ ∧ (_ ∨ _)))

section Code

variable {body blanks : Text} (hcode : (CommentState.read .code body).2.isCode = true)
  (hblanks : ∀ b ∈ blanks, isListBlank b = true)
include hcode hblanks

/-- What stands behind code is listed as it stands, and blanks at the end do not count. -/
theorem listed?_uncommented_append {x : UInt8} {t : Text} (hx : x ≠ '*'.toUInt8)
    (ht : '/'.toUInt8 ∉ x :: t) :
    listed? (uncommented (body ++ x :: (t ++ blanks))) = listed? (uncommented body ++ x :: t) := by
  have hslash : '/'.toUInt8 ∉ x :: (t ++ blanks) := by
    rw [← List.cons_append, List.mem_append, not_or]
    exact ⟨ht, notMem_of_isListBlank hblanks (by decide)⟩
  rw [uncommented_append hcode hslash (by simpa using hx), ← List.cons_append,
    ← List.append_assoc, listed?_append_blanks hblanks]

theorem listed?_uncommented_blanks :
    listed? (uncommented (body ++ blanks)) = listed? (uncommented body) := by
  have hstar : blanks.head? ≠ some '*'.toUInt8 := fun h =>
    notMem_of_isListBlank hblanks (by decide) (List.mem_of_mem_head? h)
  rw [uncommented_append hcode (notMem_of_isListBlank hblanks (by decide)) hstar,
    listed?_append_blanks hblanks]

end Code

section Name

variable {name : Text} (hn : Plan.isName name = true)
include hn

theorem listed?_single : listed? (32 :: name) = some [name] := by
  have hsplit : splitOn [','.toUInt8] (32 :: name) = [] ++ [32 :: name] := splitOn_space_name hn
  rw [listed?_eq hsplit, collapse_space_name hn, if_neg (Substitution.ne_nil_of_isName hn)]
  rfl

theorem listed?_name_behind_comma {list : Text} {ss : List Text}
    (h : listed? (list ++ [','.toUInt8]) = some ss) :
    listed? (list ++ ','.toUInt8 :: 32 :: (name ++ [','.toUInt8])) = some (ss ++ [name]) := by
  have hcomma := listed?_comma (list ++ ','.toUInt8 :: 32 :: name)
  rw [splitOn_append, splitOn_space_name hn, List.map_append, List.map_singleton,
    collapse_space_name hn, List.append_assoc, List.cons_append, List.cons_append] at hcomma
  rw [listed?_comma] at h
  split at h
  · cases h
  · rename_i hblank
    obtain rfl := Option.some.inj h
    rw [hcomma, if_neg]
    rw [List.mem_append, List.mem_singleton, not_or]
    exact ⟨hblank, Ne.symm (Substitution.ne_nil_of_isName hn)⟩

theorem listed?_name_behind_symbol_iff {list : Text} {ss : List Text}
    (h : listed? list = some ss) :
    listed? (list ++ ','.toUInt8 :: 32 :: name) = some (ss ++ [name]) ↔
      collapse ((splitOn [','.toUInt8] list).getLastD []) ≠ [] := by
  obtain ⟨ps, p, hsplit⟩ :=
    (List.eq_nil_or_concat' _).resolve_left (splitOn_ne_nil ','.toUInt8 list)
  rw [listed?_eq hsplit] at h
  rw [listed?_name hn, hsplit, List.getLastD_concat, List.map_append, List.map_singleton]
  split at h
  · cases h
  · rename_i hblank
    obtain rfl := Option.some.inj h
    by_cases hp : collapse p = []
    · simp [hp]
    · simp [hp, Ne.symm hp, hblank]

theorem notMem_name (x : UInt8) (hx : Substitution.isCallByte x = false) (hspace : x ≠ 32)
    (hcomma : x ≠ ','.toUInt8) :
    x ∉ 32 :: (name ++ [','.toUInt8]) ∧ x ∉ ','.toUInt8 :: 32 :: name := by
  have hname := Plan.notMem_of_isName hn hx
  constructor <;> simp [hspace, hcomma, hname]

theorem uncommented_extendList_hidden {list : Text}
    (hne : trimEnd isListBlank list ≠ [])
    (h : (CommentState.read .code (trimEnd isListBlank list)).2.isCode = false) :
    uncommented (extendList list name) = uncommented list := by
  obtain ⟨blanks, hlist, hblanks, hext⟩ := extendList_eq list name
  generalize trimEnd isListBlank list = body at *
  subst hlist
  have hslash := notMem_name hn '/'.toUInt8 (by decide) (by decide) (by decide)
  have hfeed := notMem_name hn 10 (by decide) (by decide) (by decide)
  have hreturn := notMem_name hn 13 (by decide) (by decide) (by decide)
  have hline : ∀ {t : Text}, 10 ∉ t → 13 ∉ t → ∀ b ∈ t, CommentState.isLineEnd b = false := by
    intro t h₁ h₂ b hb
    rw [CommentState.isLineEnd, Bool.or_eq_false_iff, beq_eq_false_iff_ne, beq_eq_false_iff_ne]
    exact ⟨fun e => h₁ (e ▸ hb), fun e => h₂ (e ▸ hb)⟩
  have hblank : '/'.toUInt8 ∉ blanks := notMem_of_isListBlank hblanks (by decide)
  rw [hext, if_neg hne]
  split
  · rw [← uncommented_append_hidden h hslash.1 (hline hfeed.1 hreturn.1) hblank]
    simp
  · rw [← uncommented_append_hidden h hslash.2 (hline hfeed.2 hreturn.2) hblank]
    simp

theorem listed?_uncommented_single :
    listed? (uncommented (32 :: (name ++ [32]))) = some [name] := by
  have hspace : ∀ b ∈ ([32] : Text), isListBlank b = true :=
    List.forall_mem_singleton.mpr (by decide)
  have hslash := notMem_name hn '/'.toUInt8 (by decide) (by decide) (by decide)
  rw [← List.nil_append (32 :: (name ++ [32])), listed?_uncommented_append rfl hspace
    (by decide) (List.not_mem_of_not_mem_cons hslash.2)]
  exact listed?_single hn

theorem listed?_uncommented_comma {body blanks : Text} {ss : List Text}
    (hcode : (CommentState.read .code (body ++ [','.toUInt8])).2.isCode = true)
    (hblanks : ∀ b ∈ blanks, isListBlank b = true)
    (hs : listed? (uncommented (body ++ [','.toUInt8])) = some ss) :
    listed? (uncommented (body ++ [','.toUInt8] ++ 32 :: (name ++ ','.toUInt8 :: blanks)))
      = some (ss ++ [name]) := by
  have hbody : uncommented (body ++ [','.toUInt8]) = uncommented body ++ [','.toUInt8] :=
    uncommented_append (CommentState.isCode_of_comma hcode) (by decide) (by decide)
  have hslash := notMem_name hn '/'.toUInt8 (by decide) (by decide) (by decide)
  rw [hbody] at hs
  calc listed? (uncommented (body ++ [','.toUInt8] ++ 32 :: (name ++ ','.toUInt8 :: blanks)))
      = listed? (uncommented
          (body ++ [','.toUInt8] ++ 32 :: (name ++ [','.toUInt8] ++ blanks))) := by simp
    _ = listed? (uncommented body ++ [','.toUInt8] ++ 32 :: (name ++ [','.toUInt8])) := by
      rw [listed?_uncommented_append hcode hblanks (by decide) hslash.1, hbody]
    _ = listed? (uncommented body ++ ','.toUInt8 :: 32 :: (name ++ [','.toUInt8])) := by
      rw [List.append_assoc, List.singleton_append]
    _ = some (ss ++ [name]) := listed?_name_behind_comma hn hs

/-- **A name is one more symbol of a list exactly if the list is extensible.** -/
theorem listed?_extendList_iff {list : Text} {ss : List Text}
    (hs : listed? (uncommented list) = some ss) :
    listed? (uncommented (extendList list name)) = some (ss ++ [name]) ↔ Extensible list := by
  by_cases hhidden : trimEnd isListBlank list ≠ [] ∧
      (CommentState.read .code (trimEnd isListBlank list)).2.isCode = false
  · rw [uncommented_extendList_hidden hn hhidden.1 hhidden.2, hs, Extensible]
    simp [hhidden]
  · obtain ⟨blanks, hlist, hblanks, hext⟩ := extendList_eq list name
    rw [Extensible, hext]
    generalize trimEnd isListBlank list = body at *
    subst hlist
    have hcode : (CommentState.read .code body).2.isCode = true := by
      rw [not_and, Bool.not_eq_false] at hhidden
      by_cases hbody : body = []
      · rw [hbody]
        rfl
      · exact hhidden hbody
    rw [listed?_uncommented_blanks hcode hblanks] at hs
    split
    · rename_i hbody
      subst hbody
      obtain rfl : [] = ss := Option.some.inj hs
      exact iff_of_true (listed?_uncommented_single hn) (Or.inl rfl)
    · rename_i hbody
      split
      · rename_i hcomma
        obtain ⟨body, rfl⟩ := hcomma
        exact iff_of_true (listed?_uncommented_comma hn hcode hblanks hs)
          (Or.inr ⟨hcode, Or.inl (List.suffix_append _ _)⟩)
      · rename_i hcomma
        have hslash := notMem_name hn '/'.toUInt8 (by decide) (by decide) (by decide)
        rw [← List.cons_append, listed?_uncommented_append hcode hblanks (by decide) hslash.2,
          listed?_name_behind_symbol_iff hn hs]
        simp [hbody, hcode, hcomma]

end Name

/-- **The declaration has the name as one more symbol exactly if its list is extensible.**
Comments do not count for what the symbols of a list are. -/
theorem withSymbol_lists_name_iff {d : Declaration} {name : Text} {ss : List Text}
    (hn : Plan.isName name = true) (hb : d.binds name = false)
    (hs : listed? (uncommented d.list) = some ss) :
    listed? (uncommented (d.withSymbol name).list) = some (ss ++ [name]) ↔ Extensible d.list := by
  rw [withSymbol_of_not_binds hb]
  exact listed?_extendList_iff hn hs

/-- There are comments in the list, but none behind its last comma. -/
theorem withSymbol_lists_name_sample :
    let content := lit "import \x7b a, /* b, */ c, // d,\n  e,\n\x7d from './dates';"
    (declarations content).length = 1 ∧ ∀ d ∈ declarations content,
      d.binds (lit "show") = false ∧
      listed? (uncommented d.list) = some [lit "a", lit "c", lit "e"] ∧ Extensible d.list ∧
      listed? (uncommented (d.withSymbol (lit "show")).list)
        = some [lit "a", lit "c", lit "e", lit "show"] := by
  intro content
  refine ⟨by decide +kernel, fun d hd => ?_⟩
  have h : ∀ d ∈ declarations content, d.binds (lit "show") = false ∧
      listed? (uncommented d.list) = some [lit "a", lit "c", lit "e"] ∧ Extensible d.list := by
    decide +kernel
  obtain ⟨hb, hs, he⟩ := h d hd
  exact ⟨hb, hs, he, (withSymbol_lists_name_iff (by decide) hb hs).mpr he⟩

/-- **The name is commented out**: a comment ends the last line of the list, and the name
is put behind it. -/
theorem withSymbol_comments_name_out :
    let i : Injector := .ofOptions [] [] [] none
    let call := lit "new Date(d).toLocaleDateString('pt-BR');\n"
    let close := lit "\n\x7d from '../utils/dateUtils';\n" ++ call
    let content := lit "import \x7b\n  a // first" ++ close
    (i.ensure content (lit "src/components/Debts.tsx")).content
        = lit "import \x7b\n  a // first, dbDateToDisplay" ++ close ∧
      ∃ d ∈ declarations content, Plan.isName i.helper = true ∧ d.binds i.helper = false ∧
        listed? (uncommented d.list) = some [lit "a"] ∧
        listed? (uncommented (d.withSymbol i.helper).list) = some [lit "a"] := by
  decide +kernel

end Declaration

end DateDisplay
