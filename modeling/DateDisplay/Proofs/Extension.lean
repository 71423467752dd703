import DateDisplay.Proofs.Augmentation

/-!
# Declarations with more symbols

A declaration can be extended by one name after the other.  The symbols and the brace
list change side by side, and each is written down apart from the other: the symbols
by one more entry, the list by a new end.

A step adds a name unless it is bound (`binds_withSymbol`), leaves all but the list as it
was (`withSymbol_frame`) and keeps the symbols those of the list (`WellFormed.withSymbol`).
So after any number of steps the declaration is still read off its own text
(`extended_declaration_reads_back`), and a name that was given before changes nothing.

A declaration with its text at hand goes through the same steps: the text, the offsets
and the list that it keeps stay those of the declaration (`cached_withSymbol`).
-/

namespace DateDisplay

open Text

namespace Declaration

/-! ### One name -/

theorem withSymbol_of_binds {d : Declaration} {name : Text} (hb : d.binds name = true) :
    d.withSymbol name = d := by
  rw [withSymbol, if_pos hb]

theorem withSymbol_frame (d : Declaration) (name : Text) :
    ∃ symbols list, d.withSymbol name = { d with symbols := symbols, list := list } := by
  by_cases hb : d.binds name = true
  · exact ⟨d.symbols, d.list, withSymbol_of_binds hb⟩
  · exact ⟨_, _, withSymbol_of_not_binds (by simpa using hb)⟩

theorem WellFormed.withSymbol {d : Declaration} (hd : d.WellFormed) {name : Text}
    (hn : Plan.isName name = true) : (d.withSymbol name).WellFormed := by
  by_cases hb : d.binds name = true
  · rw [withSymbol_of_binds hb]
    exact hd
  · exact wellFormed_withSymbol hd hn (by simpa using hb)

/-- **The declaration binds one more name.** -/
theorem binds_withSymbol (d : Declaration) {name : Text} (hn : Plan.isName name = true)
    (m : Text) : (d.withSymbol name).binds m = true ↔ d.binds m = true ∨ m = name := by
  by_cases hb : d.binds name = true
  · rw [withSymbol_of_binds hb]
    constructor
    · exact Or.inl
    · rintro (hm | rfl)
      · exact hm
      · exact hb
  · rw [withSymbol_of_not_binds (by simpa using hb), binds, List.any_append, Bool.or_eq_true]
    show d.binds m = true ∨ _ ↔ _
    rw [List.any_cons, List.any_nil, Bool.or_false, localName_of_isName hn, beq_iff_eq,
      eq_comm (a := name)]

/-! ### One name after the other -/

/-- The declaration that also binds each of the names, in their order. -/
def withSymbols (d : Declaration) (names : List Text) : Declaration := names.foldl withSymbol d

theorem withSymbols_cons (d : Declaration) (name : Text) (names : List Text) :
    d.withSymbols (name :: names) = (d.withSymbol name).withSymbols names := rfl

theorem withSymbols_frame (names : List Text) : ∀ d : Declaration,
    ∃ symbols list, d.withSymbols names = { d with symbols := symbols, list := list } := by
  induction names with
  | nil => intro d; exact ⟨d.symbols, d.list, rfl⟩
  | cons name names ih =>
    intro d
    obtain ⟨ss, l, hstep⟩ := d.withSymbol_frame name
    obtain ⟨ss', l', hrest⟩ := ih (d.withSymbol name)
    exact ⟨ss', l', by rw [withSymbols_cons, hrest, hstep]⟩

section Names

variable {names : List Text}

theorem WellFormed.withSymbols (hn : ∀ n ∈ names, Plan.isName n = true) :
    ∀ {d : Declaration}, d.WellFormed → (d.withSymbols names).WellFormed := by
  induction names with
  | nil => intro d hd; exact hd
  | cons name names ih =>
    intro d hd
    rw [List.forall_mem_cons] at hn
    exact ih hn.2 (hd.withSymbol hn.1)

theorem binds_withSymbols (hn : ∀ n ∈ names, Plan.isName n = true) (m : Text) :
    ∀ d : Declaration, (d.withSymbols names).binds m = true ↔ d.binds m = true ∨ m ∈ names := by
  induction names with
  | nil => intro d; simp [withSymbols]
  | cons name names ih =>
    intro d
    rw [List.forall_mem_cons] at hn
    rw [withSymbols_cons, ih hn.2, binds_withSymbol d hn.1, List.mem_cons, or_assoc]

/-- **The names that were not bound come behind the symbols**, each once and in their
order. -/
theorem symbols_withSymbols (hn : ∀ n ∈ names, Plan.isName n = true) : ∀ d : Declaration,
    (d.withSymbols names).symbols
      = d.symbols ++ (names.filter fun n => !d.binds n).eraseDups := by
  induction names with
  | nil => intro d; simp [withSymbols]
  | cons name names ih =>
    intro d
    rw [List.forall_mem_cons] at hn
    rw [withSymbols_cons, ih hn.2]
    by_cases hb : d.binds name = true
    · rw [withSymbol_of_binds hb, List.filter_cons_of_neg (by simp [hb])]
    · -- from here on the name is bound, so the names that follow lose its repetitions
      have hnext : (names.filter fun n => !(d.withSymbol name).binds n)
          = (names.filter fun n => !d.binds n).filter fun n => !n == name := by
        rw [List.filter_filter]
        refine List.filter_congr fun n _ => ?_
        rw [Bool.eq_iff_iff, Bool.not_eq_true', ← Bool.not_eq_true, binds_withSymbol d hn.1]
        simp [and_comm]
      rw [hnext, List.filter_cons_of_pos (by simpa using hb), List.eraseDups_cons,
        withSymbol_of_not_binds (by simpa using hb), List.append_assoc, List.singleton_append]

end Names

/-! ### With the text at hand -/

/-- **A step changes what is at hand as it changes the declaration.** -/
theorem cached_withSymbol (d : Declaration) (name : Text) :
    d.cached.withSymbol name = (d.withSymbol name).cached := by
  by_cases hb : d.binds name = true
  · rw [withSymbol_of_binds hb]
    exact if_pos hb
  · have hfront : d.text.take d.head.length = d.head := by
      rw [text, List.append_assoc, List.take_left]
    have hback : d.text.drop (d.head.length + d.list.length) = d.tail := by
      rw [text, ← List.length_append, List.drop_left]
    have hstep : d.cached.withSymbol name = _ := if_neg hb
    rw [hstep, withSymbol_of_not_binds (by simpa using hb)]
    simp only [cached, hfront, hback]
    rfl

theorem cached_withSymbols (names : List Text) : ∀ d : Declaration,
    names.foldl CachedDeclaration.withSymbol d.cached = (d.withSymbols names).cached := by
  induction names with
  | nil => intro d; rfl
  | cons name names ih =>
    intro d
    rw [List.foldl_cons, cached_withSymbol, ih, withSymbols_cons]

/-! ### Reading it back -/

theorem declarations_text {d : Declaration} (hd : d.WellFormed) :
    declarations d.text = [{ d with start := 0 }] := by
  have h := declarations_of_walk (u := []) (v := []) (hd.start 0) rfl (.nil 0 _)
  rw [List.nil_append, List.append_nil] at h
  exact h

/-- **A declaration of a file that is extended by any names is read off its own text.**
Its symbols are those that it had and, once each, the names that it did not bind.  It
stands at the same place and differs in its brace list only.  Where the text is kept at
hand, it and all offsets are right after any names.  Names that were given before change
nothing. -/
theorem extended_declaration_reads_back {content : Text} {d : Declaration}
    (hd : d ∈ declarations content) {names : List Text}
    (hn : ∀ n ∈ names, Plan.isName n = true) :
    let e := d.withSymbols names
    e.symbols = d.symbols ++ (names.filter fun n => !d.binds n).eraseDups ∧
    (∀ m, e.binds m = true ↔ d.binds m = true ∨ m ∈ names) ∧
    e.stop - e.start = e.text.length ∧ e.start = d.start ∧ e.path = d.path ∧
    e.quote = d.quote ∧ d.text = d.head ++ d.list ++ d.tail ∧
    e.text = d.head ++ e.list ++ d.tail ∧ '}'.toUInt8 ∉ e.list ∧
    declarations e.text = [{ e with start := 0 }] ∧
    (∀ n ∈ names, e.withSymbol n = e) ∧
    names.foldl CachedDeclaration.withSymbol d.cached = {
      symbols := e.symbols
      path := d.path
      quote := d.quote
      text := e.text
      start := d.start
      stop := d.start + e.text.length
      list := e.list
      listStart := d.head.length
      listStop := d.head.length + e.list.length } := by
  have hwf := (mem_declarations hd).1.withSymbols hn
  obtain ⟨ss, l, hframe⟩ := withSymbols_frame names d
  intro e
  have he : e = { d with symbols := ss, list := l } := hframe
  have hstart : e.start = d.start := by rw [he]
  have hpath : e.path = d.path := by rw [he]
  have hquote : e.quote = d.quote := by rw [he]
  have hhead : e.head = d.head := by rw [he]; rfl
  refine ⟨symbols_withSymbols hn d, fun m => binds_withSymbols hn m d, ?_, hstart, hpath, hquote,
    rfl, ?_, hwf.list, declarations_text hwf, fun n hm => ?_, ?_⟩
  · rw [stop]
    omega
  · rw [he]
    rfl
  · exact withSymbol_of_binds ((binds_withSymbols hn n d).mpr (Or.inr hm))
  · rw [cached_withSymbols]
    show e.cached = _
    rw [cached, stop, hstart, hpath, hquote, hhead]

/-- A list over several lines with a repetition and a comma at its end.  The first name
is bound under another one, and the second is the other one. -/
theorem extended_declaration_reads_back_sample :
    let content := lit "x;import \x7b\n  a,\n  b as c, a,\n\x7d from './dates'"
    let names := [lit "c", lit "b", lit "show", lit "b"]
    let text := lit "import \x7b\n  a,\n  b as c, a, b, show,\n\x7d from './dates'"
    (declarations content).length = 1 ∧ ∀ d ∈ declarations content,
      d.symbols = [lit "a", lit "b as c"] ∧
      (d.withSymbols names).text = text ∧
      (d.withSymbols names).symbols = [lit "a", lit "b as c", lit "b", lit "show"] ∧
      declarations text = [{ d.withSymbols names with start := 0 }] ∧
      (names.foldl CachedDeclaration.withSymbol d.cached).text = text ∧
      (names.foldl CachedDeclaration.withSymbol d.cached).stop = 2 + text.length := by
  intro content names text
  refine ⟨by decide +kernel, fun d hd => ?_⟩
  have h : ∀ d ∈ declarations content, d.symbols = [lit "a", lit "b as c"] ∧ d.start = 2 ∧
      (d.withSymbols names).text = text ∧
      (names.filter fun n => !d.binds n).eraseDups = [lit "b", lit "show"] := by
    decide +kernel
  have hnames : ∀ n ∈ names, Plan.isName n = true := by decide
  obtain ⟨hs, hstart, htext, hnew⟩ := h d hd
  obtain ⟨hsymbols, -, -, -, -, -, -, -, -, hread, -, hcached⟩ :=
    extended_declaration_reads_back hd hnames
  rw [hs, hnew] at hsymbols
  rw [htext] at hread
  refine ⟨hs, htext, hsymbols, hread, ?_, ?_⟩
  · rw [hcached]
    exact htext
  · rw [hcached, htext, hstart]

end Declaration

end DateDisplay
