import DateDisplay.Proofs.Declaration
import DateDisplay.Proofs.Symbols

/-!
# An import that the helper joins

When the helper joins an import, the brace list of one declaration grows.  The file is
read afresh by a search for declarations anywhere in it, so it has to be seen that no
declaration comes or goes elsewhere.  Behind the edit nothing changes.  Before it, the
search could only be disturbed at a place from which a declaration would reach into
the edited one.  `text_cut` says where the `i` of its `import` would then stand: in a
brace list or in a path.  Either way there is a declaration at that place whichever of
the two lists stands there (`atFront_of_list_changed`).

`augmented_import_reads_back` puts this together.
-/

namespace DateDisplay

open Text

namespace Declaration

/-! ### Declarations that reach into another -/

/-- The part of the statement from the closing brace to the quote before the path. -/
def clause (d : Declaration) : Text :=
  '}'.toUInt8 :: d.beforeFrom ++ fromWord ++ d.afterFrom ++ [d.quote]

theorem tail_eq (d : Declaration) : d.tail = d.clause ++ (d.path ++ [d.endQuote]) := by
  simp [tail, clause]

theorem keyword_eq : keyword = 'i'.toUInt8 :: lit "mport" := by decide

theorem text_eq_cons (d : Declaration) : ∃ t, d.text = 'i'.toUInt8 :: t :=
  ⟨lit "mport" ++ d.beforeList ++ ['{'.toUInt8] ++ d.list ++ d.tail, by
    simp [text, head, keyword_eq]⟩

theorem notMem_of_isGap {g : Text} (hg : ∀ b ∈ g, isGap b = true) {x : UInt8}
    (hx : isGap x = false) : x ∉ g := by
  intro hm
  rw [hg x hm] at hx
  cases hx

theorem notMem_of_blanks {g : Text} (hg : Blanks g) {x : UInt8} (hx : isGap x = false) :
    x ∉ g := notMem_of_isGap hg.2 hx

theorem ne_of_isQuote {q x : UInt8} (hq : isQuote q = true) (hx : isQuote x = false) : x ≠ q := by
  rintro rfl
  rw [hq] at hx
  cases hx

/-- An `i` that stands in a declaration, but not at its front, is in the brace list or
in the path. -/
theorem text_cut {e : Declaration} (he : e.WellFormed) {x z : Text} (hx : x ≠ [])
    (h : e.text = x ++ 'i'.toUInt8 :: z) :
    (∃ l l', e.list = l ++ 'i'.toUInt8 :: l' ∧ x = e.head ++ l ∧ z = l' ++ e.tail) ∨
      ∃ p p', e.path = p ++ 'i'.toUInt8 :: p' ∧ x = e.head ++ (e.list ++ (e.clause ++ p)) := by
  obtain ⟨c, x, rfl⟩ := List.exists_cons_of_ne_nil hx
  have hhead : e.head = 'i'.toUInt8 :: (lit "mport" ++ e.beforeList ++ ['{'.toUInt8]) := by
    simp [head, keyword_eq]
  have hfree : 'i'.toUInt8 ∉ lit "mport" ++ e.beforeList ++ ['{'.toUInt8] := by
    rw [List.mem_append, List.mem_append, not_or, not_or]
    exact ⟨⟨by decide, notMem_of_blanks he.beforeList (by decide)⟩, by decide⟩
  have hclause : 'i'.toUInt8 ∉ e.clause := by
    simp only [clause, List.cons_append, List.mem_append, List.mem_cons, List.not_mem_nil, or_false,
      not_or]
    exact ⟨by decide, ⟨⟨notMem_of_blanks he.beforeFrom (by decide), by decide⟩,
      notMem_of_blanks he.afterFrom (by decide)⟩, ne_of_isQuote he.quote (by decide)⟩
  rw [text, List.append_assoc, hhead, List.cons_append, List.cons_append, List.cons.injEq] at h
  obtain ⟨rfl, h⟩ := h
  obtain ⟨w, hw, hlist⟩ := cut_behind h hfree
  rw [hhead, hw]
  rcases List.append_eq_append_iff.mp hlist with ⟨y, rfl, htail⟩ | ⟨l', hl, htail⟩
  · -- behind the list: not in the clause, and not the quote that ends the statement
    rw [tail_eq] at htail
    obtain ⟨p, rfl, hpath⟩ := cut_behind htail hclause
    have hquote := ne_of_isQuote he.endQuote (show isQuote 'i'.toUInt8 = false by decide)
    rcases List.append_eq_append_iff.mp hpath with ⟨q, -, hq⟩ | ⟨q, hp, hq⟩
    · cases q with
      | nil => exact absurd (List.cons.inj hq).1.symm hquote
      | cons a q => simp at hq
    · cases q with
      | nil => exact absurd (List.cons.inj hq).1 hquote
      | cons a q =>
        obtain ⟨rfl, -⟩ := List.cons.inj hq
        exact Or.inr ⟨p, q, hp, rfl⟩
  · cases l' with
    | nil => exact absurd (List.cons.inj htail).1 (by decide)
    | cons a l' =>
      obtain ⟨rfl, rfl⟩ := List.cons.inj htail
      exact Or.inl ⟨w, l', hl, rfl, rfl⟩

theorem WellFormed.withList {e : Declaration} (he : e.WellFormed) {k : Text} (hne : k ≠ [])
    (hk : '}'.toUInt8 ∉ k) :
    ({ e with list := k, symbols := symbolsOf k } : Declaration).WellFormed :=
  ⟨he.beforeList, hne, hk, he.beforeFrom, he.afterFrom, he.quote, he.path, he.endQuote, rfl⟩

theorem WellFormed.withPath {e : Declaration} (he : e.WellFormed) {p : Text} {q : UInt8}
    (hp : ∀ b ∈ p, isQuote b = false) (hq : isQuote q = true) :
    ({ e with path := p, endQuote := q } : Declaration).WellFormed :=
  ⟨he.beforeList, he.list_ne_nil, he.list, he.beforeFrom, he.afterFrom, he.quote, hp, hq,
    he.symbols⟩

theorem notMem_head {d : Declaration} (hd : d.WellFormed) : '}'.toUInt8 ∉ d.head := by
  rw [head, List.mem_append, List.mem_append, not_or, not_or]
  exact ⟨⟨by decide, notMem_of_blanks hd.beforeList (by decide)⟩, by decide⟩

/-- A declaration whose list runs into another one takes the other's list for the end
of its own. -/
theorem atFront_of_list_cut {e d d' : Declaration} (he : e.WellFormed) (hd : d.WellFormed)
    (hd' : d'.WellFormed) (htail : d'.tail = d.tail) {l l' r r' : Text} (hl : e.list = l ++ l')
    (h : d'.text ++ r = l' ++ (e.tail ++ r')) : AtFront (e.head ++ l ++ (d.text ++ r)) := by
  have hclose : ∀ f : Declaration, f.tail = '}'.toUInt8 :: f.tail.tail := fun _ => rfl
  have hfree : ∀ {s : Text}, '}'.toUInt8 ∉ s → ∀ b ∈ s, (b != '}'.toUInt8) = true := by
    intro s hs b hb
    rw [bne_iff_ne]
    rintro rfl
    exact hs hb
  have hlist := he.list
  rw [hl, List.mem_append, not_or] at hlist
  have hfront : ∀ {f : Declaration}, f.WellFormed → '}'.toUInt8 ∉ f.head ++ f.list := by
    intro f hf
    rw [List.mem_append, not_or]
    exact ⟨notMem_head hf, hf.list⟩
  rw [text, List.append_assoc, hclose d', hclose e, List.cons_append, List.cons_append] at h
  obtain ⟨-, -, hrest⟩ := class_cut_inj h (hfree (hfront hd')) (hfree hlist.2)
    (bne_self_eq_false _) (bne_self_eq_false _)
  have hrest : d.tail ++ r = e.tail ++ r' := by
    rw [← htail, hclose d', hclose e, List.cons_append, List.cons_append, hrest]
  refine ⟨_, r', he.withList (k := l ++ (d.head ++ d.list)) ?_ ?_, ?_⟩
  · simp [hd.list_ne_nil]
  · rw [List.mem_append, not_or]
    exact ⟨hlist.1, hfront hd⟩
  · calc e.head ++ l ++ (d.text ++ r)
        = e.head ++ (l ++ (d.head ++ d.list)) ++ (d.tail ++ r) := by simp [text]
      _ = e.head ++ (l ++ (d.head ++ d.list)) ++ (e.tail ++ r') := by rw [hrest]
      _ = _ := by simp [text, head, tail]

/-- A declaration whose path runs into a text ends at the first quote there. -/
theorem atFront_of_path_cut {e : Declaration} (he : e.WellFormed) {p p' w : Text}
    (hp : e.path = p ++ p') {q : UInt8} (hq : q ∈ w) (hquote : isQuote q = true) :
    AtFront (e.head ++ (e.list ++ (e.clause ++ p)) ++ w) := by
  obtain ⟨b, hfind⟩ : ∃ b, w.find? isQuote = some b :=
    Option.isSome_iff_exists.mp (List.find?_isSome.mpr ⟨q, hq, hquote⟩)
  obtain ⟨hb, v, s, rfl, hv⟩ := List.find?_eq_some_iff_append.mp hfind
  refine ⟨_, s, he.withPath (p := p ++ v) (fun a ha => ?_) hb, ?_⟩
  · rcases List.mem_append.mp ha with ha | ha
    · exact he.path a (by rw [hp]; simp [ha])
    · simpa using hv a ha
  · simp [text, head, tail, clause]

/-- **No declaration comes or goes before an edit of a brace list.** -/
theorem atFront_of_list_changed {d d' : Declaration} (hd : d.WellFormed) (hd' : d'.WellFormed)
    (htail : d'.tail = d.tail) {x r : Text} (hx : x ≠ [])
    (h : AtFront (x ++ (d'.text ++ r))) : AtFront (x ++ (d.text ++ r)) := by
  obtain ⟨e, r', he, hr'⟩ := h
  rcases List.append_eq_append_iff.mp hr' with ⟨a, ha, hrest⟩ | ⟨a, rfl, -⟩
  · cases a with
    | nil =>
      rw [List.append_nil] at ha
      exact ⟨e, _, he, by rw [ha]⟩
    | cons c z =>
      obtain ⟨t, ht⟩ := d'.text_eq_cons
      obtain rfl : 'i'.toUInt8 = c := by
        rw [ht] at hrest
        exact (List.cons.inj hrest).1
      rcases text_cut he hx ha with ⟨l, l', hl, rfl, rfl⟩ | ⟨p, p', hp, rfl⟩
      · rw [← List.cons_append, List.append_assoc] at hrest
        exact atFront_of_list_cut he hd hd' htail hl hrest
      · have hq : d.quote ∈ d.text ++ r := by simp [text, tail]
        exact atFront_of_path_cut he hp hq hd.quote
  · exact ⟨e, _, he, List.append_assoc _ _ _⟩

/-! ### The declaration with the helper -/

theorem withSymbol_of_not_binds {d : Declaration} {name : Text} (hb : d.binds name = false) :
    d.withSymbol name
      = { d with symbols := d.symbols ++ [name], list := extendList d.list name } := by
  rw [withSymbol, hb]
  rfl

theorem wellFormed_withSymbol {d : Declaration} (hd : d.WellFormed) {name : Text}
    (hn : Plan.isName name = true) (hb : d.binds name = false) :
    (d.withSymbol name).WellFormed := by
  have hnew : name ∉ symbolsOf d.list := by
    intro hm
    rw [← hd.symbols] at hm
    rw [binds_of_mem hn hm] at hb
    cases hb
  have hlist : '}'.toUInt8 ∉ extendList d.list name := by
    intro hm
    rcases mem_extendList hm with hm | hm | hm | hm
    · exact hd.list hm
    · exact Plan.notMem_of_isName hn (by decide) hm
    · exact absurd hm (by decide)
    · exact absurd hm (by decide)
  have hw := hd.withList (extendList_ne_nil d.list name) hlist
  rwa [symbolsOf_extendList hn hnew, ← hd.symbols, ← withSymbol_of_not_binds hb] at hw

end Declaration

namespace Injector

theorem ensure_augmented {i : Injector} {content file : Text}
    (h : (i.ensure content file).action = .augmented) :
    occurs i.helper content = false ∧ ∃ d, Declaration.findFrom? content i.module = some d ∧
      (i.ensure content file).content = i.augment content d := by
  rw [ensure] at h ⊢
  split at h
  · cases h
  · rename_i hocc
    split at h
    · cases h
    · split at h
      · rename_i d hd
        exact ⟨by simpa using hocc, d, hd, by simp_all⟩
      · cases h

theorem augment_eq (i : Injector) {u v : Text} {d : Declaration} (hstart : d.start = u.length) :
    i.augment (u ++ (d.text ++ v)) d = u ++ ((d.withSymbol i.helper).text ++ v) := by
  rw [augment, Declaration.stop, hstart, ← List.drop_drop, List.take_left, List.drop_left,
    List.drop_left, List.append_assoc]

theorem not_binds_of_not_occurs {u v name : Text} {d : Declaration} (hd : d.WellFormed)
    (hn : Plan.isName name = true) (hocc : occurs name (u ++ (d.text ++ v)) = false) :
    d.binds name = false := by
  by_contra hb
  rw [Bool.not_eq_false] at hb
  have hlist := Declaration.infix_of_binds hd.symbols hn hb
  have hocc' : occurs name (u ++ (d.text ++ v)) = true := by
    rw [occurs_iff_isInfix]
    exact hlist.trans ⟨u ++ d.head, d.tail ++ v, by simp [Declaration.text]⟩
  rw [hocc] at hocc'
  cases hocc'

/-- **The file is read back with the helper in one declaration.**  That declaration is
the first one from the helper's module, it did not bind the helper, the others keep
all their parts, and nothing outside its brace list has changed. -/
theorem augmented_import_reads_back {i : Injector} {content file : Text}
    (hn : Plan.isName i.helper = true) (h : (i.ensure content file).action = .augmented) :
    ∃ before d after, Declaration.declarations content = before ++ d :: after ∧
      (∀ e ∈ before, ¬i.module <:+ e.path) ∧ i.module <:+ d.path ∧
      d.binds i.helper = false ∧ (∀ e ∈ after, d.stop ≤ e.start) ∧
      Declaration.declarations (i.ensure content file).content
        = before ++ d.withSymbol i.helper ::
          after.map (fun e => { e with start := e.start - d.stop + (d.withSymbol i.helper).stop }) ∧
      (i.ensure content file).content = content.take (d.start + d.head.length)
        ++ (d.withSymbol i.helper).list
        ++ content.drop (d.start + d.head.length + d.list.length) := by
  obtain ⟨hocc, d, hfind, hcontent⟩ := ensure_augmented h
  rw [Declaration.findFrom?, List.find?_eq_some_iff_append] at hfind
  obtain ⟨hpath, before, after, hdecls, hbefore⟩ := hfind
  obtain ⟨u, v, os, rfl, hd, hstart, hw, rfl, rfl⟩ := Declaration.walk_to_declaration hdecls
  have hb := not_binds_of_not_occurs hd hn hocc
  have hd' := Declaration.wellFormed_withSymbol hd hn hb
  have hsame := Declaration.withSymbol_of_not_binds hb
  have hhead : (d.withSymbol i.helper).head = d.head := by rw [hsame]; rfl
  have htail : (d.withSymbol i.helper).tail = d.tail := by rw [hsame]; rfl
  have hstart' : (d.withSymbol i.helper).start = u.length := by rw [hsame]; exact hstart
  -- the walk comes to the declaration as it did before
  have hw' : Walk Declaration.recognise 0 u ((d.withSymbol i.helper).text ++ v) os := by
    refine hw.congr Declaration.local_recognise fun x _ hx hnone => ?_
    rw [Declaration.recognise_eq_none_iff] at hnone ⊢
    exact mt (Declaration.atFront_of_list_changed hd hd' htail hx) hnone
  rw [hcontent, augment_eq i hstart]
  refine ⟨os.map Declaration.placed, d, _, hdecls, fun e he => ?_, ?_, hb, fun e he => ?_, ?_, ?_⟩
  · rw [← List.isSuffixOf_iff_suffix, Bool.not_eq_true, ← Bool.not_eq_true']
    exact hbefore e he
  · exact List.isSuffixOf_iff_suffix.mp hpath
  · exact Declaration.le_start_of_mem he
  · rw [Declaration.declarations_of_walk hd' hstart' hw', Declaration.map_placed_from v d.stop]
  · have hsplit : u ++ (d.text ++ v) = (u ++ d.head) ++ (d.list ++ (d.tail ++ v)) := by
      simp [Declaration.text]
    rw [hsplit, hstart, ← List.length_append, List.take_left, ← List.drop_drop, List.drop_left,
      List.drop_left, Declaration.text, hhead, htail]
    simp

/-- The second of three imports is from the helper's module, and its list ends in a
comma. -/
theorem augmented_import_reads_back_sample :
    let i : Injector := ⟨lit "show", lit "dates", lit "toLocale", ⟨[], lit "./dates"⟩⟩
    let content := lit "import \x7b a \x7d from 'b';import \x7b c,\n\x7d from './dates'\n"
      ++ lit "import \x7b \x7d from 'e';toLocale"
    (i.ensure content []).action = .augmented ∧
      (Declaration.declarations (i.ensure content []).content).map (·.symbols)
        = [[lit "a"], [lit "c", lit "show"], []] ∧
      ∃ before d after, Declaration.declarations content = before ++ d :: after ∧
        d.binds i.helper = false ∧
        Declaration.declarations (i.ensure content []).content = before ++ d.withSymbol i.helper ::
          after.map (fun e =>
            { e with start := e.start - d.stop + (d.withSymbol i.helper).stop }) := by
  intro i content
  have ha : (i.ensure content []).action = .augmented := by decide +kernel
  obtain ⟨before, d, after, hdecls, -, -, hb, -, hres, -⟩ :=
    augmented_import_reads_back (show Plan.isName i.helper = true by decide) ha
  exact ⟨ha, by decide +kernel, before, d, after, hdecls, hb, hres⟩

end Injector

end DateDisplay
