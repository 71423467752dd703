import DateDisplay.Proofs.Addition
import DateDisplay.Proofs.Plan.Soundness

/-!
# The statement of a plan

A plan without flaws fixes the statement that a file gets: its helper's name between the braces,
and between the quotes the path that its path table has for the file, which ends with its module
(`suffix_resolve`).

The path is written as it is.  A quote in it ends the path for a reader, so that another
declaration is read, for the part before the first quote (`declarations_statement_of_quote`).  So
the statement reads back as it was meant exactly if there is no quote in its path
(`new_statement_reads_back_iff`).
-/

namespace DateDisplay

open Text

namespace PathTable

/-- All paths of the table. -/
def targets (t : PathTable) : List Text := t.fallback :: t.rules.map (·.path)

theorem resolve_mem_targets (t : PathTable) (file : Text) : t.resolve file ∈ t.targets := by
  rw [resolve, targets]
  split
  · rename_i r hr
    exact List.mem_cons_of_mem _ (List.mem_map_of_mem (List.mem_of_find?_eq_some hr))
  · simp

end PathTable

theorem Helper.Sound.suffix_resolve {h : Helper} (hs : h.Sound) (file : Text) :
    h.module <:+ h.paths.resolve file := by
  rcases List.mem_cons.mp (h.paths.resolve_mem_targets file) with hdefault | hrule
  · rw [hdefault]
    exact hs.defaultPath
  · obtain ⟨r, hr, hpath⟩ := List.mem_map.mp hrule
    rw [← hpath]
    exact (hs.rules r hr).2.2

namespace Declaration

theorem declarations_statement {name path : Text} (hn : Plan.isName name = true)
    (hp : ∀ b ∈ path, isQuote b = false) :
    declarations (statement name path) = [single 0 name path] := by
  have hbare : Bare recognise [';'.toUInt8] [] := bare_of_notMem (by decide) []
  have hrest := (walk_of_bare hbare (single 0 name path).stop).occurrencesFrom_eq
  rw [List.append_nil, occurrencesFrom_nil, List.append_nil] at hrest
  have h := declarations_of_walk (u := []) (v := [';'.toUInt8]) (wellFormed_single 0 hn hp) rfl
    (.nil 0 _)
  rw [List.nil_append, ← statement_eq, hrest] at h
  exact h

theorem exists_first_quote {path : Text} (h : ¬∀ b ∈ path, isQuote b = false) :
    ∃ front q rest, path = front ++ q :: rest ∧ (∀ b ∈ front, isQuote b = false) ∧
      isQuote q = true := by
  have hne : path.dropWhile (!isQuote ·) ≠ [] := by
    rw [Ne, List.dropWhile_eq_nil_iff]
    intro hall
    exact h fun b hb => by simpa using hall b hb
  obtain ⟨q, rest, hrest⟩ := List.exists_cons_of_ne_nil hne
  refine ⟨path.takeWhile (!isQuote ·), q, rest, ?_, fun b hb => ?_, ?_⟩
  · rw [← hrest, List.takeWhile_append_dropWhile]
  · simpa using List.mem_takeWhile_imp hb
  · have hhead := List.head_dropWhile_not (!isQuote ·) hne
    simpa only [hrest, List.head_cons, Bool.not_eq_false'] using hhead

/-- **A quote ends the path of a statement.**  What is read first is a declaration for the part of
the path before it. -/
theorem declarations_statement_of_quote {name front : Text} {q : UInt8}
    (hn : Plan.isName name = true) (hfront : ∀ b ∈ front, isQuote b = false)
    (hq : isQuote q = true) (rest : Text) : ∃ more, declarations (statement name (front ++ q :: rest))
      = { single 0 name front with endQuote := q } :: more := by
  let d : Declaration := { single 0 name front with endQuote := q }
  have hs := wellFormed_single 0 hn hfront
  have hd : d.WellFormed := ⟨hs.1, hs.2, hs.3, hs.4, hs.5, hs.6, hs.7, hq, hs.9⟩
  have htext : statement name (front ++ q :: rest)
      = [] ++ (d.text ++ (rest ++ ['\''.toUInt8, ';'.toUInt8])) := by
    rw [statement_eq 0]
    simp [d, text, tail, head, single]
  rw [htext, declarations_of_walk hd rfl (.nil 0 _)]
  exact ⟨_, rfl⟩

/-- **The statement of a plan reads back exactly if its path has no quote in it.**  Then it is one
declaration, of the helper from the path that it was written for, and this is the one that is
found for the helper's module. -/
theorem new_statement_reads_back_iff {p : Plan} (hp : p.flaw? = none) {h : Helper}
    (hh : h ∈ p.helper) (file : Text) :
    let path := h.paths.resolve file
    let s := statement h.name path
    (∃ d, declarations s = [d] ∧ d.start = 0 ∧ d.symbols = [h.name] ∧ d.quote = '\''.toUInt8 ∧
      d.path = path ∧ findFrom? s h.module = some d) ↔ ∀ b ∈ path, isQuote b = false := by
  intro path s
  obtain ⟨g, hs⟩ := Plan.flaw?_eq_none_iff.mp hp
  obtain rfl : g = h := Option.some.inj (hs.helper.symm.trans hh)
  constructor
  · rintro ⟨d, hd, -, -, -, hpath, -⟩
    by_contra hquote
    obtain ⟨front, q, rest, hcut, hfront, hq⟩ := exists_first_quote hquote
    obtain ⟨more, hmore⟩ := declarations_statement_of_quote hs.sound.name hfront hq rest
    rw [← hcut, hd] at hmore
    -- the path that is read is shorter than the one that was written
    have hread : d.path = front := congrArg Declaration.path (List.cons.inj hmore).1
    rw [hread] at hpath
    have hlen := congrArg List.length hcut
    rw [List.length_append, ← hpath, List.length_cons] at hlen
    omega
  · intro hquote
    have hd := declarations_statement hs.sound.name hquote
    refine ⟨single 0 g.name path, hd, rfl, rfl, rfl, rfl, ?_⟩
    rw [findFrom?, hd, List.find?_cons_of_pos]
    exact List.isSuffixOf_iff_suffix.mpr (hs.sound.suffix_resolve file)

/-- The path is that of a rule, and it has braces, blanks and another statement in it. -/
theorem new_statement_reads_back_odd_path :
    let odd := lit "../import \x7b a \x7d from \nb/dates"
    let h : Helper := ⟨lit "$show", lit "dates", lit "./dates", some [⟨lit "pages", odd⟩]⟩
    let p : Plan := ⟨lit "pt-BR", some h, some [lit "src/pages/a.tsx"], []⟩
    let s := statement h.name (h.paths.resolve (lit "src/pages/a.tsx"))
    p.flaw? = none ∧ s = lit "import \x7b $show \x7d from '../import \x7b a \x7d from \nb/dates';" ∧
      ∃ d, declarations s = [d] ∧ d.start = 0 ∧ d.symbols = [lit "$show"] ∧
        d.quote = '\''.toUInt8 ∧ d.path = odd ∧ findFrom? s (lit "dates") = some d := by
  intro odd h p s
  have hp : p.flaw? = none := by decide
  have hpath : h.paths.resolve (lit "src/pages/a.tsx") = odd := by decide +kernel
  have hread := new_statement_reads_back_iff hp rfl (lit "src/pages/a.tsx")
  rw [hpath] at hread
  refine ⟨hp, by decide +kernel, ?_⟩
  have hs : s = statement h.name odd := by rw [← hpath]
  rw [hs]
  exact hread.mpr (by decide +kernel)

/-- **A statement with a quote in its path does not read back**: what is read is an import from
another path, and none from the helper's module. -/
theorem new_statement_breaks_at_quote :
    let h : Helper := ⟨lit "show", lit "dates", lit "../it's/dates", none⟩
    let p : Plan := ⟨lit "pt-BR", some h, some [lit "src/App.tsx"], []⟩
    let s := statement h.name (h.paths.resolve (lit "src/App.tsx"))
    p.flaw? = none ∧ s = lit "import \x7b show \x7d from '../it's/dates';" ∧
      (declarations s).map (·.path) = [lit "../it"] ∧ findFrom? s h.module = none := by
  decide +kernel

end Declaration

end DateDisplay
