import DateDisplay.Proofs.Regular

/-!
# A new import

A file that imports nothing from the helper's module gets a new statement after its
imports.  In a regular file this adds one declaration and disturbs no other: none
reaches over the place of the new statement (`Regular.uncrossed`), and none comes to
reach into it, because the statement starts with an `i`, which an opening has at its
front only (`opens_append`).

`added_import_reads_back` puts this together.
-/

namespace DateDisplay

open Text Placement

namespace Declaration

/-! ### The new statement -/

/-- The declaration of one name from a path. -/
def single (start : Nat) (name path : Text) : Declaration where
  start := start
  symbols := [name]
  beforeList := [32]
  list := 32 :: (name ++ [32])
  beforeFrom := [32]
  afterFrom := [32]
  quote := '\''.toUInt8
  path := path
  endQuote := '\''.toUInt8

theorem statement_eq (start : Nat) (name path : Text) :
    statement name path = (single start name path).text ++ [';'.toUInt8] := by
  have h₁ : lit "import \x7b " = keyword ++ [32] ++ ['{'.toUInt8, 32] := by decide
  have h₂ : lit " \x7d from '" = [32, '}'.toUInt8, 32] ++ fromWord ++ [32, '\''.toUInt8] := by
    decide
  have h₃ : lit "';" = ['\''.toUInt8, ';'.toUInt8] := by decide
  simp [statement, text, head, tail, single, h₁, h₂, h₃]

theorem wellFormed_single (start : Nat) {name path : Text} (hn : Plan.isName name = true)
    (hp : ∀ b ∈ path, isQuote b = false) : (single start name path).WellFormed := by
  have hspace : Blanks [32] := ⟨by simp, List.forall_mem_singleton.mpr (by decide)⟩
  have hbrace : '}'.toUInt8 ∉ (32 :: (name ++ [32]) : Text) := by
    simp only [List.mem_cons, List.mem_append, List.not_mem_nil, or_false, not_or]
    exact ⟨by decide, Plan.notMem_of_isName hn (by decide), by decide⟩
  have hsymbols : symbolsOf (32 :: (name ++ [32])) = [name] := by
    have hblank : ∀ b ∈ ([32] : Text), isListBlank b = true :=
      List.forall_mem_singleton.mpr (by decide)
    rw [symbolsOf_eq, ← List.cons_append, specifiers_append_blanks hblank, specifiers_name hn]
    rfl
  have hquote : isQuote '\''.toUInt8 = true := by decide
  exact ⟨hspace, List.cons_ne_nil _ _, hbrace, hspace, hspace, hquote, hp, hquote, hsymbols.symm⟩

/-! ### Declarations around it -/

theorem bare_of_notMem {g : Text} (hg : 'i'.toUInt8 ∉ g) (v : Text) : Bare recognise g v := by
  intro x hx hne
  rw [recognise_eq_none_iff]
  rintro ⟨d, r, -, hr⟩
  obtain ⟨t, ht⟩ := d.text_eq_cons
  obtain ⟨b, x, rfl⟩ := List.exists_cons_of_ne_nil hne
  rw [ht, List.cons_append, List.cons_append, List.cons.injEq] at hr
  exact hg (hx.subset (by simp [hr.1]))

theorem stop_le_of_walk {i : Nat} {u v : Text} {os : List (Occurrence Declaration)}
    (h : Walk recognise i u v os) : ∀ e ∈ os.map placed, e.stop ≤ i + u.length := by
  induction h with
  | nil i v => intro e he; cases he
  | @gap i b u v os _ _ ih =>
    intro e he
    have := ih e he
    rw [List.length_cons]
    omega
  | @hit i m u v a os _ hf _ ih =>
    intro e he
    rw [List.length_append]
    rcases List.mem_cons.mp he with rfl | he
    · obtain ⟨-, -, hlen, -⟩ := wellFormed_of_recognise hf
      have hstop : (placed ⟨i, m, a⟩).stop = i + a.text.length := rfl
      omega
    · have := ih e he
      omega

/-- **One more declaration** where the walk comes by, with nothing to be found on
either side of it. -/
theorem declarations_of_added {u v g g' : Text} {os : List (Occurrence Declaration)}
    {d : Declaration} (hd : d.WellFormed) (hstart : d.start = u.length + g.length)
    (hg : 'i'.toUInt8 ∉ g) (hg' : 'i'.toUInt8 ∉ g')
    (hw : Walk recognise 0 u (g ++ (d.text ++ (g' ++ v))) os) :
    declarations (u ++ (g ++ (d.text ++ (g' ++ v)))) = os.map placed ++ d ::
      ((occurrencesFrom recognise u.length 0 v).map placed).map fun e =>
        { e with start := e.start + (g ++ (d.text ++ g')).length } := by
  have hlen : 0 + u.length + g.length + d.text.length + g'.length
      = u.length + (g ++ (d.text ++ g')).length := by
    simp only [List.length_append]
    omega
  rw [declarations_eq, hw.occurrencesFrom_eq,
    (walk_of_bare (bare_of_notMem hg _) _).occurrencesFrom_eq, List.nil_append,
    occurrencesFrom_of_some d.text_ne_nil (recognise_append hd _),
    (walk_of_bare (bare_of_notMem hg' _) _).occurrencesFrom_eq, List.nil_append, List.map_append,
    List.map_cons, hlen, map_placed_add, Nat.zero_add, ← hstart]
  rfl

theorem Regular.walks {u v g s : Text} (h : Regular (u ++ v)) (hu : Uncrossed recognise u v)
    (hg : '{'.toUInt8 ∉ g) :
    ∃ os, Walk recognise 0 u v os ∧ Walk recognise 0 u (g ++ 'i'.toUInt8 :: s) os := by
  obtain ⟨os, hw⟩ := walk_of_uncrossed local_recognise hu 0
  refine ⟨os, hw, hw.congr local_recognise fun x hx hne hnone => ?_⟩
  obtain ⟨p, rfl⟩ := hx
  rw [recognise_eq_none_iff] at hnone ⊢
  intro hfront
  have hopens := opens_append v hne hg (opens_of_atFront hfront)
  obtain ⟨d, -, -, hd, r, hr⟩ := h.declared (List.append_assoc p x v) hopens
  exact hnone ⟨d, r, hd, hr⟩

end Declaration

namespace Injector

theorem ensure_added {i : Injector} {content file : Text}
    (h : (i.ensure content file).action = .added) : (i.ensure content file).content
      = insert content (Declaration.statement i.helper (i.paths.resolve file)) := by
  rw [ensure] at h ⊢
  split at h
  · cases h
  · split at h
    · cases h
    · split at h
      · cases h
      · simp_all

/-- A new statement is put between two parts of the file, with a line ending on one
side of it, at a place that no declaration reaches over. -/
theorem insert_regular {content : Text} (hr : Declaration.Regular content) (statement : Text) :
    ∃ u v g g', content = u ++ v ∧ Uncrossed Declaration.recognise u v ∧
      insert content statement = u ++ (g ++ (statement ++ (g' ++ v))) ∧
      (∀ b ∈ g, isGap b = true) ∧ ∀ b ∈ g', isGap b = true := by
  have he := (lineEnd_lineEnding content).isGap
  rcases insert_cases content statement with ⟨v, hc, hplace, hins⟩ | hins
  · exact ⟨front content, v, [], lineEnding content, hc, hr.uncrossed (by omega) hc, hins,
      by simp, he⟩
  · exact ⟨content, [], lineEnding content, [], by simp,
      uncrossed_nil Declaration.local_recognise content, by simp [hins], he, by simp⟩

/-- **The file is read back with one more declaration**, of the helper alone, in
its place in the file.  The others keep all their parts, and those behind it are as
much further on as the file has grown. -/
theorem added_import_reads_back {i : Injector} {content file : Text}
    (hn : Plan.isName i.helper = true) (hp : ∀ b ∈ i.paths.resolve file, isQuote b = false)
    (hr : Declaration.Regular content) (h : (i.ensure content file).action = .added) :
    let grown := (i.ensure content file).content.length - content.length
    ∃ before new after, Declaration.declarations content = before ++ after ∧
      Declaration.declarations (i.ensure content file).content
        = before ++ new :: after.map (fun e => { e with start := e.start + grown }) ∧
      new.symbols = [i.helper] ∧ new.path = i.paths.resolve file ∧
      new.quote = '\''.toUInt8 ∧ (∀ e ∈ before, e.stop ≤ new.start) ∧
      ∀ e ∈ after, new.stop ≤ e.start + grown := by
  intro grown
  obtain ⟨u, v, g, g', rfl, hu, hins, hg, hg'⟩ :=
    insert_regular hr (Declaration.statement i.helper (i.paths.resolve file))
  let new := Declaration.single (u.length + g.length) i.helper (i.paths.resolve file)
  have hnew : new.WellFormed := Declaration.wellFormed_single _ hn hp
  have hcontent : (i.ensure (u ++ v) file).content
      = u ++ (g ++ (new.text ++ (';'.toUInt8 :: g' ++ v))) := by
    rw [ensure_added h, hins, Declaration.statement_eq (u.length + g.length)]
    simp [new]
  have hgrown : grown = (g ++ (new.text ++ ';'.toUInt8 :: g')).length := by
    simp only [grown, hcontent, List.length_append]
    omega
  obtain ⟨t, ht⟩ := new.text_eq_cons
  obtain ⟨os, hw, hw'⟩ := hr.walks (s := t ++ (';'.toUInt8 :: g' ++ v)) hu
    (Declaration.notMem_of_isGap hg (by decide))
  rw [← List.cons_append, ← ht] at hw'
  have hend : 'i'.toUInt8 ∉ ';'.toUInt8 :: g' := by
    rw [List.mem_cons, not_or]
    exact ⟨by decide, Declaration.notMem_of_isGap hg' (by decide)⟩
  refine ⟨os.map Declaration.placed, new,
    (occurrencesFrom Declaration.recognise u.length 0 v).map Declaration.placed, ?_, ?_, rfl, rfl,
    rfl, fun e he => ?_, fun e he => ?_⟩
  · rw [Declaration.declarations_eq, hw.occurrencesFrom_eq, List.map_append, Nat.zero_add]
  · rw [hcontent, hgrown, Declaration.declarations_of_added hnew rfl
      (Declaration.notMem_of_isGap hg (by decide)) hend hw']
  · have := Declaration.stop_le_of_walk hw e he
    have hstart : new.start = u.length + g.length := rfl
    omega
  · have := Declaration.le_start_of_mem he
    have hstop : new.stop = u.length + g.length + new.text.length := rfl
    rw [hgrown, hstop]
    simp only [List.length_append]
    omega

/-- A file with CRLF, an import over several lines, and one behind it that is not at
the start of its line. -/
theorem added_import_reads_back_sample :
    let i : Injector := ⟨lit "show", lit "dates", lit "toLocale", ⟨[], lit "./dates"⟩⟩
    let content := lit "import \x7b\r\n  a,\r\n\x7d from 'b';\r\n"
      ++ lit "toLocale\r\n  import \x7b c \x7d from 'd'\r\n"
    let result := (i.ensure content []).content
    (i.ensure content []).action = .added ∧ Declaration.Regular content ∧
      (Declaration.declarations result).map (·.symbols) = [[lit "a"], [lit "show"], [lit "c"]] ∧
      ∃ before new after, Declaration.declarations content = before ++ after ∧
        Declaration.declarations result = before ++ new ::
          after.map (fun e => { e with start := e.start + (result.length - content.length) }) ∧
        new.symbols = [i.helper] ∧ new.path = lit "./dates" := by
  intro i content result
  have ha : (i.ensure content []).action = .added := by decide +kernel
  have hr : Declaration.Regular content := by decide +kernel
  have hp : ∀ b ∈ i.paths.resolve [], isQuote b = false := by
    have hall : (i.paths.resolve []).all (fun b => !isQuote b) = true := by decide
    simpa using hall
  obtain ⟨before, new, after, hdecls, hres, hs, hpath, -⟩ :=
    added_import_reads_back (show Plan.isName i.helper = true by decide) hp hr ha
  exact ⟨ha, hr, by decide +kernel, before, new, after, hdecls, hres, hs, hpath⟩

end Injector

end DateDisplay
