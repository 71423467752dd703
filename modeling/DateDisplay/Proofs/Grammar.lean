import DateDisplay.Proofs.Declaration
import DateDisplay.Proofs.Occurrences
import DateDisplay.Proofs.Words
import Mathlib.Data.List.Forall2

/-!
# What a file declares

`Written list q path m` says what a named import looks like: the words `import` and
`from` with blanks where there have to be some, a list between braces and a path behind
the quote `q`.  `Lists list symbols` says what the symbols of such a list are: its pieces
between commas, each of them as its words with one space between neighbours, without the
blank pieces and with the first of equal ones only.

`declarations_follow_grammar` says of every file, whatever its bytes are, that these are
its declarations: they come in order and apart, each is written as it has to be and has
the symbols of its list, and no place where such a text starts is outside of them.
-/

namespace DateDisplay

namespace Text

/-! ### Pieces and repetitions -/

theorem join_eq_intercalate (sep : Text) : ∀ ps : List Text, join sep ps = sep.intercalate ps := by
  intro ps
  induction ps with
  | nil => rfl
  | cons p ps ih =>
    by_cases hps : ps = []
    · rw [hps, join_singleton, List.intercalate_singleton]
    · rw [join_cons hps, ih, List.intercalate_cons_of_ne_nil hps]

theorem splitOn_eq_listSplitOn (x : UInt8) (s : Text) : splitOn [x] s = List.splitOn x s := by
  have hjoin : [x].intercalate (splitOn [x] s) = s := by
    rw [← join_eq_intercalate, join_splitOn (by simp)]
  calc splitOn [x] s = List.splitOn x ([x].intercalate (splitOn [x] s)) :=
        (List.splitOn_intercalate x (notMem_of_mem_splitOn x s) (splitOn_ne_nil x s)).symm
    _ = List.splitOn x s := by rw [hjoin]

theorem distinct_filter (p : Text → Bool) : ∀ ts : List Text,
    distinct (ts.filter p) = (distinct ts).filter p := by
  intro ts
  induction ts with
  | nil => rfl
  | cons t ts ih =>
    by_cases ht : p t = true
    · rw [List.filter_cons_of_pos ht, distinct, distinct, ih, List.filter_cons_of_pos ht,
        List.filter_filter, List.filter_filter]
      simp only [Bool.and_comm]
    · rw [List.filter_cons_of_neg ht, distinct, List.filter_cons_of_neg ht, ih, List.filter_filter]
      refine List.filter_congr fun u _ => ?_
      by_cases hu : u = t
      · simp [hu, ht]
      · simp [hu]

theorem distinct_eq_eraseDups (ts : List Text) : distinct ts = ts.eraseDups := by
  induction hn : ts.length using Nat.strong_induction_on generalizing ts with
  | _ n ih =>
    cases ts with
    | nil => rfl
    | cons t ts =>
      have hlen := List.length_filter_le (fun u => u != t) ts
      rw [List.length_cons] at hn
      rw [distinct, ← distinct_filter, ih _ (by omega) _ rfl, List.eraseDups_cons]
      rfl

end Text

open Text

namespace Declaration

/-! ### Symbols -/

/-- The symbols are the pieces of the list between commas, each as its words with one
space between neighbours, without the blank pieces and the later ones of equal pieces. -/
def Lists (list : Text) (symbols : List Text) : Prop :=
  ∃ pieces : List (List Text), List.Forall₂ Words (List.splitOn ','.toUInt8 list) pieces ∧
    symbols = ((pieces.filter (!·.isEmpty)).map (List.intercalate [32])).eraseDups

theorem isEmpty_collapse (s : Text) : (collapse s).isEmpty = (fields s).isEmpty := by
  rw [collapse]
  cases hf : fields s with
  | nil => rfl
  | cons w ws =>
    have hw : w ≠ [] := ne_nil_of_mem_fields (s := s) (by rw [hf]; simp)
    cases ws with
    | nil => simpa using hw
    | cons v ws => simp [join, hw]

theorem symbolsOf_eq_eraseDups (list : Text) : symbolsOf list
    = ((((List.splitOn ','.toUInt8 list).map fields).filter (!·.isEmpty)).map
        (List.intercalate [32])).eraseDups := by
  rw [symbolsOf, distinct_eq_eraseDups, splitOn_eq_listSplitOn, List.filter_map, List.filter_map,
    List.map_map]
  have hkeep : ((!·.isEmpty) ∘ collapse : Text → Bool) = (!·.isEmpty) ∘ fields := by
    funext s
    exact congrArg (!·) (isEmpty_collapse s)
  have hwrite : collapse = List.intercalate [32] ∘ fields := by
    funext s
    exact join_eq_intercalate [32] (fields s)
  rw [hkeep, hwrite]

/-- **A list has the symbols that are read off it**, and no others. -/
theorem lists_iff {list : Text} {symbols : List Text} :
    Lists list symbols ↔ symbols = symbolsOf list := by
  have hpieces : ∀ pieces, List.Forall₂ Words (List.splitOn ','.toUInt8 list) pieces ↔
      (List.splitOn ','.toUInt8 list).map fields = pieces := by
    intro pieces
    have hwords : Words = fun s ws => fields s = ws := by
      funext s ws
      exact propext words_iff
    rw [hwords, ← List.forall₂_map_left_iff, List.forall₂_eq_eq_eq]
  rw [symbolsOf_eq_eraseDups]
  constructor
  · rintro ⟨pieces, hp, rfl⟩
    rw [← (hpieces pieces).mp hp]
  · rintro rfl
    exact ⟨_, (hpieces _).mpr rfl, rfl⟩

/-! ### Declarations -/

/-- `m` is an import of what is in `list` from `path`, with the quote `q` before the path. -/
def Written (list : Text) (q : UInt8) (path m : Text) : Prop :=
  ∃ g g' g'' q', Blanks g ∧ Blanks g' ∧ Blanks g'' ∧ list ≠ [] ∧ '}'.toUInt8 ∉ list ∧
    isQuote q = true ∧ isQuote q' = true ∧ (∀ b ∈ path, isQuote b = false) ∧
    m = lit "import" ++ g ++ ['{'.toUInt8] ++ list ++ ['}'.toUInt8] ++ g' ++ lit "from" ++ g''
      ++ [q] ++ path ++ [q']

theorem written_of_wellFormed {d : Declaration} (h : d.WellFormed) :
    Written d.list d.quote d.path d.text := by
  refine ⟨d.beforeList, d.beforeFrom, d.afterFrom, d.endQuote, h.beforeList, h.beforeFrom,
    h.afterFrom, h.list_ne_nil, h.list, h.quote, h.endQuote, h.path, ?_⟩
  simp [text, head, tail, keyword, fromWord]

theorem exists_wellFormed_of_written {list path m : Text} {q : UInt8}
    (h : Written list q path m) : ∃ d : Declaration, d.WellFormed ∧ d.text = m := by
  obtain ⟨g, g', g'', q', hg, hg', hg'', hne, hlist, hq, hq', hpath, rfl⟩ := h
  refine ⟨⟨0, symbolsOf list, g, list, g', g'', q, path, q'⟩,
    ⟨hg, hne, hlist, hg', hg'', hq, hpath, hq', rfl⟩, ?_⟩
  simp [text, head, tail, keyword, fromWord]

theorem text_placed {content : Text} {o : Occurrence Declaration}
    (h : o ∈ occurrences recognise content) : (placed o).text = o.text := by
  obtain ⟨n, hn, htext⟩ := mem_occurrences positive_recognise h
  obtain ⟨-, -, rfl, r, hr⟩ := wellFormed_of_recognise hn
  rw [htext, hr, List.take_left]
  rfl

theorem stop_placed {content : Text} {o : Occurrence Declaration}
    (h : o ∈ occurrences recognise content) : (placed o).stop = o.stop := by
  rw [stop, text_placed h]
  rfl

/-- **The declarations of a file are the texts in it that are written as named imports.**
They come in order and apart, each has the symbols of its list, and every place where
such a text starts lies in one of them. -/
theorem declarations_follow_grammar (content : Text) :
    (declarations content).Pairwise (fun d e => d.stop ≤ e.start) ∧
    (∀ d ∈ declarations content, d.start < d.stop ∧ d.stop ≤ content.length ∧
      d.text = (content.take d.stop).drop d.start ∧ Written d.list d.quote d.path d.text ∧
      ∀ symbols, Lists d.list symbols ↔ symbols = d.symbols) ∧
    ∀ k list q path m, Written list q path m → m <+: content.drop k →
      ∃ d ∈ declarations content, d.start ≤ k ∧ k < d.stop := by
  have hdecls : declarations content = (occurrences recognise content).map placed := rfl
  refine ⟨?_, fun d hd => ?_, fun k list q path m hm hk => ?_⟩
  · rw [hdecls, List.pairwise_map]
    refine (pairwise_occurrences local_recognise content).imp_of_mem fun ho _ hle => ?_
    rw [stop_placed ho]
    exact hle
  · obtain ⟨hwf, -⟩ := mem_declarations hd
    rw [hdecls, List.mem_map] at hd
    obtain ⟨o, ho, rfl⟩ := hd
    obtain ⟨hlt, hle⟩ := bounds_of_mem_occurrences local_recognise ho
    rw [stop_placed ho, text_placed ho]
    refine ⟨hlt, hle, text_of_mem_occurrences local_recognise ho, ?_, fun symbols => ?_⟩
    · rw [← text_placed ho]
      exact written_of_wellFormed hwf
    · rw [lists_iff, hwf.symbols]
  · obtain ⟨d, hd, rfl⟩ := exists_wellFormed_of_written hm
    obtain ⟨r, hr⟩ := hk
    have hfound := recognise_append hd r
    rw [hr] at hfound
    obtain ⟨o, ho, hstart, hstop⟩ := exists_covering_occurrence local_recognise hfound
    exact ⟨placed o, List.mem_map_of_mem ho, hstart, by rwa [stop_placed ho]⟩

/-- An open list takes in the import behind it, up to its closing brace.  There is a stray
byte before a no-break space in it, and the two quotes around the path differ. -/
theorem declarations_follow_grammar_nested :
    let outer := lit "import \x7b a,\t" ++ [0xFF, 0xC2, 0xA0] ++ lit "a , a,"
    let inner := lit "import \x7b b \x7d from \"c'"
    (declarations (outer ++ inner)).map (·.symbols)
        = [[lit "a", [0xFF] ++ lit " a", lit "import \x7b b"]] ∧
      Written (lit " b ") '"'.toUInt8 (lit "c") inner ∧
      ∃ d ∈ declarations (outer ++ inner), d.start ≤ outer.length ∧ outer.length < d.stop ∧
        Lists d.list d.symbols := by
  intro outer inner
  have hblank : Blanks [32] := ⟨by simp, List.forall_mem_singleton.mpr (by decide)⟩
  have hinner : Written (lit " b ") '"'.toUInt8 (lit "c") inner :=
    ⟨[32], [32], [32], '\''.toUInt8, hblank, hblank, hblank, by decide, by decide, by decide,
      by decide, List.forall_mem_singleton.mpr (by decide), by decide⟩
  obtain ⟨-, hall, hcover⟩ := declarations_follow_grammar (outer ++ inner)
  obtain ⟨d, hd, hstart, hstop⟩ := hcover outer.length _ _ _ inner hinner (by rw [List.drop_left])
  exact ⟨by decide +kernel, hinner, d, hd, hstart, hstop, ((hall d hd).2.2.2.2 d.symbols).mpr rfl⟩

end Declaration

end DateDisplay
