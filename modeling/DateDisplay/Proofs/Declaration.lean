import DateDisplay.Proofs.Injection
import DateDisplay.Proofs.Walk

/-!
# How declarations are spelled

`WellFormed d` says of the parts of a declaration what the reader asks of them: at
least one blank where there has to be one, a brace list that is not empty and has no
closing brace, a path without quotes between two quotes.  `parse?_append` says that a
declaration with such parts is read off its own text, whatever stands behind it, so
that the reader is `Local`, and `mem_declarations` that all declarations of a file are
of this form.
-/

namespace DateDisplay

open Text

namespace Declaration

/-- At least one blank, and blanks only. -/
def Blanks (g : Text) : Prop := g ≠ [] ∧ ∀ b ∈ g, isGap b = true

/-- The parts are what the reader asks for. -/
structure WellFormed (d : Declaration) : Prop where
  beforeList : Blanks d.beforeList
  list_ne_nil : d.list ≠ []
  list : '}'.toUInt8 ∉ d.list
  beforeFrom : Blanks d.beforeFrom
  afterFrom : Blanks d.afterFrom
  quote : isQuote d.quote = true
  path : ∀ b ∈ d.path, isQuote b = false
  endQuote : isQuote d.endQuote = true
  symbols : d.symbols = symbolsOf d.list

/-! ### The pieces of the reader -/

theorem blanks_of_gap? {s g r : Text} (h : gap? s = some (g, r)) : Blanks g := by
  rw [gap?] at h
  split at h
  · cases h
  · rename_i hne
    simp only [Option.some.injEq, Prod.mk.injEq] at h
    obtain ⟨rfl, -⟩ := h
    exact ⟨by simpa using hne, fun b hb => List.mem_takeWhile_imp hb⟩

theorem gap?_append {g r : Text} {x : UInt8} (hg : Blanks g) (hx : isGap x = false) :
    gap? (g ++ x :: r) = some (g, x :: r) := by
  have hne : g.isEmpty = false := by simpa using hg.1
  rw [gap?, takeWhile_cut hg.2 hx, dropWhile_cut hg.2 hx]
  simp only [hne, Bool.false_eq_true, if_false]

theorem isQuote_of_quote? {s r : Text} {q : UInt8} (h : quote? s = some (q, r)) :
    isQuote q = true := by
  cases s with
  | nil => cases h
  | cons b t =>
    rw [quote?] at h
    split at h
    · rename_i hb
      simp only [Option.some.injEq, Prod.mk.injEq] at h
      rwa [← h.1]
    · cases h

theorem quote?_cons {q : UInt8} (hq : isQuote q = true) (r : Text) :
    quote? (q :: r) = some (q, r) := by
  rw [quote?, if_pos hq]

theorem isGap_of_isQuote {q : UInt8} (h : isQuote q = true) : isGap q = false := by
  rw [isQuote, Bool.or_eq_true, beq_iff_eq, beq_iff_eq] at h
  rcases h with rfl | rfl <;> decide

/-! ### Reading is spelling -/

theorem wellFormed_of_parse? {s r : Text} {d : Declaration} (h : parse? s = some (d, r)) :
    d.WellFormed ∧ d.start = 0 := by
  simp only [parse?, Option.bind_eq_bind, Option.bind_eq_some_iff, Prod.exists,
    Option.pure_def] at h
  obtain ⟨s₁, -, beforeList, s₂, h₂, s₃, -, h⟩ := h
  split at h
  · cases h
  · rename_i hne
    simp only [Option.bind_eq_some_iff, Prod.exists, Option.some.injEq, Prod.mk.injEq] at h
    obtain ⟨s₄, -, beforeFrom, s₅, h₅, s₆, -, afterFrom, s₇, h₇, q, s₈, h₈, q', s₉, h₉, rfl,
      -⟩ := h
    refine ⟨⟨blanks_of_gap? h₂, by simpa using hne, fun hm => ?_, blanks_of_gap? h₅,
      blanks_of_gap? h₇, isQuote_of_quote? h₈, fun b hb => ?_, isQuote_of_quote? h₉, rfl⟩, rfl⟩
    · simpa using List.mem_takeWhile_imp hm
    · simpa using List.mem_takeWhile_imp hb

/-- **A declaration is read off its own text**, whatever stands behind it. -/
theorem parse?_append {d : Declaration} (h : d.WellFormed) (r : Text) :
    parse? (d.text ++ r) = some ({ d with start := 0 }, r) := by
  have hlist : ∀ b ∈ d.list, (b != '}'.toUInt8) = true := by
    intro b hb
    rw [bne_iff_ne]
    rintro rfl
    exact h.list hb
  have hpath : ∀ b ∈ d.path, (!isQuote b) = true := by
    intro b hb
    rw [h.path b hb]
    rfl
  have hend : (!isQuote d.endQuote) = false := by rw [h.endQuote]; rfl
  have hne : d.list.isEmpty = false := by simpa using h.list_ne_nil
  have hfrom : fromWord = 'f'.toUInt8 :: fromWord.tail := by decide
  have htext : d.text ++ r = keyword ++ (d.beforeList ++ '{'.toUInt8 :: (d.list ++ '}'.toUInt8 ::
      (d.beforeFrom ++ 'f'.toUInt8 :: (fromWord.tail ++ (d.afterFrom ++ d.quote :: (d.path ++
        d.endQuote :: r)))))) := by
    simp only [text, head, tail, List.append_assoc, List.cons_append, List.nil_append]
    nth_rewrite 1 [hfrom]
    rfl
  have hopen : ∀ t, strip? ['{'.toUInt8] ('{'.toUInt8 :: t) = some t := strip?_append ['{'.toUInt8]
  have hclose : ∀ t, strip? ['}'.toUInt8] ('}'.toUInt8 :: t) = some t := strip?_append ['}'.toUInt8]
  have hword : ∀ t, strip? fromWord ('f'.toUInt8 :: (fromWord.tail ++ t)) = some t := by
    intro t
    rw [← List.cons_append, ← hfrom, strip?_append]
  rw [htext, parse?]
  simp only [Option.bind_eq_bind, strip?_append, Option.bind_some,
    gap?_append h.beforeList (show isGap '{'.toUInt8 = false by decide), hopen,
    takeWhile_cut hlist (bne_self_eq_false _), dropWhile_cut hlist (bne_self_eq_false _), hne,
    Bool.false_eq_true, if_false, hclose,
    gap?_append h.beforeFrom (show isGap 'f'.toUInt8 = false by decide), hword,
    gap?_append h.afterFrom (isGap_of_isQuote h.quote), quote?_cons h.quote,
    takeWhile_cut hpath hend, dropWhile_cut hpath hend, quote?_cons h.endQuote, Option.pure_def,
    ← h.symbols]

theorem recognise_append {d : Declaration} (h : d.WellFormed) (r : Text) :
    recognise (d.text ++ r) = some ({ d with start := 0 }, d.text.length) := by
  rw [recognise, parse?_append h, Option.map_some]
  simp only [List.length_append, Nat.add_sub_cancel]

theorem wellFormed_of_recognise {s : Text} {d : Declaration} {n : Nat}
    (h : recognise s = some (d, n)) :
    d.WellFormed ∧ d.start = 0 ∧ n = d.text.length ∧ ∃ r, s = d.text ++ r := by
  rw [recognise, Option.map_eq_some_iff] at h
  obtain ⟨⟨d', r⟩, hp, hn⟩ := h
  obtain ⟨rfl, rfl⟩ := Prod.mk.inj hn
  obtain ⟨hwf, hstart⟩ := wellFormed_of_parse? hp
  have hs := text_append_of_parse? hp
  exact ⟨hwf, hstart, by rw [hs, List.length_append, Nat.add_sub_cancel], r, hs⟩

/-- A declaration stands at the front of the text. -/
def AtFront (s : Text) : Prop := ∃ (d : Declaration) (r : Text), d.WellFormed ∧ s = d.text ++ r

theorem recognise_eq_none_iff {s : Text} : recognise s = none ↔ ¬AtFront s := by
  constructor
  · rintro h ⟨d, r, hd, rfl⟩
    rw [recognise_append hd] at h
    cases h
  · intro h
    by_contra hne
    obtain ⟨⟨d, n⟩, hs⟩ := Option.ne_none_iff_exists'.mp hne
    obtain ⟨hd, -, -, r, hr⟩ := wellFormed_of_recognise hs
    exact h ⟨d, r, hd, hr⟩

theorem text_ne_nil (d : Declaration) : d.text ≠ [] :=
  List.ne_nil_of_length_pos d.length_text_pos

theorem local_recognise : Local recognise := by
  intro s d n h
  obtain ⟨hwf, hstart, rfl, r, rfl⟩ := wellFormed_of_recognise h
  refine ⟨d.text, r, rfl, d.text_ne_nil, rfl, fun r' => ?_⟩
  rw [recognise_append hwf, ← hstart]

/-! ### The declarations of a file -/

/-- The declaration that was found, at the place where it was found. -/
def placed (o : Occurrence Declaration) : Declaration := { o.value with start := o.start }

theorem declarations_eq (content : Text) :
    declarations content = (occurrencesFrom recognise 0 0 content).map placed := rfl

theorem map_placed_add (v : Text) (i k : Nat) :
    (occurrencesFrom recognise (i + k) 0 v).map placed
      = ((occurrencesFrom recognise i 0 v).map placed).map
        fun e => { e with start := e.start + k } := by
  rw [occurrencesFrom_add, List.map_map, List.map_map]
  rfl

/-- The declarations of a text that begins at the offset `j`, from those of the text
at the offset `i`. -/
theorem map_placed_from (v : Text) (i j : Nat) :
    (occurrencesFrom recognise j 0 v).map placed
      = ((occurrencesFrom recognise i 0 v).map placed).map
        fun e => { e with start := e.start - i + j } := by
  have hi := map_placed_add v 0 i
  have hj := map_placed_add v 0 j
  rw [Nat.zero_add] at hi hj
  rw [hi, hj]
  generalize (occurrencesFrom recognise 0 0 v).map placed = ds
  simp

theorem le_start_of_mem {v : Text} {i : Nat} {e : Declaration}
    (h : e ∈ (occurrencesFrom recognise i 0 v).map placed) : i ≤ e.start := by
  obtain ⟨o, ho, rfl⟩ := List.mem_map.mp h
  obtain ⟨k, -, hk, -⟩ := mem_occurrencesFrom positive_recognise ho
  simp only [placed]
  omega

theorem WellFormed.start {d : Declaration} (h : d.WellFormed) (k : Nat) :
    ({ d with start := k } : Declaration).WellFormed :=
  ⟨h.1, h.2, h.3, h.4, h.5, h.6, h.7, h.8, h.9⟩

theorem mem_declarations {content : Text} {d : Declaration} (h : d ∈ declarations content) :
    d.WellFormed ∧ ∃ r, content.drop d.start = d.text ++ r := by
  rw [declarations_eq, List.mem_map] at h
  obtain ⟨o, ho, rfl⟩ := h
  obtain ⟨n, hn, -⟩ := mem_occurrences positive_recognise ho
  obtain ⟨hwf, -, -, r, hr⟩ := wellFormed_of_recognise hn
  exact ⟨hwf.start o.start, r, hr⟩

/-- **Where a declaration of a file stands**: the walk comes to it, and goes on behind
it. -/
theorem walk_to_declaration {content : Text} {before after : List Declaration}
    {d : Declaration} (h : declarations content = before ++ d :: after) :
    ∃ u v os, content = u ++ (d.text ++ v) ∧ d.WellFormed ∧ d.start = u.length ∧
      Walk recognise 0 u (d.text ++ v) os ∧ before = os.map placed ∧
      after = (occurrencesFrom recognise d.stop 0 v).map placed := by
  rw [declarations_eq, List.map_eq_append_iff] at h
  obtain ⟨os, os', hos, rfl, h⟩ := h
  obtain ⟨o, rest, rfl, rfl, rfl⟩ := List.map_eq_cons_iff.mp h
  obtain ⟨u, m, v, rfl, hw, -, hfind, ho, hrest⟩ := walk_to_occurrence local_recognise hos
  obtain ⟨hwf, -, hlen, r, hr⟩ := wellFormed_of_recognise (hfind v)
  obtain ⟨rfl, -⟩ := List.append_inj hr hlen
  have hstart : o.start = u.length := by rw [ho, Nat.zero_add]
  refine ⟨u, v, os, rfl, hwf.start o.start, hstart, hw, rfl, ?_⟩
  rw [hrest, stop, Nat.zero_add]
  rw [← hstart]
  rfl

theorem declarations_of_walk {u v : Text} {os : List (Occurrence Declaration)}
    {d : Declaration} (hd : d.WellFormed) (hstart : d.start = u.length)
    (hw : Walk recognise 0 u (d.text ++ v) os) : declarations (u ++ (d.text ++ v))
      = os.map placed ++ d :: (occurrencesFrom recognise d.stop 0 v).map placed := by
  rw [declarations_eq, hw.occurrencesFrom_eq,
    occurrencesFrom_of_some d.text_ne_nil (recognise_append hd v), List.map_append, List.map_cons,
    Nat.zero_add, ← hstart]
  rfl

end Declaration

end DateDisplay
