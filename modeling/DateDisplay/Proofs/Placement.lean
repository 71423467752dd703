import DateDisplay.Proofs.Lines
import DateDisplay.Proofs.Symbols

/-!
# Where a new statement comes to stand

`insert_cases` says what an insertion does to the bytes of a file: the statement goes,
with a line ending on one side of it, between a front that ends where a line ends and
the rest, or behind the whole file.

The line it goes to is found by a count over the lines.  `le_importsEnd` says that
this count does not stop short: every line that starts an import is visited, whatever
comes before it, and so are the lines that the import goes on over.
-/

namespace DateDisplay

open Text

namespace Placement

/-! ### The bytes of an insertion -/

/-- The place for a new statement, as a number of lines. -/
def place (content : Text) : Nat := importsEnd (splitOn (lineEnding content) content)

/-- The lines before the place for a new statement, with their endings. -/
def front (content : Text) : Text :=
  ended (lineEnding content) ((splitOn (lineEnding content) content).take (place content))

theorem join_insert (eol : Text) {ls : List Text} (hls : ls ≠ []) (n : Nat) (s : Text) :
    (n < ls.length ∧ join eol ls = ended eol (ls.take n) ++ join eol (ls.drop n) ∧
      join eol (ls.take n ++ s :: ls.drop n)
        = ended eol (ls.take n) ++ (s ++ (eol ++ join eol (ls.drop n)))) ∨
      join eol (ls.take n ++ s :: ls.drop n) = join eol ls ++ (eol ++ s) := by
  by_cases hn : n < ls.length
  · left
    have hdrop : ls.drop n ≠ [] := by
      rw [ne_eq, List.drop_eq_nil_iff]
      omega
    refine ⟨hn, ?_, ?_⟩
    · rw [← join_append hdrop, List.take_append_drop]
    · rw [join_append (by simp), join_cons hdrop]
      simp only [List.append_assoc]
  · right
    rw [List.take_of_length_le (by omega), List.drop_eq_nil_of_le (by omega)]
    obtain ⟨front, l, rfl⟩ := (List.eq_nil_or_concat' ls).resolve_left hls
    rw [join_append (by simp), join_append (by simp), join_singleton, join_singleton, ended_append,
      ended_cons]
    simp [ended]

/-- **A statement is put between the lines.**  It stands at a border of lines, or
behind the last one. -/
theorem insert_cases (content statement : Text) :
    (∃ rest, content = front content ++ rest ∧
      place content < (splitOn (lineEnding content) content).length ∧
      insert content statement = front content ++ (statement ++ (lineEnding content ++ rest))) ∨
      insert content statement = content ++ (lineEnding content ++ statement) := by
  have hlines : splitOn (lineEnding content) content ≠ [] := splitFrom_ne_nil _ 0 content
  have hjoin := join_splitOn (lineEnd_lineEnding content).ne_nil content
  rcases join_insert (lineEnding content) hlines (place content) statement with
    ⟨hlt, hc, hins⟩ | hins
  · rw [hjoin] at hc
    exact Or.inl ⟨_, hc, hlt, hins⟩
  · rw [hjoin] at hins
    exact Or.inr hins

theorem front_eq (content : Text) :
    front content = [] ∨ ∃ w, front content = w ++ lineEnding content := by
  rw [front]
  generalize (splitOn (lineEnding content) content).take (place content) = ls
  rcases List.eq_nil_or_concat' ls with rfl | ⟨ls, l, rfl⟩
  · exact Or.inl rfl
  · refine Or.inr ⟨ended (lineEnding content) ls ++ l, ?_⟩
    rw [ended_append, ended_cons]
    simp [ended]

theorem count_front {content : Text} (heven : Even (lineEnding content) content)
    (h : place content ≤ (splitOn (lineEnding content) content).length) :
    (front content).count 10 = place content := by
  have he := lineEnd_lineEnding content
  have hlines := notMem_of_mem_lines he heven
  rw [front, count_ended he fun l hl => hlines l (List.mem_of_mem_take hl), List.length_take]
  omega

/-! ### Lines that start an import -/

theorem not_startsFromClause_of_startsImport {line : Text} (h : startsImport line = true) :
    startsFromClause line = false := by
  rw [startsImport] at h
  split at h
  · rename_i b t hs
    rw [strip?_eq_some_iff] at hs
    subst hs
    rfl
  · cases h

theorem startsImport_append {s : Text} (h : 7 ≤ s.length) (t : Text) :
    startsImport (s ++ t) = startsImport s := by
  have hword : (lit "import").length = 6 := by decide
  rw [startsImport, startsImport, strip?_append_right (by omega)]
  cases hs : strip? (lit "import") s with
  | none => rfl
  | some r =>
    have hr : r ≠ [] := by
      rintro rfl
      rw [strip?_eq_some_iff.mp hs, List.append_nil] at h
      omega
    obtain ⟨b, r, rfl⟩ := List.exists_cons_of_ne_nil hr
    rfl

theorem openListSpan_le {line : Text} (h : startsImport line = true) (rest : List Text) :
    ∀ (ls : List Text) (behind : Nat),
      openListSpan behind (ls ++ line :: rest) ≤ behind + ls.length := by
  intro ls
  induction ls with
  | nil =>
    intro behind
    rw [List.nil_append, openListSpan, h]
    simp
  | cons l ls ih =>
    intro behind
    have hnext : ((ls ++ line :: rest).head?.map startsFromClause).getD false = true →
        ls ≠ [] := by
      rintro hf rfl
      rw [List.nil_append, List.head?_cons, Option.map_some, Option.getD_some,
        not_startsFromClause_of_startsImport h] at hf
      cases hf
    rw [List.cons_append, openListSpan, List.length_cons]
    split
    · omega
    · split
      · have := ih (behind + 1)
        omega
      · split
        · rename_i hf
          have := List.length_pos_of_ne_nil (hnext (Bool.and_eq_true _ _ ▸ hf).2)
          omega
        · omega

theorem span_le {line : Text} (h : startsImport line = true) (l : Text) (ls rest : List Text) :
    span l (ls ++ line :: rest) ≤ ls.length := by
  rw [span]
  split
  · exact Nat.zero_le _
  · have := openListSpan_le h rest ls 0
    omega

/-! ### The count over the lines -/

theorem importsEndFrom_visits {line : Text} (h : startsImport line = true) (rest : List Text) :
    ∀ (ls : List Text) (last number skip : Nat), skip ≤ ls.length → ∃ last',
      importsEndFrom last number skip (ls ++ line :: rest)
        = importsEndFrom last' (number + ls.length) 0 (line :: rest) := by
  intro ls
  induction ls with
  | nil =>
    intro last number skip hskip
    obtain rfl : skip = 0 := Nat.le_zero.mp hskip
    exact ⟨last, rfl⟩
  | cons l ls ih =>
    intro last number skip hskip
    have hnumber : number + 1 + ls.length = number + (l :: ls).length := by
      rw [List.length_cons]
      omega
    rw [List.length_cons] at hskip
    rw [List.cons_append, ← hnumber]
    cases skip with
    | succ skip => exact ih last (number + 1) skip (by omega)
    | zero =>
      rw [importsEndFrom]
      split
      · exact ih _ (number + 1) _ (span_le h l ls rest)
      · exact ih last (number + 1) 0 (Nat.zero_le _)

theorem le_importsEndFrom : ∀ (ls : List Text) {last number skip : Nat}, last ≤ number + skip →
    last ≤ importsEndFrom last number skip ls := by
  intro ls
  induction ls with
  | nil => intro last number skip _; simp [importsEndFrom]
  | cons l ls ih =>
    intro last number skip h
    cases skip with
    | succ skip => exact ih (by omega)
    | zero =>
      rw [importsEndFrom]
      dsimp only
      split
      · have := @ih (number + span l ls + 1) (number + 1) (span l ls) (by omega)
        omega
      · exact ih (by omega)

/-- **The count takes in every import** with the lines that it goes on over. -/
theorem le_importsEnd {line : Text} (h : startsImport line = true) (ls rest : List Text) :
    ls.length + span line rest + 1 ≤ importsEnd (ls ++ line :: rest) := by
  obtain ⟨last, hl⟩ := importsEndFrom_visits h rest ls 0 0 0 (Nat.zero_le _)
  rw [importsEnd, hl, importsEndFrom, if_pos h, Nat.zero_add]
  exact le_importsEndFrom rest (by omega)

/-! ### Imports over several lines -/

theorem exists_quote_of_quoteAhead {s : Text} (h : quoteAhead s = true) :
    ∃ q ∈ s, isQuote q = true := by
  rw [quoteAhead] at h
  split at h
  · rename_i b t hd
    exact ⟨b, (List.dropWhile_suffix _).subset (by rw [hd]; simp), h⟩
  · cases h

theorem exists_quote_of_wordThenQuote {word s : Text} (h : wordThenQuote word s = true) :
    ∃ q ∈ s, isQuote q = true := by
  rw [wordThenQuote] at h
  split at h
  · rename_i rest hs
    rw [strip?_eq_some_iff] at hs
    obtain ⟨q, hq, hquote⟩ := exists_quote_of_quoteAhead h
    exact ⟨q, by rw [hs]; simp [hq], hquote⟩
  · cases h

theorem exists_quote_of_fromQuoteWithin : ∀ {s : Text} {inWord : Bool},
    fromQuoteWithin inWord s = true → ∃ q ∈ s, isQuote q = true := by
  intro s
  induction s with
  | nil => intro inWord h; cases h
  | cons b t ih =>
    intro inWord h
    rw [fromQuoteWithin, Bool.or_eq_true, Bool.and_eq_true] at h
    rcases h with ⟨-, h⟩ | h
    · exact exists_quote_of_wordThenQuote h
    · obtain ⟨q, hq, hquote⟩ := ih h
      exact ⟨q, List.mem_cons_of_mem b hq, hquote⟩

theorem exists_quote_of_endsImport {line : Text} (h : endsImport line = true) :
    ∃ q ∈ line, isQuote q = true := by
  rw [endsImport, Bool.or_eq_true] at h
  rcases h with h | h
  · exact exists_quote_of_wordThenQuote h
  · exact exists_quote_of_fromQuoteWithin h

theorem openListSpan_append (rest : List Text) : ∀ {mids : List Text} (behind : Nat),
    (∀ l ∈ mids, isBlank l = false ∧ startsImport l = false ∧ '}'.toUInt8 ∉ l) →
    openListSpan behind (mids ++ rest) = openListSpan (behind + mids.length) rest := by
  intro mids
  induction mids with
  | nil => intro behind _; rfl
  | cons l mids ih =>
    intro behind h
    obtain ⟨hb, hi, hl⟩ := h l (by simp)
    have hc : l.contains '}'.toUInt8 = false := by simpa using hl
    have hmids := ih (behind + 1) fun k hk => h k (by simp [hk])
    have hlen : behind + 1 + mids.length = behind + (l :: mids).length := by
      rw [List.length_cons]
      omega
    rw [List.cons_append, openListSpan, hb, hi, hc, ← hlen, ← hmids]
    rfl

section Close

variable {close : Text} (hclose : '}'.toUInt8 ∈ close) (himport : startsImport close = false)

include hclose himport

/-- It ends on the line with the closing brace, or on the next one if that begins with the
`from` clause. -/
theorem openListSpan_close (behind : Nat) (rest : List Text) :
    openListSpan behind (close :: rest)
      = if !endsImport close && (rest.head?.map startsFromClause).getD false then behind + 2
        else behind + 1 := by
  have hblank : isBlank close = false := isBlank_eq_false_of_ink ⟨by decide, by decide⟩ hclose
  have hc : close.contains '}'.toUInt8 = true := by simpa using hclose
  rw [openListSpan, hblank, himport, hc]
  rfl

theorem lt_openListSpan_close (behind : Nat) (rest : List Text) :
    behind < openListSpan behind (close :: rest) := by
  rw [openListSpan_close hclose himport]
  split <;> omega

end Close

end Placement

end DateDisplay
