import DateDisplay.Proofs.Layout

/-!
# Files whose imports are laid out plainly

The declarations of a file are found by a search that knows no lines, and the place
for a new statement by a count over lines that knows no declarations.  In a `Regular`
file the two agree: the file has one kind of line ending, nothing looks like the start
of a declaration without being one, and a declaration over several lines has its list
on lines of its own (`LaidOut`).

The count follows this layout (`LaidOut.followed`), and so no declaration reaches over the
place for a new statement (`Regular.uncrossed`).
-/

namespace DateDisplay

open Text Placement

namespace Declaration

/-! ### Openings -/

/-- `import`, blanks and an opening brace stand at the front of the text. -/
def opens (s : Text) : Bool :=
  (strip? keyword s).any fun t => (gap? t).any fun (_, r) => ['{'.toUInt8].isPrefixOf r

theorem opens_iff {s : Text} :
    opens s = true ↔ ∃ g r, Blanks g ∧ s = keyword ++ g ++ ['{'.toUInt8] ++ r := by
  constructor
  · intro h
    rw [opens, Option.any_eq_true] at h
    obtain ⟨t, ht, h⟩ := h
    rw [Option.any_eq_true] at h
    obtain ⟨⟨g, r⟩, hg, hr⟩ := h
    obtain ⟨r, rfl⟩ := List.isPrefixOf_iff_prefix.mp hr
    refine ⟨g, r, blanks_of_gap? hg, ?_⟩
    rw [strip?_eq_some_iff.mp ht, gap?_sound hg]
    simp only [List.append_assoc]
  · rintro ⟨g, r, hg, rfl⟩
    have hgap := gap?_append (r := r) hg (show isGap '{'.toUInt8 = false by decide)
    rw [List.append_assoc, List.append_assoc, opens, strip?_append, Option.any_some,
      List.singleton_append, hgap, Option.any_some]
    rfl

theorem opens_of_atFront {s : Text} (h : AtFront s) : opens s = true := by
  obtain ⟨d, r, hd, rfl⟩ := h
  refine opens_iff.mpr ⟨d.beforeList, d.list ++ d.tail ++ r, hd.beforeList, ?_⟩
  simp [text, head]

/-- An opening does not reach over a place where an `i` comes before the next brace. -/
theorem opens_append {x g s : Text} (v : Text) (hx : x ≠ []) (hg : '{'.toUInt8 ∉ g)
    (h : opens (x ++ (g ++ 'i'.toUInt8 :: s)) = true) : opens (x ++ v) = true := by
  obtain ⟨gap, r, hgap, hr⟩ := opens_iff.mp h
  rcases List.append_eq_append_iff.mp hr with ⟨z, hz, hrest⟩ | ⟨z, rfl, -⟩
  · obtain ⟨c, x, rfl⟩ := List.exists_cons_of_ne_nil hx
    rw [keyword_eq, List.cons_append, List.cons_append, List.cons_append, List.cons.injEq] at hz
    obtain ⟨rfl, hz⟩ := hz
    by_cases hnil : z = []
    · subst hnil
      rw [List.append_nil] at hz
      refine opens_iff.mpr ⟨gap, v, hgap, ?_⟩
      rw [← hz, keyword_eq]
      simp
    · -- the brace of the opening would come behind the `i`, which is not in an opening twice
      have hfree : 'i'.toUInt8 ∉ lit "mport" ++ gap ++ ['{'.toUInt8] := by
        rw [List.mem_append, List.mem_append, not_or, not_or]
        exact ⟨⟨by decide, notMem_of_blanks hgap (by decide)⟩, by decide⟩
      have hz' : 'i'.toUInt8 ∉ z := by
        intro hm
        exact hfree (by rw [hz]; exact List.mem_append_right _ hm)
      obtain ⟨w, rfl, -⟩ := cut_behind hrest.symm hz'
      obtain ⟨y, rfl⟩ := exists_concat_of_append_eq hz.symm hnil
      exact absurd (by simp) hg
  · exact opens_iff.mpr ⟨gap, z ++ v, hgap, by simp⟩

/-! ### Layouts -/

/-- The plain layout of a declaration over several lines: it starts a line, breaks lines
in its brace list only, has no quote there, and none of its lines but the first could
be taken for a blank one or for the start of an import. -/
structure LaidOut (content : Text) (d : Declaration) : Prop where
  column : d.start = 0 ∨ content[d.start - 1]? = some 10
  head : 10 ∉ d.head
  tail : 10 ∉ d.tail
  list : ∀ b ∈ d.list, isQuote b = false
  lines : ∀ l ∈ (splitOn (lineEnding content) d.text).tail,
    isBlank l = false ∧ startsImport l = false

instance (content : Text) (d : Declaration) : Decidable (LaidOut content d) :=
  decidable_of_iff
    ((d.start = 0 ∨ content[d.start - 1]? = some 10) ∧ 10 ∉ d.head ∧ 10 ∉ d.tail ∧
      d.list.all (!isQuote ·) = true ∧
      ∀ l ∈ (splitOn (lineEnding content) d.text).tail, isBlank l = false ∧ startsImport l = false)
    ⟨fun ⟨h₁, h₂, h₃, h₄, h₅⟩ => ⟨h₁, h₂, h₃, by simpa using h₄, h₅⟩,
      fun h => ⟨h.column, h.head, h.tail, by simpa using h.list, h.lines⟩⟩

/-- A file with one kind of line ending, in which all that looks like the start of a
declaration is one, and each declaration is on one line or in the plain layout. -/
structure Regular (content : Text) : Prop where
  breaks : occurs [13, 10] content = false ∨
    ∀ k < content.length, content[k]? = some 10 → 0 < k ∧ content[k - 1]? = some 13
  openings : ∀ k < content.length, opens (content.drop k) = true →
    ∃ d ∈ declarations content, d.start = k
  layout : ∀ d ∈ declarations content, 10 ∉ d.text ∨ LaidOut content d

instance (content : Text) : Decidable (Regular content) :=
  decidable_of_iff
    ((occurs [13, 10] content = false ∨
        ∀ k < content.length, content[k]? = some 10 → 0 < k ∧ content[k - 1]? = some 13) ∧
      (∀ k < content.length, opens (content.drop k) = true →
        ∃ d ∈ declarations content, d.start = k) ∧
      ∀ d ∈ declarations content, 10 ∉ d.text ∨ LaidOut content d)
    ⟨fun ⟨h₁, h₂, h₃⟩ => ⟨h₁, h₂, h₃⟩, fun h => ⟨h.breaks, h.openings, h.layout⟩⟩

theorem Regular.even {content : Text} (h : Regular content) :
    Even (lineEnding content) content := by
  rw [lineEnding]
  split
  · rename_i hocc
    exact even_crlf_iff.mpr (h.breaks.resolve_left (by rw [hocc]; decide))
  · intro u v _
    exact List.suffix_append u [10]

theorem Regular.declared {content p s : Text} (h : Regular content) (hc : content = p ++ s)
    (hs : opens s = true) : ∃ d ∈ declarations content, d.start = p.length ∧ d.WellFormed ∧
      ∃ r, s = d.text ++ r := by
  have hne : s ≠ [] := by
    rintro rfl
    cases hs
  have hlen : p.length < content.length := by
    have := List.length_pos_of_ne_nil hne
    rw [hc, List.length_append]
    omega
  have hdrop : content.drop p.length = s := by rw [hc, List.drop_left]
  obtain ⟨d, hd, hstart⟩ := h.openings p.length hlen (by rw [hdrop]; exact hs)
  obtain ⟨hwf, r, hr⟩ := mem_declarations hd
  rw [hstart, hdrop] at hr
  exact ⟨d, hd, hstart, hwf, r, hr⟩

theorem LaidOut.followed {content : Text} {d : Declaration} (h : LaidOut content d)
    (hbreak : 10 ∈ d.text) : Followed content d := by
  have htail := h.tail
  rw [tail_eq_fromClause, List.mem_cons, List.mem_append, not_or, not_or] at htail
  rw [text, List.mem_append, List.mem_append] at hbreak
  refine ⟨h.column, h.head, h.list, ?_, h.lines, ?_, htail.2.2⟩
  · exact (hbreak.resolve_right h.tail).resolve_left h.head
  · rw [List.count_eq_zero.mpr htail.2.1]
    omega

/-- **No declaration of a regular file reaches over the place for a new statement.** -/
theorem Regular.uncrossed {content v : Text} (h : Regular content)
    (hplace : place content ≤ (splitOn (lineEnding content) content).length)
    (hc : content = front content ++ v) : Uncrossed recognise (front content) v := by
  have hcount := count_front h.even hplace
  have hfront := front_eq content
  generalize front content = u at hc hcount hfront ⊢
  rintro x a n ⟨p, rfl⟩ hx hf
  rw [List.append_assoc] at hc
  obtain ⟨hwf, -, -, r, hr⟩ := wellFormed_of_recognise hf
  obtain ⟨d, hd, hstart, hwf, r, hr⟩ := h.declared hc (opens_of_atFront ⟨a, r, hwf, hr⟩)
  obtain rfl : n = d.text.length := by
    rw [hr, recognise_append hwf, Option.some.injEq, Prod.mk.injEq] at hf
    exact hf.2.symm
  -- a declaration that crosses breaks its line there, so its lines count up to the place
  by_contra hlt
  obtain ⟨y, hy⟩ := List.prefix_of_prefix_length_le (List.prefix_append x v) ⟨r, hr.symm⟩ (by omega)
  have hbreak : 10 ∈ d.text := by
    obtain ⟨w, hw⟩ := hfront.resolve_left (by simp [hx])
    obtain ⟨c, hc', -⟩ := lineEnd_lineEnding content
    rw [hc', ← List.append_assoc] at hw
    obtain ⟨z, rfl⟩ := exists_concat_of_append_eq hw hx
    rw [← hy]
    simp
  have hlaid := (h.layout d hd).resolve_left (not_not.mpr hbreak)
  rw [hr] at hc
  have hlines := (hlaid.followed hbreak).count_lt hwf h.even hc hstart
  rw [← hy, ← List.append_assoc, List.count_append] at hlines
  omega

end Declaration

end DateDisplay
