import DateDisplay.Proofs.Addition

/-!
# Imports that a new statement leaves whole

A new import statement is put between two lines of the file, and the lines are all that
is looked at to find the place.  It can come to stand in the middle of an import over
several lines, whose two parts are then no statement any more
(`added_import_cuts_list_with_blank_line`).

`added_import_leaves_followed_whole` says which imports are safe: those without a line
ending in them, and those in a layout that the count of lines follows.  For the first
kind the reason is that the place is at the end of a line (`front_eq`), and for the
second that their line feeds all come before it (`Followed.count_lt`).
-/

namespace DateDisplay

open Text Placement

namespace Declaration

theorem exists_cut {content u rest : Text} {d : Declaration} (hd : d ∈ declarations content)
    (hc : content = u ++ rest) (hstart : d.start < u.length) (hstop : u.length < d.stop) :
    ∃ x y, u = content.take d.start ++ x ∧ d.text = x ++ y ∧ x ≠ [] ∧
      (content.take d.start).length = d.start := by
  have hlen : (content.take d.start).length = d.start := by
    rw [List.length_take, hc, List.length_append]
    omega
  have hsplit := split_at_declaration hd
  rw [List.append_assoc] at hsplit
  have hpre : content.take d.start <+: u :=
    List.prefix_of_prefix_length_le (List.take_prefix _ _) ⟨rest, hc.symm⟩ (by omega)
  obtain ⟨x, rfl⟩ := hpre
  have hx : x ++ rest = d.text ++ content.drop d.stop := by
    rw [← List.append_cancel_left_eq (content.take d.start), ← hsplit, ← List.append_assoc, ← hc]
  have hle : x.length ≤ d.text.length := by
    rw [List.length_append, hlen, stop] at hstop
    omega
  obtain ⟨y, hy⟩ := List.prefix_of_prefix_length_le ⟨rest, hx⟩ (List.prefix_append _ _) hle
  refine ⟨x, y, rfl, hy.symm, ?_, hlen⟩
  rintro rfl
  rw [List.append_nil, hlen] at hstart
  omega

/-- A text that ends where a line ends does not cut a declaration without a line ending. -/
theorem infix_of_cut {eol u x y w : Text} {d : Declaration} (he : LineEnd eol)
    (hu : w ++ eol = u ++ x) (hd : d.text = x ++ y) (hx : x ≠ []) : eol <:+: d.text := by
  rcases List.append_eq_append_iff.mp hu with ⟨a, -, rfl⟩ | ⟨a, -, rfl⟩
  · -- the cut would be within the line ending, but no declaration starts there
    obtain ⟨b, x, rfl⟩ := List.exists_cons_of_ne_nil hx
    obtain ⟨t, ht⟩ := d.text_eq_cons
    rw [ht, List.cons_append, List.cons.injEq] at hd
    have hgap := he.isGap b (by simp)
    rw [← hd.1] at hgap
    exact absurd hgap (by decide)
  · rw [hd]
    exact ⟨a, y, rfl⟩

/-- The declaration has no line ending in it, or the count of lines follows its layout. -/
def Safe (content : Text) (d : Declaration) : Prop :=
  ¬lineEnding content <:+: d.text ∨ Even (lineEnding content) content ∧ Followed content d

/-- **The place for a new statement is not inside a safe declaration.** -/
theorem Safe.outside {content rest : Text} {d : Declaration} (h : Safe content d)
    (hd : d ∈ declarations content) (hc : content = front content ++ rest)
    (hplace : place content ≤ (splitOn (lineEnding content) content).length) :
    d.stop ≤ (front content).length ∨ (front content).length ≤ d.start := by
  by_contra hin
  rw [not_or, Nat.not_le, Nat.not_le] at hin
  obtain ⟨x, y, hfront, htext, hx, hlen⟩ := exists_cut hd hc hin.2 hin.1
  rcases h with hnone | ⟨heven, hfollowed⟩
  · rcases front_eq content with hnil | ⟨w, hw⟩
    · rw [hnil] at hfront
      exact hx (List.append_eq_nil_iff.mp hfront.symm).2
    · rw [hw] at hfront
      exact hnone (infix_of_cut (lineEnd_lineEnding content) hfront htext hx)
  · obtain ⟨hwf, r, hr⟩ := mem_declarations hd
    have hcontent : content = content.take d.start ++ (d.text ++ r) := by
      rw [← hr, List.take_append_drop]
    have hlt := hfollowed.count_lt hwf heven hcontent hlen.symm
    have hcount := count_front heven hplace
    rw [hfront] at hcount
    rw [htext, ← List.append_assoc, List.count_append, hcount] at hlt
    omega

theorem stop_le_length {content : Text} {d : Declaration} (hd : d ∈ declarations content) :
    d.stop ≤ content.length := by
  obtain ⟨-, r, hr⟩ := mem_declarations hd
  have hlen := congrArg List.length hr
  have hpos := List.length_pos_of_ne_nil d.text_ne_nil
  rw [List.length_drop, List.length_append] at hlen
  rw [stop]
  omega

theorem text_infix_of_outside {u v : Text} {d : Declaration} (hd : d ∈ declarations (u ++ v))
    (h : d.stop ≤ u.length ∨ u.length ≤ d.start) : d.text <:+: u ∨ d.text <:+: v := by
  have hsplit := split_at_declaration hd
  rcases h with h | h
  · left
    have hlen : ((u ++ v).take d.start ++ d.text).length ≤ u.length := by
      rw [stop] at h
      rw [List.length_append, List.length_take]
      omega
    have hpre : (u ++ v).take d.start ++ d.text <+: u :=
      List.prefix_of_prefix_length_le ⟨_, hsplit.symm⟩ (List.prefix_append u v) hlen
    exact (List.suffix_append _ _).isInfix.trans hpre.isInfix
  · right
    obtain ⟨-, r, hr⟩ := mem_declarations hd
    rw [List.drop_append, List.drop_eq_nil_of_le h, List.nil_append] at hr
    have hpre : d.text <+: v.drop (d.start - u.length) := ⟨r, hr.symm⟩
    exact hpre.isInfix.trans (List.drop_suffix _ _).isInfix

end Declaration

namespace Injector

/-- A declaration that does not reach over the place of a new statement stays in one of
the two parts of the file. -/
theorem text_infix_insert {u v : Text} {d : Declaration}
    (hd : d ∈ Declaration.declarations (u ++ v)) (h : d.stop ≤ u.length ∨ u.length ≤ d.start)
    (new : Text) : d.text <:+: u ++ (new ++ v) := by
  rcases Declaration.text_infix_of_outside hd h with hin | hin
  · exact hin.trans (List.prefix_append _ _).isInfix
  · refine hin.trans (List.IsSuffix.isInfix ⟨u ++ new, ?_⟩)
    rw [List.append_assoc]

/-- **A new statement leaves every safe declaration in one piece.**  It is put between two
parts of the file, and each of these declarations is in one of them. -/
theorem added_import_leaves_followed_whole {i : Injector} {content file : Text}
    (h : (i.ensure content file).action = .added) :
    ∃ u v g g', content = u ++ v ∧
      (i.ensure content file).content
        = u ++ (g ++ Declaration.statement i.helper (i.paths.resolve file) ++ g' ++ v) ∧
      (∀ b ∈ g ++ g', isGap b = true) ∧
      ∀ d ∈ Declaration.declarations content, Declaration.Safe content d →
        (d.stop ≤ u.length ∨ u.length ≤ d.start) ∧
        d.text <:+: (i.ensure content file).content := by
  have hgap := (lineEnd_lineEnding content).isGap
  rw [ensure_added h]
  generalize Declaration.statement i.helper (i.paths.resolve file) = statement
  rcases insert_cases content statement with ⟨v, hc, hplace, hins⟩ | hins
  · refine ⟨front content, v, [], lineEnding content, hc, by simp [hins], by simpa using hgap, ?_⟩
    intro d hd hsafe
    have hout := hsafe.outside hd hc hplace.le
    rw [hc] at hd
    rw [hins, ← List.append_assoc statement]
    exact ⟨hout, text_infix_insert hd hout _⟩
  · refine ⟨content, [], lineEnding content, [], by simp, by simp [hins], by simpa using hgap, ?_⟩
    intro d hd _
    have hout := Or.inl (b := content.length ≤ d.start) (Declaration.stop_le_length hd)
    rw [← List.append_nil content] at hd
    rw [hins, ← List.append_nil (lineEnding content ++ statement)]
    exact ⟨hout, text_infix_insert hd hout _⟩

/-- The `from` clause of the first import is on a line of its own, and the second one is
not at the start of its line. -/
theorem added_import_leaves_followed_whole_sample :
    let i : Injector := .ofOptions [] [] [] none
    let file := lit "src/components/Debts.tsx"
    let content := lit "import \x7b\n  a,\n  b\n\x7d\n  from 'x';\n"
      ++ lit "  import \x7b c \x7d from 'y';\nd.toLocaleDateString('pt-BR');\n"
    let result := (i.ensure content file).content
    (i.ensure content file).action = .added ∧
      result = lit "import \x7b\n  a,\n  b\n\x7d\n  from 'x';\n"
        ++ lit "import \x7b dbDateToDisplay \x7d from '../utils/dateUtils';\n"
        ++ lit "  import \x7b c \x7d from 'y';\nd.toLocaleDateString('pt-BR');\n" ∧
      (Declaration.declarations content).length = 2 ∧
      ∀ d ∈ Declaration.declarations content, d.text <:+: result := by
  intro i file content result
  have ha : (i.ensure content file).action = .added := by decide +kernel
  have heol : lineEnding content = [10] := by decide +kernel
  have heven : Even (lineEnding content) content := by
    rw [heol]
    exact fun u v _ => List.suffix_append u [10]
  have hlayout : ∀ d ∈ Declaration.declarations content,
      ¬[10] <:+: d.text ∨ Declaration.Followed content d := by decide +kernel
  refine ⟨ha, by decide +kernel, by decide +kernel, fun d hd => ?_⟩
  obtain ⟨u, v, g, g', -, -, -, hwhole⟩ := added_import_leaves_followed_whole ha
  refine (hwhole d hd ?_).2
  rcases hlayout d hd with hnone | hfollowed
  · exact Or.inl (by rw [heol]; exact hnone)
  · exact Or.inr ⟨heven, hfollowed⟩

/-- **A new statement cuts an import in two**: a blank line in its list is taken for the
end of it. -/
theorem added_import_cuts_list_with_blank_line :
    let i : Injector := .ofOptions [] [] [] none
    let file := lit "src/components/Debts.tsx"
    let content := lit "import \x7b\n  a,\n\n  b\n\x7d from 'x';\n"
      ++ lit "new Date(d).toLocaleDateString('pt-BR');\n"
    let result := (i.ensure content file).content
    Plan.isName i.helper = true ∧ i.paths.resolve file = lit "../utils/dateUtils" ∧
      (i.ensure content file).action = .added ∧
      result = lit "import \x7b\nimport \x7b dbDateToDisplay \x7d from '../utils/dateUtils';\n"
        ++ lit "  a,\n\n  b\n\x7d from 'x';\nnew Date(d).toLocaleDateString('pt-BR');\n" ∧
      ∃ d ∈ Declaration.declarations content, ¬d.text <:+: result := by
  decide +kernel

end Injector

end DateDisplay
