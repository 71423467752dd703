import DateDisplay.Import.Injection
import DateDisplay.Proofs.Search

/-!
# The helper is importable

A declaration that is read off the front of a text spells what was read
(`text_append_of_parse?`), so that extending a declaration that binds the helper
already changes nothing.  `occurs_helper_or_unchanged` says what an injection is
for: behind it the helper occurs in the file, or the file is as it was.
-/

namespace DateDisplay

open Text

namespace Declaration

/-! ### Reading a declaration -/

theorem gap?_sound {s g r : Text} (h : gap? s = some (g, r)) : s = g ++ r := by
  rw [gap?] at h
  split at h
  · cases h
  · simp only [Option.some.injEq, Prod.mk.injEq] at h
    rw [← h.1, ← h.2, List.takeWhile_append_dropWhile]

theorem quote?_sound {s r : Text} {q : UInt8} (h : quote? s = some (q, r)) : s = q :: r := by
  cases s with
  | nil => cases h
  | cons b t =>
    rw [quote?] at h
    split at h
    · simp only [Option.some.injEq, Prod.mk.injEq] at h
      rw [h.1, h.2]
    · cases h

/-- **A declaration spells what was read as it.** -/
theorem text_append_of_parse? {s r : Text} {d : Declaration} (h : parse? s = some (d, r)) :
    s = d.text ++ r := by
  simp only [parse?, Option.bind_eq_bind, Option.bind_eq_some_iff, Prod.exists,
    Option.pure_def] at h
  obtain ⟨s₁, h₁, beforeList, s₂, h₂, s₃, h₃, h⟩ := h
  split at h
  · cases h
  · simp only [Option.bind_eq_some_iff, Prod.exists, Option.some.injEq, Prod.mk.injEq] at h
    obtain ⟨s₄, h₄, beforeFrom, s₅, h₅, s₆, h₆, afterFrom, s₇, h₇, q, s₈, h₈, q', s₉, h₉, rfl,
      rfl⟩ := h
    rw [strip?_eq_some_iff] at h₁ h₃ h₄ h₆
    have hs₃ : s₃ = s₃.takeWhile (· != '}'.toUInt8) ++ (['}'.toUInt8] ++ s₄) := by
      rw [← h₄, List.takeWhile_append_dropWhile]
    have hs₈ : s₈ = s₈.takeWhile (!isQuote ·) ++ q' :: s₉ := by
      rw [← quote?_sound h₉, List.takeWhile_append_dropWhile]
    generalize s₃.takeWhile (· != '}'.toUInt8) = list at hs₃ ⊢
    generalize s₈.takeWhile (!isQuote ·) = path at hs₈ ⊢
    rw [h₁, gap?_sound h₂, h₃, hs₃, gap?_sound h₅, h₆, gap?_sound h₇, quote?_sound h₈, hs₈]
    simp [text, head, tail]

theorem recognise_sound {s : Text} {d : Declaration} {n : Nat} (h : recognise s = some (d, n)) :
    ∃ r, s = d.text ++ r ∧ n = d.text.length := by
  rw [recognise, Option.map_eq_some_iff] at h
  obtain ⟨⟨d', r⟩, hp, hn⟩ := h
  obtain ⟨rfl, rfl⟩ := Prod.mk.inj hn
  have hs := text_append_of_parse? hp
  exact ⟨r, hs, by rw [hs, List.length_append, Nat.add_sub_cancel]⟩

theorem length_text_pos (d : Declaration) : 0 < d.text.length := by
  have : 0 < keyword.length := by decide
  simp only [text, head, List.length_append]
  omega

theorem positive_recognise : Positive recognise := by
  intro s d n h
  obtain ⟨-, -, rfl⟩ := recognise_sound h
  exact length_text_pos d

theorem split_at_declaration {content : Text} {d : Declaration} (h : d ∈ declarations content) :
    content = content.take d.start ++ d.text ++ content.drop d.stop := by
  rw [declarations, List.mem_map] at h
  obtain ⟨o, ho, rfl⟩ := h
  obtain ⟨n, hn, -⟩ := mem_occurrences positive_recognise ho
  obtain ⟨r, hr, -⟩ := recognise_sound hn
  have htext : ({ o.value with start := o.start } : Declaration).text = o.value.text := rfl
  have hdrop : content.drop (o.start + o.value.text.length) = r := by
    rw [← List.drop_drop, hr, List.drop_left]
  calc content = content.take o.start ++ content.drop o.start := (List.take_append_drop _ _).symm
    _ = content.take o.start ++ (o.value.text ++ r) := by rw [hr]
    _ = _ := by rw [stop, htext, hdrop, List.append_assoc]

/-! ### A declaration with one more symbol -/

theorem infix_extendList (list name : Text) : name <:+: extendList list name := by
  rw [extendList]
  split
  · exact ⟨[32], [32], by simp⟩
  · split
    · exact ⟨trimEnd isListBlank list ++ [32], _, by simp; rfl⟩
    · exact ⟨trimEnd isListBlank list ++ [','.toUInt8, 32], _, by simp; rfl⟩

theorem infix_text_withSymbol {d : Declaration} {name : Text} (h : d.binds name = false) :
    name <:+: (d.withSymbol name).text := by
  refine (infix_extendList d.list name).trans ?_
  rw [withSymbol, h]
  exact ⟨d.head, d.tail, rfl⟩

end Declaration

/-! ### What an injection does -/

theorem Placement.infix_insert (content statement : Text) :
    statement <:+: Placement.insert content statement := by
  rw [Placement.insert]
  exact infix_join (by simp)

namespace Injector

theorem augment_of_binds {i : Injector} {content : Text} {d : Declaration}
    (hd : d ∈ Declaration.declarations content) (h : d.binds i.helper = true) :
    i.augment content d = content := by
  rw [augment, Declaration.withSymbol, h]
  exact (Declaration.split_at_declaration hd).symm

/-- **Behind an injection the helper occurs in the file**, or the file is as it
was. -/
theorem occurs_helper_or_unchanged (i : Injector) (content file : Text) :
    occurs i.helper (i.ensure content file).content = true ∨
      (i.ensure content file).content = content := by
  rw [ensure]
  split
  · exact Or.inr rfl
  · split
    · exact Or.inr rfl
    · split
      · rename_i d hd
        cases hb : d.binds i.helper with
        | true => exact Or.inr (augment_of_binds (List.mem_of_find?_eq_some hd) hb)
        | false =>
          refine Or.inl ((occurs_iff_isInfix _ _).mpr ?_)
          refine (Declaration.infix_text_withSymbol hb).trans ?_
          exact ⟨content.take d.start, content.drop d.stop, rfl⟩
      · refine Or.inl ((occurs_iff_isInfix _ _).mpr ?_)
        refine List.IsInfix.trans ?_ (Placement.infix_insert _ _)
        exact ⟨lit "import \x7b ", lit " \x7d from '" ++ i.paths.resolve file ++ lit "';", by
          simp [Declaration.statement]⟩

/-- A file that formats dates is one of those that mention the helper already,
are extended or get a new import. -/
theorem action_of_signature {i : Injector} {content : Text} (file : Text)
    (h : occurs i.signature content = true) :
    (i.ensure content file).action = .alreadyPresent ∨
      (i.ensure content file).action = .augmented ∨ (i.ensure content file).action = .added := by
  rw [ensure]
  split
  · exact Or.inl rfl
  · rw [h]
    simp only [Bool.not_true, Bool.false_eq_true, if_false]
    split
    · exact Or.inr (Or.inl rfl)
    · exact Or.inr (Or.inr rfl)

end Injector

end DateDisplay
