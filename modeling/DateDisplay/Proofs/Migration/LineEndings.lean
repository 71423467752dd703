import DateDisplay.Proofs.Migration.Sites

/-!
# A migration keeps the line endings

A file in which every line feed follows a carriage return stays such a file, and a file
without carriage returns stays one without (`migration_keeps_line_endings`).

Both properties are `Seamless`: they hold of a text as soon as they hold of its pieces, and
they pass to its pieces unless it is cut behind a carriage return.  A migration cuts a file
at the braces of an import, behind the last symbol of its list, at the end of a line and
behind a closing parenthesis, and never behind a carriage return.  So it keeps every
seamless property that its own line endings have.
-/

namespace DateDisplay

open Text

/-- A property that passes from the pieces of a text to the text, and from a text to its
pieces where it is not cut behind a carriage return. -/
structure Seamless (P : Text → Prop) : Prop where
  plain {s : Text} : 13 ∉ s → 10 ∉ s → P s
  append {s t : Text} : P s → P t → P (s ++ t)
  front {s t : Text} : P (s ++ t) → P s
  behind {s t : Text} {b : UInt8} : b ≠ 13 → P (s ++ b :: t) → P t

theorem seamless_even : Seamless (Even [13, 10]) where
  plain _ h := even_of_notMem h
  append := even_append
  front := even_front
  behind := even_behind ⟨[13], rfl, by simp⟩

theorem seamless_notMem : Seamless fun s => 13 ∉ s where
  plain h _ := h
  append hs ht := by simp [hs, ht]
  front h hm := h (by simp [hm])
  behind _ h hm := h (by simp [hm])

namespace Seamless

variable {P : Text → Prop}

/-! ### Imports -/

theorem name (hP : Seamless P) {name : Text} (hn : Plan.isName name = true) : P name :=
  hP.plain (Plan.notMem_of_isName hn (by decide)) (Plan.notMem_of_isName hn (by decide))

theorem extendList (hP : Seamless P) {list name : Text} (hname : P name) (hlist : P list) :
    P (Declaration.extendList list name) := by
  obtain ⟨blanks, hl, -, he⟩ := Declaration.extendList_eq list name
  rw [hl] at hlist
  have hspace : P [32] := hP.plain (by decide) (by decide)
  have hcomma : P [','.toUInt8] := hP.plain (by decide) (by decide)
  have hbody := hP.front hlist
  -- the last byte that is not taken off is no carriage return
  have hblanks : P blanks := by
    rcases trimEnd_eq_nil_or_concat Declaration.isListBlank list with hnil | ⟨w, b, hw, hb⟩
    · rwa [hnil, List.nil_append] at hlist
    · rw [hw, List.append_assoc, List.singleton_append] at hlist
      refine hP.behind ?_ hlist
      rintro rfl
      cases hb
  rw [he]
  split
  · exact hP.append hspace (hP.append hname hspace)
  · split
    · exact hP.append hbody (hP.append hspace (hP.append hname (hP.append hcomma hblanks)))
    · exact hP.append hbody (hP.append hcomma (hP.append hspace (hP.append hname hblanks)))

theorem augment (hP : Seamless P) {i : Injector} (hname : P i.helper) {content : Text}
    {d : Declaration} (hd : d ∈ Declaration.declarations content) (hc : P content) :
    P (i.augment content d) := by
  cases hb : d.binds i.helper with
  | true => rwa [Injector.augment_of_binds hd hb]
  | false =>
    have htail : d.tail = '}'.toUInt8 :: d.tail.tail := rfl
    -- the file is cut behind the opening brace and behind the closing one
    have hcut : content = (content.take d.start ++ (Declaration.keyword ++ d.beforeList))
        ++ '{'.toUInt8 :: (d.list ++ '}'.toUInt8 :: (d.tail.tail ++ content.drop d.stop)) := by
      nth_rewrite 1 [Declaration.split_at_declaration hd]
      rw [Declaration.text, Declaration.head, htail]
      simp
    have haugment : i.augment content d
        = (content.take d.start ++ (Declaration.keyword ++ d.beforeList)) ++ (['{'.toUInt8]
          ++ (Declaration.extendList d.list i.helper
            ++ (['}'.toUInt8] ++ (d.tail.tail ++ content.drop d.stop)))) := by
      rw [Injector.augment, Declaration.withSymbol_of_not_binds hb]
      simp [Declaration.text, Declaration.head, Declaration.tail]
    rw [hcut] at hc
    have hlist := hP.behind (by decide) hc
    have hopen : P ['{'.toUInt8] := hP.plain (by decide) (by decide)
    have hclose : P ['}'.toUInt8] := hP.plain (by decide) (by decide)
    rw [haugment]
    exact hP.append (hP.front hc) (hP.append hopen
      (hP.append (hP.extendList hname (hP.front hlist))
        (hP.append hclose (hP.behind (by decide) hlist))))

/-! ### New statements -/

theorem statement (hP : Seamless P) {name path : Text} (hname : P name) (hpath : P path) :
    P (Declaration.statement name path) := by
  have hopen : P (lit "import \x7b ") := hP.plain (by decide) (by decide)
  have hfrom : P (lit " \x7d from '") := hP.plain (by decide) (by decide)
  have hend : P (lit "';") := hP.plain (by decide) (by decide)
  exact hP.append (hP.append (hP.append (hP.append hopen hname) hfrom) hpath) hend

theorem insert (hP : Seamless P) {content statement : Text} (hs : P statement)
    (heol : P (Placement.lineEnding content)) (hc : P content) :
    P (Placement.insert content statement) := by
  rcases Placement.insert_cases content statement with ⟨rest, hcut, -, hins⟩ | hins
  · have hfront : P (Placement.front content) := hP.front (hcut ▸ hc)
    have hrest : P rest := by
      rcases Placement.front_eq content with hnil | ⟨w, hw⟩
      · rw [hnil, List.nil_append] at hcut
        rwa [← hcut]
      · obtain ⟨c, he, -⟩ := lineEnd_lineEnding content
        rw [hcut, hw, he, ← List.append_assoc, List.append_assoc, List.singleton_append] at hc
        exact hP.behind (by decide) hc
    rw [hins]
    exact hP.append hfront (hP.append hs (hP.append heol hrest))
  · rw [hins]
    exact hP.append hc (hP.append heol hs)

theorem ensure (hP : Seamless P) {i : Injector} (hname : P i.helper) {content file : Text}
    (hpath : P (i.paths.resolve file)) (heol : P (Placement.lineEnding content))
    (hc : P content) : P (i.ensure content file).content := by
  rw [Injector.ensure]
  split
  · exact hc
  · split
    · exact hc
    · split
      · rename_i d hd
        exact hP.augment hname (List.mem_of_find?_eq_some hd) hc
      · exact hP.insert (hP.statement hname hpath) heol hc

/-! ### Call sites -/

/-- What is found may be replaced if it ends with another byte than a carriage return. -/
theorem replace (hP : Seamless P) {α : Type} {find : Text → Option (α × Nat)} {write : α → Text}
    (hpos : Positive find) (hfind : ∀ s a n, find s = some (a, n) → P (write a) ∧
      ∃ w b, s = w ++ b :: s.drop n ∧ b ≠ 13) {s : Text} :
    ∀ g, P (g ++ s) → P (g ++ Text.replace find write s) := by
  -- a text cannot be cut behind each byte that the walk passes, so what was passed stays in front
  induction s using walk_induction hpos with
  | nil => intro g h; rwa [replace_nil]
  | gap b t hf ih =>
    intro g h
    rw [replace_cons_of_none hf, ← List.singleton_append, ← List.append_assoc]
    exact ih (g ++ [b]) (by simpa using h)
  | hit s a n hs hf ih =>
    intro g h
    obtain ⟨hwrite, w, b, hw, hb⟩ := hfind s a n hf
    have hrest : P (s.drop n) := by
      rw [hw, ← List.append_assoc] at h
      exact hP.behind hb h
    rw [replace_of_some hpos hs hf]
    exact hP.append (hP.front h) (hP.append hwrite (ih [] hrest))

theorem call (hP : Seamless P) {r : Substitution} (hname : P r.helper) {e : DateExpression}
    (he : CallSite.WellFormed e) : P (r.call e.text) := by
  have hexpr : ∀ {b : UInt8}, Substitution.isCallByte b = false → b ∉ e.text := by
    intro b hb hm
    rw [Substitution.isCallByte_of_wellFormed he b hm] at hb
    cases hb
  have hopen : P ['('.toUInt8] := hP.plain (by decide) (by decide)
  have hclose : P [')'.toUInt8] := hP.plain (by decide) (by decide)
  have htext : P e.text := hP.plain (hexpr (by decide)) (hexpr (by decide))
  exact hP.append (hP.append hname (hP.append hopen htext)) hclose

theorem substitute (hP : Seamless P) {r : Substitution} (hname : P r.helper) {content : Text}
    (hc : P content) : P (r.substitute content) := by
  refine hP.replace (CallSite.positive_recognise r.locale) (fun s e n hf => ?_) [] hc
  obtain ⟨m, t, rfl, rfl, hm⟩ := CallSite.spells_of_recognise hf
  obtain ⟨w, rfl⟩ := List.getLast?_eq_some_iff.mp (Substitution.spells_last hm)
  refine ⟨hP.call hname (Substitution.wellFormed_of_recognise hf), w, ')'.toUInt8, ?_, by decide⟩
  rw [List.drop_left, List.append_assoc, List.singleton_append]

/-- **A migration keeps every seamless property** that the line ending of the file has. -/
theorem migrated (hP : Seamless P) {m : Migration} {p : Plan} {root : Text} (hm : m.IsFor p root)
    (hpaths : ∀ path ∈ (p.helper.getD {}).paths.targets, 13 ∉ path ∧ 10 ∉ path)
    {file content : Text} (heol : P (Placement.lineEnding content)) (hc : P content) :
    P (m.migrated file content).content := by
  have hname := hP.name hm.isName_helper
  have hmem : m.injector.paths.resolve file ∈ (p.helper.getD {}).paths.targets := by
    rw [← hm.helper]
    exact PathTable.resolve_mem_targets _ file
  obtain ⟨hcr, hlf⟩ := hpaths _ hmem
  refine hP.substitute ?_ (hP.ensure ?_ (hP.plain hcr hlf) heol hc)
  · rwa [hm.substitution_helper]
  · rwa [hm.injector_helper]

end Seamless

/-! ### The line ending of a file -/

theorem lineEnding_of_even {content : Text} (hlf : 10 ∈ content) (h : Even [13, 10] content) :
    Placement.lineEnding content = [13, 10] := by
  obtain ⟨u, v, rfl⟩ := List.append_of_mem hlf
  have hpre : u ++ [10] <+: u ++ 10 :: v := ⟨v, by simp⟩
  rw [lineEnding_eq, if_pos ((h u v rfl).isInfix.trans hpre.isInfix)]

theorem lineEnding_of_notMem {content : Text} (h : 13 ∉ content) :
    Placement.lineEnding content = [10] := by
  rw [lineEnding_eq, if_neg fun hin => h (hin.subset (by simp))]

/-- Where every line feed of `content` follows a carriage return, and there is one, every line
feed of `produced` does.  Where `content` has no carriage return, `produced` has none. -/
def KeepsLineEndings (content produced : Text) : Prop :=
  (10 ∈ content → Even [13, 10] content → Even [13, 10] produced) ∧
    (13 ∉ content → 13 ∉ produced)

namespace Migration

/-- **A migration keeps the line endings of a file**, if no import path of its plan has a line
feed or a carriage return in it. -/
theorem migration_keeps_line_endings {p : Plan} {root : Text} {dry : Bool} {c : Console}
    {sabotage : Sabotage} {scope : Scope} {m : Migration}
    (hm : new (some p) root dry (some c) sabotage scope = .ok m)
    (hpaths : ∀ path ∈ (p.helper.getD {}).paths.targets, 13 ∉ path ∧ 10 ∉ path) :
    (∀ file content, KeepsLineEndings content (m.migrated file content).content) ∧
    ∀ t path l content, m.store.Names t path l content →
      ∃ produced, m.store.Names (m.process t path).tree path l produced ∧
        KeepsLineEndings content produced := by
  obtain ⟨hfor, -, -⟩ := isFor_of_new hm
  have hkeeps : ∀ file content, KeepsLineEndings content (m.migrated file content).content := by
    intro file content
    constructor
    · intro hlf heven
      refine seamless_even.migrated hfor hpaths ?_ heven
      rw [← lineEnding_of_even hlf heven]
      exact (lineEnd_lineEnding content).even
    · intro hcr
      refine seamless_notMem.migrated hfor hpaths ?_ hcr
      rw [lineEnding_of_notMem hcr]
      decide
  refine ⟨hkeeps, fun t path l content hn => ?_⟩
  obtain ⟨produced, hn', rfl | rfl⟩ := names_process hn
  · exact ⟨produced, hn', fun _ h => h, id⟩
  · exact ⟨_, hn', hkeeps path content⟩

/-- The helper joins a list over several lines in a file with CRLF. -/
theorem migration_keeps_crlf :
    let m := sample [lit "a"] false {}
    let content := lit "import \x7b\r\n  x,\r\n\x7d from './dates'\r\n"
      ++ lit "new Date(d).toLocaleDateString('pt-BR')\r\n"
    let produced := lit "import \x7b\r\n  x, show,\r\n\x7d from './dates'\r\nshow(d)\r\n"
    let t : FileTree := { entries := [([lit "a"], .file content)] }
    new (some (.sample [lit "a"])) [] false (some {}) {} {} = .ok m ∧
      (m.migrated (lit "a") content).content = produced ∧ 10 ∈ content ∧
      Even [13, 10] content ∧ Even [13, 10] produced ∧
      ∃ found, m.store.Names (m.process t (lit "a")).tree (lit "a") [lit "a"] found ∧
        Even [13, 10] found := by
  intro m content produced t
  have hm : new (some (.sample [lit "a"])) [] false (some {}) {} {} = .ok m := rfl
  have hpaths : ∀ path ∈ ((Plan.sample [lit "a"]).helper.getD {}).paths.targets,
      13 ∉ path ∧ 10 ∉ path := by decide
  have hproduced : (m.migrated (lit "a") content).content = produced := by decide +kernel
  have hlf : 10 ∈ content := by decide +kernel
  have heven : Even [13, 10] content := by decide +kernel
  have hn : m.store.Names t (lit "a") [lit "a"] content := ⟨by decide +kernel, by decide +kernel⟩
  obtain ⟨hkeeps, hprocess⟩ := migration_keeps_line_endings hm hpaths
  obtain ⟨found, hn', hfound⟩ := hprocess t (lit "a") _ content hn
  exact ⟨hm, hproduced, hlf, heven, hproduced ▸ (hkeeps (lit "a") content).1 hlf heven, found, hn',
    hfound.1 hlf heven⟩

end Migration

end DateDisplay
