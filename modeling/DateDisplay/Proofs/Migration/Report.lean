import DateDisplay.Proofs.Migration.Run
import DateDisplay.Proofs.Migration.Setup
import DateDisplay.Proofs.Table

/-!
# What a run reports

A run counts twice.  It sums up its results as it goes, and the console keeps the
records that it is told of and recounts them at the end.  The two are kept apart:
a result comes back from the processing of a file, and a record is made on the way.

`closingReport` is the report of a run written out from its results alone, the
totals, the table, the lines and the events of the journal.  `tell_records` says
that the console's recount of the records of some results gives that report, and
`run_reports_its_results` that this is what a run reports, however it ends and
whatever was recorded before it.
-/

namespace DateDisplay

open Text

/-! ### The report, from the results -/

/-- The row of a result in the table. -/
def FileResult.row (r : FileResult) : List Text :=
  [r.path, decimal r.replacements,
    if r.importAction.isChange then lit r.importAction.name else lit "-",
    ByteSize.display r.bytes]

/-- A line with a symbol before it, in the colour with the given code if the console
has colours. -/
def Console.lineOf (c : Console) (symbol code : String) (t : Text) : Text :=
  lit symbol ++ (if c.colored then lit "\x1b[" ++ lit code ++ lit "m" ++ t ++ lit "\x1b[0m" else t)
    ++ lit "\n"

/-- The report that closes a run with the results `rs`: the table of the files with
call sites, the warning about missing files and the last line, and an event for each
but the table. -/
def closingReport (c : Console) (rs : List FileResult) (dry : Bool) : Told :=
  let listed := rs.filter fun r => r.status == .modified || r.status == .pending
  let replacements := RunSummary.signedWord (RunSummary.sumOver (·.replacements) listed)
  let bytes := RunSummary.signedWord (RunSummary.sumOver (·.bytes) listed)
  let missing := (rs.filter (·.status == .missing)).length
  let absent := decimal missing ++ lit " file(s) not found"
  let verdict :=
    if dry then
      lit "Dry run: " ++ decimal listed.length ++ lit " file(s) would be fixed ("
        ++ decimalInt replacements ++ lit " date display(s))"
    else lit "Complete! Fixed " ++ decimal listed.length ++ lit " files"
  { shown :=
      (if listed = [] then []
        else lit "\n" ++ Table.layOut ([lit "File", lit "Replacements", lit "Import", lit "Written"]
          :: listed.map FileResult.row) ++ lit "\n\n")
        ++ (if missing = 0 then [] else c.lineOf "⚠️  " "33" absent)
        ++ (if dry then c.lineOf "ℹ️  " "36" verdict else c.lineOf "✅ " "32" verdict)
    events :=
      [⟨.info, [("files", .number rs.length), ("modified", .number listed.length),
        ("replacements", .number replacements), ("bytes", .number bytes), ("dry_run", .flag dry)],
        lit "run complete"⟩]
        ++ (if missing = 0 then [] else [⟨.warn, [], absent⟩])
        ++ [⟨.info, [], verdict⟩] }

/-! ### Counting records -/

theorem listed_records (rs : List FileResult) :
    Totals.listed (rs.map FileResult.record)
      = (rs.filter fun r => r.status == .modified || r.status == .pending).map
        FileResult.record := by
  rw [Totals.listed, List.filter_map]
  congr 2
  funext r
  show r.status.hasSites = _
  cases r.status <;> rfl

theorem foldl_records (count : FileRecord → Int) (n : FileResult → Nat)
    (h : ∀ r : FileResult, count r.record = n r) : ∀ (rs : List FileResult) (start : Int),
      (rs.map FileResult.record).foldl (fun sum r => addCounts sum (count r))
          (RunSummary.signedWord start)
        = RunSummary.signedWord (start + RunSummary.sumOver n rs) := by
  intro rs
  induction rs with
  | nil => intro start; simp [RunSummary.sumOver]
  | cons r rs ih =>
    intro start
    rw [List.map_cons, List.foldl_cons, h, RunSummary.addCounts_signedWord, ih,
      RunSummary.sumOver, Int.natCast_add, Int.add_assoc]

theorem missing_records (rs : List FileResult) :
    ((rs.map FileResult.record).filter (·.status == .missing)).length
      = (rs.filter (·.status == .missing)).length := by
  rw [List.filter_map, List.length_map]
  rfl

theorem ofRecords_records (rs : List FileResult) {listed : List FileResult}
    (hl : listed = rs.filter fun r => r.status == .modified || r.status == .pending) :
    Totals.ofRecords (rs.map FileResult.record) = {
      files := rs.length
      modified := listed.length
      missing := (rs.filter (·.status == .missing)).length
      replacements := RunSummary.signedWord (RunSummary.sumOver (·.replacements) listed)
      bytes := RunSummary.signedWord (RunSummary.sumOver (·.bytes) listed) } := by
  have hsum := fun (count : FileRecord → Int) (n : FileResult → Nat)
    (h : ∀ r : FileResult, count r.record = n r) => (foldl_records count n h listed 0)
  simp only [Int.zero_add, show RunSummary.signedWord 0 = 0 from rfl] at hsum
  rw [Totals.ofRecords, listed_records, missing_records, ← hl,
    hsum (·.replacements) (·.replacements) fun _ => rfl, hsum (·.bytes) (·.bytes) fun _ => rfl,
    List.length_map, List.length_map]

/-! ### Telling what was counted -/

theorem importShown_record (r : FileResult) : r.record.importShown
    = if r.importAction.isChange then lit r.importAction.name else lit "-" := by
  rw [FileRecord.importShown, FileResult.record]
  cases r.importAction <;> rfl

theorem row_record (r : FileResult) : Summary.row r.record = r.row := by
  rw [Summary.row, FileResult.row, importShown_record]
  rfl

theorem table_records (rs : List FileResult) {listed : List FileResult}
    (hl : listed = rs.filter fun r => r.status == .modified || r.status == .pending) :
    Summary.table (rs.map FileResult.record) = {
      shown := if listed = [] then []
        else lit "\n" ++ Table.layOut ([lit "File", lit "Replacements", lit "Import", lit "Written"]
          :: listed.map FileResult.row) ++ lit "\n\n" } := by
  have hrows : (Totals.listed (rs.map FileResult.record)).map Summary.row
      = listed.map FileResult.row := by
    rw [listed_records, ← hl, List.map_map]
    exact List.map_congr_left fun r _ => row_record r
  simp only [Summary.table, hrows, List.isEmpty_iff, List.map_eq_nil_iff, Table.render_eq]
  rfl

theorem absences_eq (c : Console) (t : Totals) :
    Summary.absences c t = {
      shown := if t.missing = 0 then []
        else c.lineOf "⚠️  " "33" (decimal t.missing ++ lit " file(s) not found")
      events := if t.missing = 0 then []
        else [⟨.warn, [], decimal t.missing ++ lit " file(s) not found"⟩] } := by
  have hwords : format (lit "%d file(s) not found") [.number t.missing]
      = decimal t.missing ++ lit " file(s) not found" := by
    rw [show lit "%d file(s) not found" = lit "%d" ++ lit " file(s) not found" from rfl,
      format_number, format_of_notMem (by decide)]
    rfl
  rw [Summary.absences, hwords]
  by_cases h : t.missing = 0
  · simp [h]
  · simp only [h, beq_iff_eq, if_false]
    rfl

theorem verdict_eq (c : Console) (t : Totals) (dry : Bool) :
    Summary.verdict c t dry =
      let words :=
        if dry then
          lit "Dry run: " ++ decimal t.modified ++ lit " file(s) would be fixed ("
            ++ decimalInt t.replacements ++ lit " date display(s))"
        else lit "Complete! Fixed " ++ decimal t.modified ++ lit " files"
      { shown := if dry then c.lineOf "ℹ️  " "36" words else c.lineOf "✅ " "32" words
        events := [⟨.info, [], words⟩] } := by
  cases dry with
  | true =>
    have hwords : format (lit "Dry run: %d file(s) would be fixed (%d date display(s))")
        [.number t.modified, .number t.replacements]
        = lit "Dry run: " ++ decimal t.modified ++ lit " file(s) would be fixed ("
          ++ decimalInt t.replacements ++ lit " date display(s))" := by
      rw [show lit "Dry run: %d file(s) would be fixed (%d date display(s))"
          = lit "Dry run: " ++ (lit "%d" ++ (lit " file(s) would be fixed ("
            ++ (lit "%d" ++ lit " date display(s))"))) from rfl,
        format_append (by decide), format_number, format_append (by decide), format_number,
        format_of_notMem (by decide)]
      simp only [List.append_assoc]
      rfl
    rw [Summary.verdict, hwords]
    rfl
  | false =>
    have hwords : format (lit "Complete! Fixed %d files") [.number t.modified]
        = lit "Complete! Fixed " ++ decimal t.modified ++ lit " files" := by
      rw [show lit "Complete! Fixed %d files" = lit "Complete! Fixed " ++ (lit "%d" ++ lit " files")
          from rfl,
        format_append (by decide), format_number, format_of_notMem (by decide)]
      simp only [List.append_assoc]
      rfl
    rw [Summary.verdict, hwords]
    rfl

/-- **The recount of the records is the report of the results.** -/
theorem tell_records (c : Console) (rs : List FileResult) (dry : Bool) :
    Summary.tell c (rs.map FileResult.record) dry = closingReport c rs dry := by
  rw [Summary.tell, ofRecords_records rs rfl, table_records rs rfl, absences_eq, verdict_eq]
  apply Told.ext
  · simp only [Told.shown_append, Summary.closing, closingReport, List.append_nil]
  · simp only [Told.events_append, Summary.closing, closingReport, List.nil_append]
  · rfl

/-! ### Whole runs -/

namespace Migration

theorem expand_of_summary {m : Migration} {t : FileTree} {records : List FileRecord}
    {stop : Option Nat} {summary : RunSummary} (h : (m.run t records stop).summary = some summary) :
    ∃ files, (m.plan.expand t m.root).2 = .ok files := by
  cases he : (m.plan.expand t m.root).2 with
  | ok files => exact ⟨files, rfl⟩
  | error f =>
    obtain ⟨-, -, hnone, -⟩ := run_of_expand_error he records stop
    rw [h] at hnone
    cases hnone

theorem told_of_finished {m : Migration} {t : FileTree} {records : List FileRecord}
    {stop : Option Nat} {files : List Text} (he : (m.plan.expand t m.root).2 = .ok files)
    (hf : (m.run t records stop).fault = none) : ∃ before, (m.run t records stop).told
      = before ++ Summary.tell m.console (m.run t records stop).records m.dry := by
  simp only [run, he] at hf ⊢
  split at hf
  · cases hf
  · exact ⟨_, rfl⟩

/-- **A run records and reports its results.**  The console's records are those of
the results, whatever was recorded before, and the report of a run that is not
stopped is computed from the results. -/
theorem run_reports_its_results (m : Migration) (t : FileTree) (records : List FileRecord)
    (stop : Option Nat) {summary : RunSummary}
    (h : (m.run t records stop).summary = some summary) :
    (m.run t records stop).records = summary.files.map (fun r => {
      path := r.path
      status := r.status
      replacements := r.replacements
      importAction := if r.importAction.isChange then lit r.importAction.name else []
      bytes := r.bytes }) ∧
    summary = .total summary.files ∧
    ((m.run t records stop).fault = none → ∃ before, (m.run t records stop).told
      = before ++ closingReport m.console summary.files m.dry) := by
  obtain ⟨files, he⟩ := expand_of_summary h
  obtain ⟨done, rest, rs, -, -, hrec, hsum⟩ := run_course he records stop
  obtain rfl : summary = .total rs := Option.some.inj (h.symm.trans hsum)
  refine ⟨hrec, rfl, fun hf => ?_⟩
  obtain ⟨before, hb⟩ := told_of_finished he hf
  rw [hrec, tell_records] at hb
  exact ⟨before, hb⟩

/-- Two files with call sites, one without and one that is missing, on a console that
holds a record already.  The run writes the two; a dry run on a console with colours
would, and writes nothing. -/
theorem run_reports_sample :
    let t : FileTree := { entries := [
      ([lit "a"], .file (lit "new Date(d).toLocaleDateString('pt-BR') +\n"
        ++ lit "new Date(e.f).toLocaleDateString('pt-BR')")),
      ([lit "b"], .file (lit "no dates")),
      ([lit "day"], .file (lit "new Date(d).toLocaleDateString('pt-BR')"))] }
    let m := sample [lit "a", lit "b", lit "c", lit "day"] false {}
    let dry := { sample [lit "a", lit "b", lit "c", lit "day"] true {} with console := ⟨true⟩ }
    let old : FileRecord := ⟨lit "old", .modified, 7, [], 3⟩
    let report : Told := {
      shown := lit "\n"
        ++ lit "File | Replacements | Import           | Written\n"
        ++ lit "a    | 2            | added new import | 51 B   \n"
        ++ lit "day  | 1            | added new import | 39 B   \n\n\n"
        ++ lit "⚠️  1 file(s) not found\n"
        ++ lit "✅ Complete! Fixed 2 files\n"
      events := [
        ⟨.info, [("files", .number 4), ("modified", .number 2), ("replacements", .number 3),
          ("bytes", .number 90), ("dry_run", .flag false)], lit "run complete"⟩,
        ⟨.warn, [], lit "1 file(s) not found"⟩, ⟨.info, [], lit "Complete! Fixed 2 files"⟩] }
    let forecast : Told := {
      shown := lit "\n"
        ++ lit "File | Replacements | Import           | Written\n"
        ++ lit "a    | 2            | added new import | 0 B    \n"
        ++ lit "day  | 1            | added new import | 0 B    \n\n\n"
        ++ lit "⚠️  \x1b[33m1 file(s) not found\x1b[0m\n"
        ++ lit "ℹ️  \x1b[36mDry run: 2 file(s) would be fixed (3 date display(s))\x1b[0m\n"
      events := [
        ⟨.info, [("files", .number 4), ("modified", .number 2), ("replacements", .number 3),
          ("bytes", .number 0), ("dry_run", .flag true)], lit "run complete"⟩,
        ⟨.warn, [], lit "1 file(s) not found"⟩,
        ⟨.info, [], lit "Dry run: 2 file(s) would be fixed (3 date display(s))"⟩] }
    (m.run t [old] none).records = [⟨lit "a", .modified, 2, lit "added new import", 51⟩,
      ⟨lit "b", .unchanged, 0, [], 0⟩, ⟨lit "c", .missing, 0, [], 0⟩,
      ⟨lit "day", .modified, 1, lit "added new import", 39⟩] ∧
    (m.run t [old] none).summary.map (fun s => (s.modified, s.replacements, s.bytesWritten))
      = some (2, 3, 90) ∧
    (∃ before, (m.run t [old] none).told = before ++ report) ∧
    ∃ before, (dry.run t [old] none).told = before ++ forecast := by
  intro t m dry old report forecast
  obtain ⟨hf, hrec, hsum, hreport⟩ : (m.run t [old] none).fault = none ∧
      (m.run t [old] none).records = [⟨lit "a", .modified, 2, lit "added new import", 51⟩,
        ⟨lit "b", .unchanged, 0, [], 0⟩, ⟨lit "c", .missing, 0, [], 0⟩,
        ⟨lit "day", .modified, 1, lit "added new import", 39⟩] ∧
      (m.run t [old] none).summary.map (fun s => (s.modified, s.replacements, s.bytesWritten))
        = some (2, 3, 90) ∧
      (m.run t [old] none).summary.map (closingReport m.console ·.files m.dry) = some report := by
    decide +kernel
  obtain ⟨hf', hforecast⟩ : (dry.run t [old] none).fault = none ∧
      (dry.run t [old] none).summary.map (closingReport dry.console ·.files dry.dry)
        = some forecast := by decide +kernel
  obtain ⟨summary, hs, hclosing⟩ := Option.map_eq_some_iff.mp hreport
  obtain ⟨summary', hs', hclosing'⟩ := Option.map_eq_some_iff.mp hforecast
  obtain ⟨-, -, htold⟩ := run_reports_its_results m t [old] none hs
  obtain ⟨-, -, htold'⟩ := run_reports_its_results dry t [old] none hs'
  refine ⟨hrec, hsum, ?_, ?_⟩
  · rw [← hclosing]
    exact htold hf
  · rw [← hclosing']
    exact htold' hf'

end Migration

end DateDisplay
