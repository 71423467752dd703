import DateDisplay.Report.ByteSize
import DateDisplay.Report.Console
import DateDisplay.Report.Table

/-!
# The summary of a run

At the end of a run the records are added up.  The files with call sites are listed in a table, and
the closing lines give the totals.
-/

namespace DateDisplay

open Text

/-- The totals of a run. -/
structure Totals where
  files : Nat
  modified : Nat
  missing : Nat
  replacements : Int
  bytes : Int
  deriving Repr, DecidableEq

namespace Totals

/-- The records of files with call sites. -/
def listed (rs : List FileRecord) : List FileRecord := rs.filter (·.status.hasSites)

/-- The totals of the records. -/
def ofRecords (rs : List FileRecord) : Totals where
  files := rs.length
  modified := (listed rs).length
  missing := (rs.filter (·.status == .missing)).length
  replacements := (listed rs).foldl (fun sum r => addCounts sum r.replacements) 0
  bytes := (listed rs).foldl (fun sum r => addCounts sum r.bytes) 0

end Totals

namespace Summary

/-- The row of a record. -/
def row (r : FileRecord) : List Text :=
  [r.path, decimalInt r.replacements, r.importShown, ByteSize.display r.bytes]

/-- The heading of the table. -/
def heading : List Text := [lit "File", lit "Replacements", lit "Import", lit "Written"]

/-- The table of the files with call sites, if there are any. -/
def table (rs : List FileRecord) : Told where
  shown :=
    let rows := (Totals.listed rs).map row
    if rows.isEmpty then [] else [10] ++ Table.render (heading :: rows) ++ [10, 10]

/-- The event that closes a run. -/
def closing (t : Totals) (dry : Bool) : Told where
  events := [⟨.info, [("files", .number t.files), ("modified", .number t.modified),
    ("replacements", .number t.replacements), ("bytes", .number t.bytes), ("dry_run", .flag dry)],
    lit "run complete"⟩]

/-- The warning about files that are not there, if there are any. -/
def absences (c : Console) (t : Totals) : Told :=
  if t.missing == 0 then {}
  else c.warning (format (lit "%d file(s) not found") [.number t.missing])

/-- The last line. -/
def verdict (c : Console) (t : Totals) (dry : Bool) : Told :=
  if dry then
    c.info (format (lit "Dry run: %d file(s) would be fixed (%d date display(s))")
      [.number t.modified, .number t.replacements])
  else c.success (format (lit "Complete! Fixed %d files") [.number t.modified])

/-- All that is told at the end of a run. -/
def tell (c : Console) (rs : List FileRecord) (dry : Bool) : Told :=
  let t := Totals.ofRecords rs
  table rs ++ closing t dry ++ absences c t ++ verdict c t dry

end Summary

end DateDisplay
