import DateDisplay.Migration
import DateDisplay.Report.Summary

/-!
# Runs

A run processes the files of a plan one after the other and sums up at the end.  It stops at the first
file that cannot be processed, and it can be cancelled between two files.  What was done before stays
done, and the summary tells of it.

The console's records start afresh with every run whose file list can be expanded.
-/

namespace DateDisplay

open Text

/-- The sum of the outcomes of a run. -/
structure RunSummary where
  files : List FileResult := []
  /-- the number of files with call sites -/
  modified : Nat := 0
  replacements : Int := 0
  bytesWritten : Int := 0
  deriving Repr, DecidableEq

/-- The summary with one more outcome. -/
def RunSummary.add (s : RunSummary) (r : FileResult) : RunSummary :=
  let files := s.files ++ [r]
  if r.status.hasSites then
    ⟨files, s.modified + 1, addCounts s.replacements r.replacements,
      addCounts s.bytesWritten r.bytes⟩
  else { s with files }

/-- Why a run stops. -/
inductive RunFault where
  | expansion (f : ExpansionFault)
  | cancelled
  | processing (path : Text) (f : ProcessFault)
  deriving Repr, DecidableEq

/-- The fault in words. -/
def RunFault.message : RunFault → Text
  | .expansion f => lit "expanding files: " ++ f.message
  | .cancelled => lit "run cancelled: context canceled"
  | .processing p f => lit "processing file " ++ p ++ lit ": " ++ f.message

/-- How far a run has come. -/
structure Progress where
  tree : FileTree
  told : Told := {}
  /-- the records of the files so far -/
  records : List FileRecord := []
  summary : RunSummary := {}

/-- Progress after one more file. -/
def Progress.after (s : Progress) (p : Processed) : Progress :=
  let told := s.told ++ p.told
  let records := s.records ++ p.told.records
  match p.outcome with
  | .ok r => ⟨p.tree, told, records, s.summary.add r⟩
  | .error _ => { s with tree := p.tree, told, records }

/-- What comes of a run. -/
structure RunOutcome where
  tree : FileTree
  told : Told
  /-- the console's records after the run -/
  records : List FileRecord
  /-- nothing if the file list could not be expanded -/
  summary : Option RunSummary
  fault : Option RunFault

namespace Migration

/-- The run is cancelled before file number `k`, where `stop` is the number of the first file that is
not processed. -/
def isStopped (stop : Option Nat) (k : Nat) : Bool :=
  match stop with
  | some n => n ≤ k
  | none => false

/-- Processes the files from number `k` on, up to the first fault. -/
def runFrom (m : Migration) (stop : Option Nat) :
    (k : Nat) → List Text → Progress → Progress × Option RunFault
  | _, [], s => (s, none)
  | k, path :: rest, s =>
    if isStopped stop k then (s, some .cancelled)
    else
      let p := m.process s.tree path
      let s := s.after p
      match p.outcome with
      | .ok _ => runFrom m stop (k + 1) rest s
      | .error f => (s, some (.processing path f))

/-- What is told before the first file. -/
def opening (m : Migration) (files : List Text) : Told :=
  m.console.header (lit (if m.dry then "checking date displays" else "fixing date displays"))
    ++ m.noted [⟨.debug, [("plan", .text m.plan.describe), ("files", .number files.length),
      ("dry_run", .flag m.dry)], lit "starting run"⟩]

/-- A run on a tree.  `records` are those of the console before the run, and `stop` is the number of
the first file that is not processed because the run is cancelled. -/
def run (m : Migration) (t : FileTree) (records : List FileRecord) (stop : Option Nat) :
    RunOutcome :=
  let (events, expanded) := m.plan.expand t m.root
  match expanded with
  | .error f => ⟨t, m.noted events, records, none, some (.expansion f)⟩
  | .ok files =>
    let (s, fault) := m.runFrom stop 0 files { tree := t, told := m.noted events ++ m.opening files }
    match fault with
    | some f => ⟨s.tree, s.told, s.records, some s.summary, some f⟩
    | none =>
      ⟨s.tree, s.told ++ Summary.tell m.console s.records m.dry, s.records, some s.summary, none⟩

end Migration

end DateDisplay
