import DateDisplay.Text.Format

/-!
# Records of files

A run leaves one record for every file that it looked at.  The counts in a record are words of
64 bits with a sign, and so are their sums.
-/

namespace DateDisplay

open Text

/-- The sum of two counts, as a word of 64 bits with a sign. -/
def addCounts (a b : Int) : Int := (a + b).bmod (Nat.pow 2 64)

/-- What became of a file. -/
inductive FileStatus where
  | unknown
  /-- the file is listed but not there -/
  | missing
  /-- the file has no call sites -/
  | unchanged
  /-- call sites were replaced and the file was written -/
  | modified
  /-- there are call sites, and the file was left alone -/
  | pending
  deriving Repr, DecidableEq

namespace FileStatus

/-- The status in a word. -/
def name : FileStatus → String
  | .unknown => "unknown"
  | .missing => "missing"
  | .unchanged => "unchanged"
  | .modified => "modified"
  | .pending => "pending"

/-- Call sites were found in the file. -/
def hasSites : FileStatus → Bool
  | .modified => true
  | .pending => true
  | _ => false

end FileStatus

/-- What is reported about a file. -/
structure FileRecord where
  path : Text
  status : FileStatus
  /-- the number of call sites replaced -/
  replacements : Int
  /-- what was done about the import, empty if nothing was -/
  importAction : Text
  /-- the number of bytes written -/
  bytes : Int
  deriving Repr, DecidableEq

namespace FileRecord

/-- What became of the file, in words. -/
def outcome (r : FileRecord) : Text :=
  match r.status with
  | .missing => lit "file not found"
  | .unchanged => lit "no changes needed"
  | .modified => format (lit "fixed %d date display(s)") [.number r.replacements]
  | .pending => format (lit "would fix %d date display(s)") [.number r.replacements]
  | .unknown => lit FileStatus.unknown.name

/-- What was done about the import, a dash if nothing was. -/
def importShown (r : FileRecord) : Text :=
  if r.importAction.isEmpty then lit "-" else r.importAction

end FileRecord

end DateDisplay
