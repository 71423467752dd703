import DateDisplay.CommandLine.Execute
import DateDisplay.Journal.Line

/-!
# The program

The program reads the files below the working folder, carries out its command line on them as if
there were no others, and writes back those that have changed.  What is told goes to the standard
output, the journal to the standard error.
-/

open DateDisplay

/-- Bytes as a text. -/
def textOfBytes (b : ByteArray) : Text := b.data.toList

/-- A text as bytes. -/
def bytesOfText (t : Text) : ByteArray := ⟨t.toArray⟩

/-- Adds what is at an entry of a folder to a tree.  Links are not followed. -/
partial def addEntry (t : FileTree) (folder : Location) (e : IO.FS.DirEntry) : IO FileTree := do
  let place := folder ++ [Text.lit e.fileName]
  match (← e.path.symlinkMetadata).type with
  | .dir => (← e.path.readDir).foldlM (addEntry · place) (t.addFolder place)
  | .file => return t.addFile place (textOfBytes (← IO.FS.readBinFile e.path))
  | _ => return t

/-- The tree of the working folder. -/
def readTree : IO FileTree := do
  let folder ← IO.currentDir
  let here := FileTree.namesIn (Text.lit folder.toString)
  (← folder.readDir).foldlM (addEntry · here) (({ here } : FileTree).addFolder here)

/-- Writes the files in which two trees differ. -/
def writeChanges (before after : FileTree) : IO Unit := do
  for (place, entry) in after.entries do
    match entry with
    | .folder => pure ()
    | .file content =>
      if before.get? place != some entry then
        let path := Path.slash :: Text.join [Path.slash] place
        match String.fromUTF8? (bytesOfText path) with
        | some name => IO.FS.writeBinFile name (bytesOfText content)
        | none => pure ()

/-- Carries out the command line. -/
def main (args : List String) : IO UInt32 := do
  let before ← readTree
  let info : BuildInfo := { version := Text.lit "dev" }
  let r := CommandLine.program {} info before (args.map Text.lit)
  writeChanges before r.tree
  let err ← IO.getStderr
  err.write (bytesOfText r.aside)
  for e in r.told.events do
    err.write (bytesOfText e.line)
  let out ← IO.getStdout
  out.write (bytesOfText r.told.shown)
  out.flush
  return if r.fault.isSome then 1 else 0
