import DateDisplay.Text

/-!
# Version information
-/

namespace DateDisplay

open Text

/-- What is known about the build of the program. -/
structure BuildInfo where
  version : Text := []
  toolchain : Text := []
  platform : Text := []
  revision : Text := []
  time : Text := []
  /-- the sources differ from the revision -/
  modified : Bool := false
  deriving Repr, DecidableEq

namespace BuildInfo

/-- The information, one item a line. -/
def render (i : BuildInfo) : Text :=
  lit "🚀 datefix version info:\nVersion:   " ++ i.version
    ++ lit "\nRevision:  " ++ i.revision ++ (if i.modified then lit " (modified)" else [])
    ++ lit "\nBuilt:     " ++ i.time
    ++ lit "\nGo:        " ++ i.toolchain
    ++ lit "\nPlatform:  " ++ i.platform ++ [10]

end BuildInfo

end DateDisplay
