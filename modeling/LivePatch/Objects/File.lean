import LivePatch.Coff.Editor
import LivePatch.Files.Tree
import LivePatch.Objects.Library
import LivePatch.Objects.Table

/-!
# Object files on disk

Reading object files and static libraries, and editing object files in place: each is backed up
next to itself first, and putting the backup back into place undoes whatever was written.
-/

namespace LivePatch

namespace ObjectTable

/-- The tables of an object file. -/
def load (files : FileTree) (path : Path) : Outcome ObjectTable := do
  let data ← files.contents path
  inContext (.parsingObject path) (parse path data)

end ObjectTable

namespace Library

/-- The weak symbols of the static library in a file. -/
def weakSymbolsOf (files : FileTree) (path : Path) : Outcome (List String) := do
  weakSymbols (← files.contents path)

end Library

namespace Coff.Editor

/-- The object file in a file, for editing. -/
def load (files : FileTree) (path : Path) (strategy : RemovalStrategy) : Outcome Editor := do
  let data ← inContext (.reading path) (orFail .system (files.read? path))
  inContext (.parsing path) (parse data strategy)

/-- Writes the edited file. -/
def save (e : Editor) (path : Path) : FilesM Unit :=
  inContext (.writing path) (Files.write path e.data)

end Coff.Editor

namespace Backup

/-- Where the backup of an object file lies. -/
def pathOf (object : Path) : Path := object.append ".bak"

/-- Copies an object file next to itself before it is edited. -/
def make (object : Path) : FilesM Path := do
  inContext (.backingUp object) (Files.change fun t ↦ t.copy? object (pathOf object))
  pure (pathOf object)

/-- Moves the backup of an object file back into place. -/
def restore (object : Path) : FilesM Unit :=
  inContext (.restoring object) (Files.change fun t ↦ t.rename? (pathOf object) object)

end Backup
end LivePatch
