import LivePatch.Tool.Programs

/-!
# Entry of the command-line program

The only part that touches the world: it reads the files that a command line names, runs the
program on them, writes back what changed and prints.
-/

namespace LivePatch

/-- Files that a command works on. -/
def Tool.Command.operands : Tool.Command → List Path
  | .inspect objects => objects
  | .strip object _ => [object]
  | .disableEntry image => [image]

/-- The tree with a file of the world in it, if it can be read. -/
def fetch (files : FileTree) (path : Path) : IO FileTree := do
  try
    let data ← IO.FS.readBinFile path.text
    let files := files.makeDirectories (path.parent?.getD ⟨""⟩)
    return (files.write? path data.data).getD files
  catch _ => return files

/-- Writes a file of the tree into the world if it is not what it was. -/
def release (before after : FileTree) (path : Path) : IO Unit := do
  match after.read? path with
  | some data =>
    if before.read? path != some data then IO.FS.writeBinFile path.text ⟨data⟩
  | none => return ()

/-- The command-line program. -/
def execute (words : List String) : IO UInt32 := do
  let operands := match Tool.parse words with
    | .ok c => c.command.operands
    | .error _ => []
  let home : Path := ⟨(← IO.currentDir).toString⟩
  let names := home.components.filterMap fun | .name n => some n | _ => none
  let files ← operands.foldlM fetch (FileTree.emptyAt names)
  let report := Tool.run words files
  for path in operands do
    release files report.files (Backup.pathOf path)
    release files report.files path
  IO.print report.output
  IO.eprint report.complaint
  return report.status

end LivePatch

def main (words : List String) : IO UInt32 := LivePatch.execute words
