import LivePatch.Objects.Cache

/-!
# Workshop

Everything that building a patch works with: the files, the tables read from object files, and the
tools, which are run with one line of arguments and may change files.
-/

namespace LivePatch

/-- What a tool left behind. -/
structure ToolOutput where
  exitCode : Int
  text : String
  deriving DecidableEq, Repr

/-- Whether a tool succeeded: its exit code is the only sign. -/
def ToolOutput.isSuccess (o : ToolOutput) : Bool := o.exitCode == 0

/-- A run of a tool. -/
structure Invocation where
  tool : Path
  directory : Path
  arguments : String
  deriving DecidableEq, Repr

/-- What running a tool comes to, and the files afterwards. -/
abbrev Toolchain := Invocation → FileTree → Outcome ToolOutput × FileTree

/-- A run that was made, and the files it found. -/
structure Run where
  invocation : Invocation
  files : FileTree

/-- What building works with. -/
structure Workshop where
  files : FileTree
  objects : ObjectCache
  toolchain : Toolchain
  /-- The runs so far. -/
  runs : List Run

/-- Building, which keeps what it changed before it stopped short. -/
abbrev WorkshopM := ExceptT Stop (StateM Workshop)

namespace Workshop

/-- Works on the files. -/
def onFiles {α : Type} (act : FilesM α) : WorkshopM α :=
  ExceptT.mk fun w ↦
    let (result, files) := act.run w.files
    (result, { w with files := files })

/-- Works on the cached tables. -/
def onObjects {α : Type} (act : FileTree → ExceptT Stop (StateM ObjectCache) α) : WorkshopM α :=
  ExceptT.mk fun w ↦
    let (result, objects) := (act w.files).run w.objects
    (result, { w with objects := objects })

/-- The table of an object file. -/
def object (path : Path) : WorkshopM ObjectTable := do
  return (← onObjects fun files ↦ ObjectCache.load files path).table

/-- Reads an object file again. -/
def reload (path : Path) : WorkshopM Unit := do
  let _ ← onObjects fun files ↦ ObjectCache.reload files path

/-- Loads many object files and leaves out those that cannot be read. -/
def readableObjects (paths : List Path) : WorkshopM (List (Path × ObjectTable)) := do
  let loaded ← onObjects fun files ↦ ExceptT.lift (ObjectCache.loadAll files paths)
  loaded.filterMapM fun (path, result) ↦
    match result with
    | .ok cached => pure (some (path, cached.table))
    | .error (.error _) => pure none
    | .error .fault => throw .fault

/-- Runs a tool. -/
def run (i : Invocation) : WorkshopM ToolOutput := do
  let w ← get
  let (result, files) := w.toolchain i w.files
  set { w with files := files, runs := w.runs ++ [Run.mk i w.files] }
  result

/-- The directory to run a tool in: the recorded one if it is there, else the tool's own. -/
def directoryFor (files : FileTree) (recorded tool : Path) : Path :=
  if files.isDirectory recorded then recorded else tool.parent?.getD ⟨""⟩

end Workshop
end LivePatch
