import LivePatch.Build.Settings
import LivePatch.Build.Strip
import LivePatch.Tables.Compilands

/-!
# Building the file of a patch

The object files of a patch are stripped, linked into an image under a new name, and put back. The
image must not be moved by the loader behind the engine's back, and it must not include libraries
that the module has already.
-/

namespace LivePatch

/-- Options that every patch is linked with. -/
def linkerOptions : List String :=
  ["/MACHINE:X64", "/NOLOGO", "/INCREMENTAL:NO", "/MANIFEST:NO", "/DEBUG", "/FUNCTIONPADMIN",
    "/FIXED:NO", "/DYNAMICBASE:NO", "/NODEFAULTLIB", "/OPT:REF", "/OPT:NOICF", "/DLL"]

/-- The files that linking a patch writes. -/
structure PatchFiles where
  image : Path
  database : Path
  deriving DecidableEq, Repr

namespace PatchFiles

/-- The n-th files of a module's patches. -/
def ofNumber (module : Path) (n : Nat) : PatchFiles :=
  let image := module.withFileName (module.stem?.getD "" ++ ".patch_" ++ Text.decimal n ++ ".dll")
  ⟨image, image.withExtension "pdb"⟩

/-- Makes room for a file. Answers whether there is room now: files are removed, directories
are not. -/
def makeRoom (path : Path) : StateM FileTree Bool := do
  let files ← get
  if !files.contains path then pure true
  else match files.remove? path with
    | some files => do
      set files
      pure true
    | none => pure false

/-- Makes room for both files. -/
def makeRoomForBoth (p : PatchFiles) : StateM FileTree Bool := do
  if ← makeRoom p.image then makeRoom p.database else pure false

/-- The first files from the n-th on that there is room for, and the number behind theirs. What
takes their room is there already, so `fuel` bounds the number of attempts. -/
def nextFrom (module : Path) : Nat → Nat → StateM FileTree (PatchFiles × Nat)
  | 0, n => pure (ofNumber module n, n + 1)
  | fuel + 1, n => do
    let files := ofNumber module n
    if ← files.makeRoomForBoth then pure (files, n + 1) else nextFrom module fuel (n + 1)

/-- The next files of a module's patches that there is room for. -/
def next (module : Path) (counter : Nat) : StateM FileTree (PatchFiles × Nat) := do
  nextFrom module (← get).nodes.length counter

end PatchFiles

namespace LinkerLine

/-- A directive that forces a symbol to be included. -/
def including (symbol : String) : String := "/INCLUDE:" ++ symbol

/-- The arguments for a patch. Functions of recompiled units survive even when nothing in the patch
calls them. -/
def arguments (s : Settings) (linker : LinkerRecord) (weakSymbols : List String)
    (recompiled : List ObjectTable) (needed : List Path) (files : PatchFiles) : String :=
  Text.join " "
    (linkerOptions
      ++ (if s.linkerOptions.isEmpty then [] else [s.linkerOptions])
      ++ recompiled.flatMap (fun t ↦ t.externalFunctions.map including)
      ++ (match s.weakSymbols with
        | .forceInclude => weakSymbols.map including
        | .linkerDefault => [])
      ++ ["/OUT:" ++ files.image.quoted, "/PDB:" ++ files.database.quoted]
      ++ needed.map Path.quoted
      ++ linker.libraries.map Path.quoted)

/-- The invocation for a patch. -/
def invocation (s : Settings) (files : FileTree) (linker : LinkerRecord) (arguments : String) :
    Invocation :=
  let tool := s.linkerFor files linker.linker
  ⟨tool, Workshop.directoryFor files linker.workingDirectory tool, arguments⟩

end LinkerLine

/-- Files that are stripped so far and the files that were backed up. -/
structure StripRun where
  workshop : Workshop
  backedUp : List Path

namespace Stripped

/-- Stripping several files, which keeps what it changed before it stopped short. -/
abbrev RunM := ExceptT Stop (StateM StripRun)

/-- Works in the workshop. -/
def inWorkshop {α : Type} (act : WorkshopM α) : RunM α :=
  ExceptT.mk fun r ↦
    let (result, workshop) := act.run r.workshop
    (result, { r with workshop := workshop })

/-- Backs a file up and strips it of what is known to be stripped. -/
def start (registry : Registry) (recompiled : PathSet) (owners : SymbolOwners)
    (strategy : RemovalStrategy) (path : Path) : RunM Stripping := do
  let _ ← inWorkshop (Workshop.onFiles (Backup.make path))
  modify fun r ↦ { r with backedUp := r.backedUp ++ [path] }
  let table ← inWorkshop (Workshop.object path)
  let editor ← Coff.Editor.load (← get).workshop.files path strategy
  match (Stripping.stripKnown registry recompiled owners).run ⟨path, editor, table, [], [], []⟩ with
  | (.ok (), s) => pure s
  | (.error stop, _) => throw stop

/-- Strips a file of the references that were stripped in other files. -/
def spread (everywhere : List String) (s : Stripping) : Outcome Stripping :=
  match (Stripping.stripReferences everywhere).run s with
  | (.ok (), s) => .ok s
  | (.error stop, _) => .error stop

/-- Finishes a file and writes it. -/
def finish (registry : Registry) (strategy : RemovalStrategy) (s : Stripping) :
    RunM (Path × List String) := do
  match (Stripping.finish registry strategy).run s with
  | (.ok (), s) =>
    inWorkshop (Workshop.onFiles (s.editor.save s.path))
    pure (s.path, s.removed)
  | (.error stop, _) => throw stop

/-- Strips all files. A symbol stripped in one is stripped in all, so that none drags in a fresh
copy. -/
def stripEach (registry : Registry) (recompiled : PathSet) (owners : SymbolOwners)
    (strategy : RemovalStrategy) (needed : List Path) : RunM (List (Path × List String)) := do
  let started ← needed.mapM (start registry recompiled owners strategy)
  let everywhere := started.flatMap fun s ↦ s.removed ++ s.forced
  let spreaded ←
    if 1 < started.length then started.mapM fun s ↦ (spread everywhere s : RunM Stripping)
    else pure started
  spreaded.mapM (finish registry strategy)

/-- Strips all files. When that fails, the files that were backed up are put back. -/
def strip (registry : Registry) (recompiled : PathSet) (owners : SymbolOwners)
    (strategy : RemovalStrategy) (needed : List Path) : WorkshopM Stripped :=
  ExceptT.mk fun w ↦
    match (stripEach registry recompiled owners strategy needed).run ⟨w, []⟩ with
    | (.ok symbols, r) =>
      (.ok ⟨symbols.foldl (fun m e ↦ m.insert e.1 e.2) ∅, r.backedUp⟩, r.workshop)
    | (.error stop, r) =>
      match (restoreEach r.backedUp).run r.workshop with
      | (.ok (), w) => (.error stop, w)
      | (.error other, w) => (.error other, w)

end Stripped
end LivePatch
