import LivePatch.Patch.Activate
import LivePatch.Patch.Load
import LivePatch.Session.Compile

/-!
# Cycles

A cycle compiles what changed, builds a patch from it, loads the patch into all processes and
activates it. Errors of tools leave the processes alone; when loading or activating fails, whatever
was changed in the processes is taken back.
-/

namespace LivePatch

/-- A patch that was linked. -/
structure Linked where
  image : Path
  output : ToolOutput

namespace LiveModule

/-- Looks for changed files and adds the object files to compile. -/
def detectChanges (m : LiveModule) : LiveModule :=
  let (compilands, changed) := m.compilands.detectChanges m.files m.settings.splitAmalgamations
  { m with compilands := compilands, modified := m.modified.addAll changed.toList }

/-- Picks the next files of a patch. -/
def nextPatchFiles (m : LiveModule) : PatchFiles × LiveModule :=
  let ((patchFiles, counter), files) := (PatchFiles.next m.path m.counter).run m.files
  (patchFiles, { m with workshop := { m.workshop with files := files }, counter := counter })

/-- Links stripped object files into a patch. -/
def link (needed recompiled : PathSet) : CycleM Linked := do
  let (patchFiles, m) := (← get).nextPatchFiles
  set m
  let tables ← recompiled.toList.mapM fun object ↦ inWorkshop (Workshop.object object)
  let arguments :=
    LinkerLine.arguments m.settings m.linker m.weakSymbols tables needed.toList patchFiles
  let output ← runTool (LinkerLine.invocation m.settings m.files m.linker arguments)
  pure ⟨patchFiles.image, output⟩

/-- Bookkeeping after a cycle that linked a patch which never became active. -/
def abandon (outcome : CycleOutcome) : CycleM CycleOutcome := do
  clearPending
  tolerating (callHooks .compileError)
  pure outcome

/-- Bookkeeping after a patch was installed. -/
def finish (patch : PatchRecord) : CycleM CycleOutcome := do
  clearPending
  modify fun m ↦ { m with patches := m.patches ++ [patch] }
  pure .success

/-- A linked patch, its entry point disabled. -/
structure Prepared where
  image : Image
  entryPoint : Option SavedEntryPoint
  size : UInt32
  tables : ImageTables

/-- Disables the entry point of a linked patch and asks for its tables. -/
def prepare (path : Path) : CycleM Prepared := do
  let image ← Image.load (← get).files path
  match Image.disableEntryPoint.run image with
  | (.error stop, _) => throw stop
  | (.ok entryPoint, image) =>
    inWorkshop (Workshop.onFiles (image.save path))
    let size ← image.size
    let tables ← (← get).provider.gather path
    pure ⟨image, entryPoint, size, tables⟩

/-- Unloads a patch from the processes that it was loaded into. -/
def unload (bases : List UInt64) : CycleM Unit :=
  modify fun m ↦ { m with processes := LoadRun.unloadEach m.files bases m.processes }

/-- Enters a loaded patch into the registry. -/
def enroll (path : Path) (p : Prepared) (bases : List UInt64) : CycleM Token := do
  let m ← get
  let token := m.registry.next
  let registry := (m.processes.zip bases).foldl
    (fun r (process, base) ↦ r.register token process.pid base)
    (m.registry.insert path p.tables p.size)
  set { m with registry := registry }
  pure token

/-- Activates a patch that is loaded and enrolled. When that fails, everything is taken back. -/
def activate (patch : PatchRecord) (p : Prepared) (image : Image) (needed : PathSet)
    (stripped : Stripped) (bases : List UInt64) : CycleM CycleOutcome := do
  match ← ExceptT.lift (needed.toList.mapM fun o ↦ inWorkshop (Workshop.object o)).run with
  | .error .fault => throw .fault
  | .error (.error _) =>
    unload bases
    modify fun m ↦ { m with registry := m.registry.discard patch.token }
    abandon .activateError
  | .ok objects =>
    let m ← get
    let a : Activation := ⟨m.files, ⟨m.registry, patch.token, p.tables⟩, image⟩
    let objects := objects.map fun o ↦ (o, stripped.namesIn o.path)
    match (a.run objects patch).run (m.processes.map Staged.ofProcess) with
    | (.ok patch, staged) =>
      set { m with processes := staged.map Staged.process }
      finish patch
    | (.error .fault, _) => throw .fault
    | (.error (.error _), staged) =>
      set { m with processes := staged.map (Staged.revert m.files) }
      unload bases
      modify fun m ↦ { m with registry := m.registry.discard patch.token }
      abandon .activateError

/-- Loads a linked patch into all processes and activates it. -/
def install (path : Path) (needed : PathSet) (stripped : Stripped) : CycleM CycleOutcome := do
  let p ← prepare path
  let m ← get
  let moduleSize := m.registry.moduleSize
  let r ← LoadRun.loadEach moduleSize path true m.files p.image m.processes
  set { m with workshop := { m.workshop with files := r.files }, processes := r.processes }
  if !r.isComplete then
    unload r.bases
    abandon .loadError
  else if ← LoadRun.isInReach moduleSize p.size r.bases r.processes then
    let token ← enroll path p r.bases
    activate (.bare path token p.size p.entryPoint) p r.image needed stripped r.bases
  else
    unload r.bases
    abandon .activateError

/-- Strips, links and installs what is pending. Object files are put back whatever linking came
to. -/
def build : CycleM CycleOutcome := do
  let m ← get
  if m.pending.isEmpty then return .noChange
  let recompiled := m.pending
  let owners ← inWorkshop (Closure.symbolOwners m.compilands recompiled)
  let needed ← inWorkshop (Closure.needed m.compilands m.registry owners recompiled)
  let strategy := m.settings.strategyFor (m.settings.linkerFor (← get).files m.linker.linker)
  let stripped ← inWorkshop
    (Stripped.strip m.registry recompiled owners strategy needed.toList)
  let linked ← ExceptT.lift (link needed recompiled).run
  let restored ← ExceptT.lift (inWorkshop stripped.restore).run
  let linked ← (linked : Outcome Linked)
  restored
  if !linked.output.isSuccess then
    callHooks .compileError
    return .linkError linked.output.exitCode
  install linked.image needed stripped

/-- Runs a cycle for what changed since the last one. -/
def update : CycleM CycleOutcome := do
  modify detectChanges
  let m ← get
  if m.modified.isEmpty && m.pending.isEmpty then return .noChange
  if !m.modified.isEmpty then
    callHooks .compileStart
    let failures ← compile
    match failures with
    | (_, exitCode) :: _ =>
      callHooks .compileError
      return .compileError (failures.map Prod.fst) exitCode
    | [] => callHooks .compileSuccess
  build

/-- Books an object file that was built elsewhere. -/
def accept (object : Path) : CycleM Unit := do
  inWorkshop (Workshop.reload object)
  mark object true
  modify fun m ↦ { m with pending := m.pending.add object }

/-- Runs a cycle for object files that were built elsewhere. Those without a unit are new units. -/
def updateWithObjects (objects : List Path) : CycleM CycleOutcome := do
  objects.forM accept
  if (← get).pending.isEmpty then return .noChange
  build

end LiveModule
end LivePatch
