import LivePatch.Attached.Process
import LivePatch.Build.Changes
import LivePatch.Build.PatchFiles
import LivePatch.Images.Image
import LivePatch.Patch.Record
import LivePatch.Tables.Compilands

/-!
# Live modules

A module that is patched while it runs in any number of processes: its tables and those of its
patches, the processes, and what is to be compiled and linked next.
-/

namespace LivePatch

/-- How a cycle ended. -/
inductive CycleOutcome where
  | success
  | noChange
  /-- Units that failed to compile, and the exit code of the first of them. -/
  | compileError (failed : List Path) (exitCode : Int)
  | linkError (exitCode : Int)
  | loadError
  | activateError
  deriving DecidableEq, Repr

/-- Name of the way a cycle ended. -/
def CycleOutcome.text : CycleOutcome → String
  | .success => "Success"
  | .noChange => "NoChange"
  | .compileError _ _ => "CompileError"
  | .linkError _ => "LinkError"
  | .loadError => "LoadError"
  | .activateError => "ActivateError"

/-- A module and everything that patching it works with. -/
structure LiveModule where
  settings : Settings
  path : Path
  linker : LinkerRecord
  /-- Weak symbols of the static libraries that the module was linked with. -/
  weakSymbols : List String
  provider : Provider
  workshop : Workshop
  registry : Registry
  compilands : CompilandTable
  processes : Fleet
  /-- Installed patches, the oldest first. -/
  patches : List PatchRecord
  /-- Object files whose units have to be compiled. -/
  modified : PathSet
  /-- Object files that were compiled but not linked into a patch yet. -/
  pending : PathSet
  /-- Number of names of patches that were tried. -/
  counter : Nat

/-- Work on a live module, which keeps what it changed before it stopped short. -/
abbrev CycleM := ExceptT Stop (StateM LiveModule)

namespace LiveModule

/-- The weak symbols of libraries. Libraries that cannot be read have none. -/
def weakSymbolsOf (files : FileTree) : List Path → Outcome (List String)
  | [] => .ok []
  | library :: rest => do
    let here ← match Library.weakSymbolsOf files library with
      | .ok symbols => pure symbols
      | .error (.error _) => pure []
      | .error .fault => .error .fault
    return here ++ (← weakSymbolsOf files rest)

/-- Starts to patch a module. -/
def load (path : Path) (settings : Settings) (provider : Provider) (workshop : Workshop) :
    Outcome LiveModule := do
  let tables ← inContext (.gatheringTables path) (provider.gather path)
  let linker ← inContext (.gatheringLinker path) (provider.linker path)
  let size ← (← Image.load workshop.files path).size
  let weakSymbols ← weakSymbolsOf workshop.files linker.libraries
  pure ⟨settings, path, linker, weakSymbols, provider, workshop,
    Registry.empty.insert path tables size, tables.compilands.timed workshop.files, [], [], ∅, ∅,
    0⟩

/-- The files. -/
def files (m : LiveModule) : FileTree := m.workshop.files

/-- Works in the workshop. -/
def inWorkshop {α : Type} (act : WorkshopM α) : CycleM α :=
  ExceptT.mk fun m ↦
    let (result, w) := act.run m.workshop
    (result, { m with workshop := w })

/-- Works on the processes. -/
def onFleet {α : Type} (act : FleetM α) : CycleM α :=
  ExceptT.mk fun m ↦
    let (result, fleet) := act.run m.processes
    (result, { m with processes := fleet })

/-- Calls the newest hooks of a kind. -/
def callHooks (kind : HookKind) : CycleM Unit := do
  let m ← get
  let _ ← onFleet (Hooks.call m.files m.registry kind none)

/-- Forwards what a tool printed to every process. Failures go unnoticed. -/
def forwardOutput (text : String) : CycleM Unit := do
  let m ← get
  if text.toList.all Text.isBlank then pure ()
  else onFleet (Each.attempt (Output.forward m.files text))

/-- Runs a tool and forwards what it printed. -/
def runTool (i : Invocation) : CycleM ToolOutput := do
  let output ← inWorkshop (Workshop.run i)
  forwardOutput output.text
  pure output

/-- Attaches a process. -/
def attach (p : AttachedProcess) : CycleM Unit := do
  let m ← get
  if m.processes.any fun q ↦ q.pid == p.pid then fail (.alreadyRegistered p.pid)
  else
    set { m with
      registry := m.registry.register .module p.pid p.moduleBase
      processes := m.processes ++ [p] }

/-- Detaches a process. -/
def detach (m : LiveModule) (pid : UInt32) : LiveModule :=
  { m with
    registry := m.registry.unregister pid
    processes := m.processes.filter fun p ↦ p.pid != pid }

/-- Marks whether the unit of an object file was compiled but not linked yet. -/
def mark (object : Path) (recompiled : Bool) : CycleM Unit :=
  modify fun m ↦ { m with compilands := m.compilands.mark object recompiled }

/-- Forgets what was to be linked. -/
def clearPending : CycleM Unit := do
  (← get).pending.toList.forM fun object ↦ mark object false
  modify fun m ↦ { m with pending := ∅ }

/-- Does something whose errors go unnoticed. -/
def tolerating (act : CycleM Unit) : CycleM Unit :=
  tryCatchThe Stop act fun
    | .error _ => pure ()
    | .fault => throw .fault

end LiveModule
end LivePatch
