import LivePatch.Session.Cycle

/-!
# Installing earlier patches

Patches that were built before a process was attached are loaded into it and their recorded edits
are made again, the oldest patch first. Nothing is compiled, linked or resolved anew.
-/

namespace LivePatch

namespace PatchRecord

/-- Calls recorded hooks in a process. -/
def callHooks (files : FileTree) (registry : Registry) (hooks : Option HookRecord) :
    ProcessM Unit := do
  match hooks with
  | some record => record.replay files (registry.bases (← get).pid)
  | none => pure ()

/-- Redirects functions in a process. Those that a thread runs inside are left out. -/
def redirectFunctions (patch : PatchRecord) (registry : Registry) : StagedM Unit := do
  Staged.onTarget Target.suspend
  ensuring (do
    let ips ← Staged.onTarget Target.threadIps
    PatchSteps.redirectFunctions registry patch ips true) (Staged.onTarget Target.resume)

/-- Makes the edits of a loaded patch in a process. -/
def replay (patch : PatchRecord) (files : FileTree) (registry : Registry) : StagedM Unit := do
  Staged.hold files
  Staged.onProcess (callHooks files registry patch.preHooks)
  let _ ← Staged.onProcess (PatchSteps.redirectReferences registry patch.token patch.preEntry)
  Staged.onProcess (PatchSteps.prepareEntry registry patch)
  Staged.onProcess (PatchSteps.callEntryPoint files registry patch)
  let _ ← Staged.onProcess (PatchSteps.redirectReferences registry patch.token patch.postEntry)
  patch.redirectFunctions registry
  Staged.onProcess (callHooks files registry patch.postHooks)
  Staged.letGo files

end PatchRecord

namespace LiveModule

/-- The process of an identifier. -/
def process? (m : LiveModule) (pid : UInt32) : Option AttachedProcess :=
  m.processes.find? fun p ↦ p.pid == pid

/-- Puts a process into the place of the one with its identifier. -/
def putProcess (m : LiveModule) (p : AttachedProcess) : LiveModule :=
  { m with processes := m.processes.map fun q ↦ if q.pid = p.pid then p else q }

/-- Unloads a patch from one process. -/
def unloadFrom (p : AttachedProcess) (base : UInt64) : CycleM Unit := do
  modify fun m ↦ m.putProcess ((AttachedProcess.tell m.files (.unloadPatch base)).run p).2

/-- Makes the edits of a patch in a process that it is loaded into at a base. When that fails,
everything is taken back. -/
def replayLoaded (patch : PatchRecord) (p : AttachedProcess) (base : UInt64) : CycleM Unit := do
  modify fun m ↦ { m with registry := m.registry.register patch.token p.pid base }
  let m ← get
  match (patch.replay m.files m.registry).run (Staged.ofProcess p) with
  | (.ok (), s) => set (m.putProcess s.process)
  | (.error .fault, _) => throw .fault
  | (.error (.error e), s) =>
    unloadFrom (s.revert m.files) base
    modify fun m ↦ { m with registry := m.registry.forget patch.token p.pid }
    throw (.error (e.within (.activating patch.path)))

/-- Installs one patch into a process. -/
def replay (pid : UInt32) (patch : PatchRecord) : CycleM Unit := do
  let m ← get
  let moduleSize := m.registry.moduleSize
  match m.process? pid with
  | none => fail (.notRegistered pid)
  | some p =>
    let image ← Image.load m.files patch.path
    let (result, s) := (LoadState.load moduleSize patch.path false).run ⟨m.files, image, p⟩
    set ({ m with workshop := { m.workshop with files := s.files } }.putProcess s.process)
    match ← (result : Outcome (Option UInt64)) with
    | none => fail (.patchNotLoaded patch.path pid)
    | some base =>
      if ← Placement.isWithinReach p.moduleBase moduleSize.toUInt64 base patch.imageSize.toUInt64
      then replayLoaded patch s.process base
      else
        unloadFrom s.process base
        fail (.patchOutOfReach patch.path base)

/-- Installs all patches built so far into a process. -/
def installPatches (pid : UInt32) : CycleM Unit := do
  let m ← get
  if !m.settings.installsLater then pure ()
  else if (m.process? pid).isNone then fail (.notRegistered pid)
  else m.patches.forM (replay pid)

end LiveModule
end LivePatch
