import LivePatch.Attached.Fleet
import LivePatch.Patch.Record

/-!
# Taking back an activation

While a patch is activated it is noted, process by process, what has to be taken back if a later
step fails: the code that redirections replaced, the function starts that were marked, and whether
the process is held at a sync point. Spans of code may overlap, so the newest is put back first.
-/

namespace LivePatch

/-- What redirections replaced in one process. -/
structure Undo where
  /-- Addresses and the bytes that were there, the newest first. -/
  code : List (UInt64 × Bytes)
  /-- Function starts that were not marked before. -/
  marked : List UInt64
  deriving DecidableEq, Repr

/-- A process in which a patch is being activated. -/
structure Staged where
  process : AttachedProcess
  /-- The process is held at a sync point. -/
  isHeld : Bool
  undo : Undo

/-- Activation in one process, which keeps what it changed before it stopped short. -/
abbrev StagedM := ExceptT Stop (StateM Staged)

namespace Staged

/-- A process in which nothing was changed yet. -/
def ofProcess (p : AttachedProcess) : Staged := ⟨p, false, ⟨[], []⟩⟩

/-- Works on the process. -/
def onProcess {α : Type} (act : ProcessM α) : StagedM α :=
  ExceptT.mk fun s ↦
    let (result, p) := act.run s.process
    (result, { s with process := p })

/-- Works on the target of the process. -/
def onTarget {α : Type} (act : TargetM α) : StagedM α := onProcess (AttachedProcess.onTarget act)

/-- Brings the process to a sync point. -/
def hold (files : FileTree) : StagedM Unit := do
  onProcess (AttachedProcess.tell files .enterSyncPoint)
  modify fun s ↦ { s with isHeld := true }

/-- Lets the process go from the sync point. -/
def letGo (files : FileTree) : StagedM Unit := do
  onProcess (AttachedProcess.tell files .leaveSyncPoint)
  modify fun s ↦ { s with isHeld := false }

/-- Saves bytes of an image before they are replaced. -/
def save (image : Mapping) (rva : UInt32) (len : Nat) : StagedM Unit := do
  let address ← image.address rva
  let bytes ← onTarget (image.read rva len)
  modify fun s ↦ { s with undo := { s.undo with code := (address, bytes) :: s.undo.code } }

/-- Notes that a function start is about to be marked. -/
def noteMark (start : UInt64) : StagedM Unit :=
  modify fun s ↦
    if s.process.isRedirected start then s
    else { s with undo := { s.undo with marked := start :: s.undo.marked } }

/-- Puts saved bytes back. -/
def putBack (saved : UInt64 × Bytes) : TargetM Unit := do
  Target.writeMemory saved.1 saved.2
  Target.flush

/-- Puts replaced code back and takes back marks, while the process is suspended. -/
def putBackAll (undo : Undo) : ProcessM Unit :=
  AttachedProcess.suspended do
    undo.code.forM fun saved ↦ AttachedProcess.onTarget (putBack saved)
    undo.marked.forM AttachedProcess.unmark

/-- Takes back what was changed in the process and lets it go. Failures go unnoticed. -/
def revert (files : FileTree) (s : Staged) : AttachedProcess :=
  let p := if s.undo.code.isEmpty then s.process else ((putBackAll s.undo).run s.process).2
  if s.isHeld then ((AttachedProcess.tell files .leaveSyncPoint).run p).2 else p

/-- Works on the processes alone. -/
def onFleet {α : Type} (act : FleetM α) : EachM Staged α :=
  ExceptT.mk fun staged ↦
    let (result, fleet) := act.run (staged.map Staged.process)
    (result, staged.zipWith (fun s p ↦ { s with process := p }) fleet)

/-- Suspends processes one after another. When one cannot be, those before it are resumed. -/
def suspendEach : List Staged → Outcome Unit × List Staged
  | [] => (.ok (), [])
  | s :: rest =>
    match (onTarget Target.suspend).run s with
    | (.error stop, s) => (.error stop, s :: rest)
    | (.ok (), s) =>
      match suspendEach rest with
      | (.ok (), rest) => (.ok (), s :: rest)
      | (.error stop, rest) => (.error stop, ((onTarget Target.resume).run s).2 :: rest)

/-- Does something while all processes are suspended. -/
def allSuspended {α : Type} (act : EachM Staged α) : EachM Staged α := do
  ExceptT.mk suspendEach
  ensuring act (Each.attempt (onTarget Target.resume))

end Staged
end LivePatch
