import LivePatch.Attached.Fleet
import LivePatch.Images.Image
import LivePatch.Process.Placement

/-!
# Loading a patch

A patch is placed near the module of each process and loaded there. The image is rebased to the
chosen address first: the file itself for the first process, a copy for each other one that needs
another base.
-/

namespace LivePatch

/-- What loading a patch into one process works with. -/
structure LoadState where
  files : FileTree
  image : Image
  process : AttachedProcess

/-- Loading, which keeps what it changed before it stopped short. -/
abbrev LoadM := ExceptT Stop (StateM LoadState)

namespace LoadState

/-- Works on the process. -/
def onProcess {α : Type} (act : ProcessM α) : LoadM α :=
  ExceptT.mk fun s ↦
    let (result, p) := act.run s.process
    (result, { s with process := p })

/-- Works on the files. -/
def onFiles {α : Type} (act : FilesM α) : LoadM α :=
  ExceptT.mk fun s ↦
    let (result, files) := act.run s.files
    (result, { s with files := files })

/-- Works on the image. -/
def onImage {α : Type} (act : ImageM α) : LoadM α :=
  ExceptT.mk fun s ↦
    let (result, image) := act.run s.image
    (result, { s with image := image })

/-- The copy of an image for one process. -/
def copyPath (path : Path) (pid : UInt32) : Path :=
  path.insertBeforeExtension ("_" ++ Text.decimal pid.toNat)

/-- The file that holds the image rebased to a base, which is written unless it is there. -/
def placeAt (path : Path) (inPlace : Bool) (base : UInt64) : LoadM Path := do
  let s ← get
  if (← s.image.base) = base then pure path
  else if inPlace then
    onImage (Image.rebase base)
    onFiles ((← get).image.save path)
    pure path
  else
    let copy := copyPath path s.process.pid
    let image ← Image.ofBytes copy s.image.data
    let image ← image.edited (Image.rebase base)
    onFiles (image.save copy)
    pure copy

/-- Looks for room near the module of the process. -/
def findRoom (moduleSize size : UInt32) : LoadM (Option UInt64) := do
  let p := (← get).process
  onProcess (AttachedProcess.onTarget (Target.suspended
    (Placement.freeRegionNear p.moduleBase moduleSize.toUInt64 size.toUInt64)))

/-- Loads a patch into the process. Answers its base, none when it could not be loaded. -/
def load (moduleSize : UInt32) (path : Path) (inPlace : Bool) : LoadM (Option UInt64) := do
  let size ← (← get).image.size
  match ← findRoom moduleSize size with
  | none => pure none
  | some base =>
    let file ← placeAt path inPlace base
    onProcess (AttachedProcess.loadPatch (← get).files file)

end LoadState

/-- What loading a patch into several processes came to. -/
structure LoadRun where
  files : FileTree
  image : Image
  processes : Fleet
  /-- Bases in the processes that the patch was loaded into, which come first. -/
  bases : List UInt64
  /-- Whether the patch was loaded into all. -/
  isComplete : Bool

namespace LoadRun

/-- Loads a patch into processes one after another, up to the first that it cannot be loaded
into. -/
def loadEach (moduleSize : UInt32) (path : Path) :
    Bool → FileTree → Image → Fleet → Outcome LoadRun
  | _, files, image, [] => .ok ⟨files, image, [], [], true⟩
  | isFirst, files, image, p :: rest =>
    match (LoadState.load moduleSize path isFirst).run ⟨files, image, p⟩ with
    | (.error .fault, _) => .error .fault
    | (.error (.error _), s) | (.ok none, s) =>
      .ok ⟨s.files, s.image, s.process :: rest, [], false⟩
    | (.ok (some base), s) => do
      let r ← loadEach moduleSize path false s.files s.image rest
      pure { r with processes := s.process :: r.processes, bases := base :: r.bases }

/-- Unloads a patch from the processes that it was loaded into, which come first. Failures go
unnoticed. -/
def unloadEach (files : FileTree) : List UInt64 → Fleet → Fleet
  | base :: bases, p :: rest =>
    ((AttachedProcess.tell files (.unloadPatch base)).run p).2 :: unloadEach files bases rest
  | _, fleet => fleet

/-- Whether a patch is in reach of the module in every process it was loaded into. -/
def isInReach (moduleSize size : UInt32) : List UInt64 → Fleet → Outcome Bool
  | base :: bases, p :: rest => do
    if ← Placement.isWithinReach p.moduleBase moduleSize.toUInt64 base size.toUInt64 then
      isInReach moduleSize size bases rest
    else pure false
  | _, _ => .ok true

end LoadRun
end LivePatch
