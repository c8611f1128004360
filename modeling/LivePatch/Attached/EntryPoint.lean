import LivePatch.Attached.Process
import LivePatch.Images.Image
import LivePatch.Process.Cave

/-!
# Entry points of loaded patches

A patch is loaded with its entry point disabled, so that its initializers do not run before its
references to existing data are redirected. The real entry point is called once, explicitly, while
every thread but the one that serves commands is parked.
-/

namespace LivePatch

/-- Makes a function of a mapped image return success without doing anything. -/
def disableFunction (image : Mapping) (rva : UInt32) : TargetM Unit :=
  image.write rva X86.successStub

namespace SavedEntryPoint

/-- Puts the code of the entry point back, calls it and disables it again, also when the call
failed. -/
def callUncovered (saved : SavedEntryPoint) (files : FileTree) (image : Mapping) :
    ProcessM Unit := do
  AttachedProcess.onTarget (image.write saved.rva saved.code)
  let called ← ExceptT.lift
    (AttachedProcess.tell files (.callEntryPoint image.base saved.rva)).run
  AttachedProcess.onTarget (disableFunction image saved.rva)
  called

/-- Runs the real entry point of a mapped patch once. -/
def callOnce (saved : SavedEntryPoint) (files : FileTree) (image : Mapping) : ProcessM Unit := do
  let p ← get
  let cave ← AttachedProcess.onTarget (Cave.enter p.commandThread)
  ensuring (saved.callUncovered files image) (AttachedProcess.onTarget cave.leave)

end SavedEntryPoint
end LivePatch
