import LivePatch.Attached.EntryPoint
import LivePatch.Patch.Rollback

/-!
# Steps of an activation

What is done to a single process to make a loaded patch take effect. The steps are the same whether
the patch was just built or is installed again in a process attached later.
-/

namespace LivePatch.PatchSteps

/-- Redirects one reference. Answers whether that failed. -/
def redirectReference (patch : Mapping) (bases : List (Option UInt64)) (r : ReferenceRedirection) :
    TargetM Bool :=
  ExceptT.mk do
    match ← (r.apply patch bases).run with
    | .ok () => pure (.ok false)
    | .error (.error _) => pure (.ok true)
    | .error .fault => pure (.error .fault)

/-- Redirects references in a process. Answers which of them failed. -/
def redirectReferences (registry : Registry) (token : Token) (records : List ReferenceRedirection) :
    ProcessM (List Bool) := do
  let pid := (← get).pid
  match registry.mapping? pid token with
  | none => pure (records.map fun _ ↦ false)
  | some patch =>
    AttachedProcess.onTarget
      (Target.suspended (records.mapM (redirectReference patch (registry.bases pid))))

/-- Copies the module's security cookie into a patch. -/
def copyCookie (image module : Mapping) (cookie : CookieRecord) : TargetM Unit := do
  let value ← module.readWord cookie.moduleRva
  image.writeWord cookie.patchRva value

/-- Edits that must be in place before the entry point runs: initializers of existing objects are
neutered, the security cookie is copied and the library's own entry function is disabled. -/
def prepareEntry (registry : Registry) (patch : PatchRecord) : ProcessM Unit := do
  let pid := (← get).pid
  match registry.mapping? pid patch.token with
  | none => pure ()
  | some image =>
    AttachedProcess.onTarget <| Target.suspended do
      patch.neutered.forM fun slot ↦ image.writeWord slot 0
      match patch.cookie, registry.mapping? pid .module with
      | some cookie, some module => copyCookie image module cookie
      | _, _ => pure ()
      match patch.dllMain with
      | some rva => disableFunction image rva
      | none => pure ()

/-- Runs the entry point of a patch once. -/
def callEntryPoint (files : FileTree) (registry : Registry) (patch : PatchRecord) :
    ProcessM Unit := do
  match patch.entryPoint, registry.mapping? (← get).pid patch.token with
  | some saved, some image => saved.callOnce files image
  | _, _ => pure ()

/-- Whether a redirection is left out: it is checked, and a thread runs inside its span. -/
def isUnsafe (checks : Bool) (ips : List UInt64) (r : FunctionRedirection) (start : UInt64) :
    Outcome Bool :=
  if checks then do return !(← r.isSafe start ips) else .ok false

/-- Redirects one function, after saving what that replaces. -/
def redirectFunction (registry : Registry) (image : Mapping) (ips : List UInt64) (checks : Bool)
    (r : FunctionRedirection) : StagedM Unit := do
  match registry.mapping? (← get).process.pid r.existing with
  | none => pure ()
  | some existing =>
    let start ← existing.address r.existingRva
    if ← isUnsafe checks ips r start then pure ()
    else
      let ranges ← r.overwritten
      ranges.forM fun (rva, len) ↦ Staged.save existing rva len
      Staged.noteMark start
      Staged.onTarget (r.install existing image)
      Staged.onProcess (AttachedProcess.mark start)

/-- Redirects a patch's copy of a library function. -/
def redirectLibraryFunction (registry : Registry) (image : Mapping) (r : LibraryRedirection) :
    StagedM Unit := do
  match registry.mapping? (← get).process.pid r.existing with
  | none => pure ()
  | some existing => Staged.onTarget (r.install existing image)

/-- Redirects functions in a process, which must be suspended. With `checks`, those that a thread
runs inside are left out: that is for redirections that were planned elsewhere. -/
def redirectFunctions (registry : Registry) (patch : PatchRecord) (ips : List UInt64)
    (checks : Bool) : StagedM Unit := do
  match registry.mapping? (← get).process.pid patch.token with
  | none => pure ()
  | some image =>
    patch.functions.forM (redirectFunction registry image ips checks)
    patch.libraryFunctions.forM (redirectLibraryFunction registry image)

end LivePatch.PatchSteps
