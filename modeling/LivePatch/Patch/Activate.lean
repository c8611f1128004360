import LivePatch.Patch.Plan
import LivePatch.Patch.Steps

/-!
# Activation

How a loaded patch takes effect in all processes at once. With every process held at a sync point,
references to data and stripped symbols are redirected first, so that initializers see the existing
state; then the entry point runs; then the remaining references are redirected, and the functions
last, while all processes are suspended.
-/

namespace LivePatch.Activation

/-- Name of the cookie that functions check their stacks with. -/
def cookieName : String := "__security_cookie"

/-- Name of a library's own entry function. -/
def dllMainName : String := "DllMain"

/-- Collects the references of one phase in object files. -/
def references (a : Activation) (phase : Phase) (objects : List (ObjectTable × List String)) :
    Outcome (List ReferenceRedirection) := do
  return (← objects.mapM fun (object, stripped) ↦ a.view.collect phase object stripped).flatten

/-- The records that failed nowhere. -/
def workedEverywhere {α : Type} (records : List α) (failures : List (List Bool)) : List α :=
  (records.zipIdx.filter fun (_, i) ↦ !failures.any fun f ↦ f[i]?.getD false).map Prod.fst

/-- Redirects references in every process and keeps those for which that worked in all. -/
def redirectEverywhere (a : Activation) (records : List ReferenceRedirection) :
    EachM Staged (List ReferenceRedirection) := do
  let failures ← Each.collect fun _ ↦
    Staged.onProcess (PatchSteps.redirectReferences a.view.registry a.view.token records)
  pure (workedEverywhere records failures)

/-- The edits that must be in place before the entry point runs. -/
def entryEdits (a : Activation) (patch : PatchRecord) : PatchRecord :=
  let own := a.view.tables.symbols
  let module := (a.view.registry.get? .module).map fun i ↦ i.tables.symbols
  { patch with
    neutered := (own.initializers.filter fun i ↦
      (a.view.registry.findSymbol? (some a.view.token) i.name).isSome).map Initializer.slot
    cookie := do
      let moduleRva ← (← module).find? cookieName
      let patchRva ← own.find? cookieName
      pure ⟨moduleRva, patchRva⟩
    dllMain := own.find? dllMainName }

/-- Redirects functions in all processes. -/
def redirectFunctions (a : Activation) (objects : List ObjectTable) (patch : PatchRecord) :
    EachM Staged PatchRecord :=
  Staged.allSuspended do
    let ips ← Each.collect fun _ ↦ Staged.onTarget Target.threadIps
    let (functions, libraries) ← a.planFunctions objects ips
    let patch := { patch with functions := functions, libraryFunctions := libraries }
    let _ ← Each.collect fun i ↦
      PatchSteps.redirectFunctions a.view.registry patch (ips[i]?.getD []) false
    pure patch

/-- Activates a loaded patch in all processes. Answers its record with all edits. -/
def run (a : Activation) (objects : List (ObjectTable × List String)) (patch : PatchRecord) :
    EachM Staged PatchRecord := do
  let registry := a.view.registry
  Each.forEach (Staged.hold a.files)
  let preHooks ← Staged.onFleet (Hooks.call a.files registry .prePatch (some a.view.token))
  let preEntry ← a.redirectEverywhere (← a.references .preEntry objects)
  let patch := a.entryEdits { patch with preHooks := preHooks, preEntry := preEntry }
  Each.forEach (Staged.onProcess (PatchSteps.prepareEntry registry patch))
  Each.forEach (Staged.onProcess (PatchSteps.callEntryPoint a.files registry patch))
  let postEntry ← a.redirectEverywhere (← a.references .postEntry objects)
  let patch ← a.redirectFunctions (objects.map Prod.fst) { patch with postEntry := postEntry }
  let postHooks ← Staged.onFleet (Hooks.call a.files registry .postPatch none)
  Each.forEach (Staged.letGo a.files)
  pure { patch with postHooks := postHooks }

end LivePatch.Activation
