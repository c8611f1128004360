import LivePatch.Images.Image
import LivePatch.Patch.Rollback

/-!
# Planning redirections of functions

Which existing functions are redirected to a patch and how. A function is looked at in every process
that has its image; where there is none, in the image's file. Functions from static libraries stay
where they are, and the patch's copy of such a function is redirected instead.
-/

namespace LivePatch

/-- What a patch is activated with. -/
structure Activation where
  files : FileTree
  view : PatchView
  /-- The patch as it was linked and placed. -/
  image : Image

namespace Activation

/-- A result, absent when it was an error. -/
def tolerated {α : Type} : Outcome α → Outcome (Option α)
  | .ok a => .ok (some a)
  | .error (.error _) => .ok none
  | .error .fault => .error .fault

/-- Distance from an address to the end of the contribution that covers it. -/
def restOf (c : Contribution) (rva : UInt32) : Outcome UInt32 := do
  let stop ← orFault (Word.add32? c.rva c.size)
  orFault (Word.sub32? stop rva)

/-- The techniques for a function that nobody runs, by the image's file. -/
def optionsOnDisk (files : FileTree) (path : Path) (rva size : UInt32) :
    Outcome TechniqueOptions := do
  let image ← Image.load files path
  let start ← orFault (Word.add64? (← image.base) rva.toUInt64)
  let available := min (Word.monus32 (← image.size) rva).toNat inspectedBytes
  let code ← image.read rva available
  let preceding ←
    if X86.jumpSize ≤ rva.toNat then
      tolerated (image.read (rva - UInt32.ofNat X86.jumpSize) X86.jumpSize)
    else pure none
  FunctionSite.evaluate ⟨start, size, preceding, code, false⟩ []

/-- The techniques for a function in one process, none when its image is not mapped there. -/
def optionsIn (registry : Registry) (existing : FoundSymbol) (size : UInt32) (ips : List UInt64) :
    StagedM (Option TechniqueOptions) := do
  let p := (← get).process
  match registry.mapping? p.pid existing.token with
  | none => pure none
  | some image =>
    let (preceding, code) ← Staged.onTarget (readSite image existing.rva existing.image.size)
    let start ← image.address existing.rva
    let site : FunctionSite := ⟨start, size, preceding, code, p.isRedirected start⟩
    return some (← site.evaluate ips)

/-- The techniques for a function in all processes, none when it cannot be read in one of them. -/
def optionsEverywhere (a : Activation) (existing : FoundSymbol) (size : UInt32)
    (ips : List (List UInt64)) : EachM Staged (Option (List TechniqueOptions)) := do
  let result ← ExceptT.lift
    (Each.collect fun i ↦ optionsIn a.view.registry existing size (ips[i]?.getD [])).run
  match ← tolerated result with
  | none => pure none
  | some options =>
    let options := options.filterMap id
    if options.isEmpty then
      return some [← optionsOnDisk a.files existing.image.path existing.rva size]
    else pure (some options)

/-- Whether a function of an image was linked in from a static library. -/
def isFromLibrary (image : RegisteredImage) : Option Contribution → Bool
  | some c => !image.tables.compilands.contains c.object
  | none => false

/-- How to redirect the existing instance of a function, if there is one and it can be. -/
def planFunction (a : Activation) (ips : List (List UInt64)) (name : String) :
    EachM Staged (Option FunctionRedirection) := do
  match a.view.tables.symbols.find? name, a.view.registry.findSymbol? (some a.view.token) name with
  | some own, some existing =>
    let tables := existing.image.tables
    let contribution ← tables.contributions.find existing.rva
    if isFromLibrary existing.image contribution then pure none
    else
      let size ← match contribution with
        | some c => restOf c existing.rva
        | none => pure 0
      match (← a.optionsEverywhere existing size ips).bind TechniqueOptions.combine with
      | none => pure none
      | some technique =>
        pure (some ⟨name, existing.token, existing.rva, own, technique,
          tables.thunks.leadingTo existing.rva⟩)
  | _, _ => pure none

/-- How to redirect a patch's copy of a library function to the existing instance, if there is one
and the copy has room. -/
def planLibraryFunction (a : Activation) (name : String) : Outcome (Option LibraryRedirection) := do
  match a.view.tables.symbols.find? name with
  | none => pure none
  | some own =>
    match ← a.view.tables.contributions.find own with
    | none => pure none
    | some contribution =>
      let size := (← restOf contribution own).toNat
      if size < X86.jumpSize then pure none
      else match a.view.registry.findSymbol? (some a.view.token) name, a.image.base with
        | some existing, .ok base =>
          let start ← orFault (Word.add64? base own.toUInt64)
          let covered ← tolerated do
            X86.covered (← a.image.read own (min size inspectedBytes)) start X86.jumpSize
          match covered with
          | some covered =>
            if covered ≤ size then pure (some ⟨name, own, existing.token, existing.rva, covered⟩)
            else pure none
          | none => pure none
        | _, _ => pure none

/-- The names of the functions that object files define, each once. Those of exception handling are
left out. -/
def functionNames (objects : List ObjectTable) : List String :=
  ((objects.flatMap fun o ↦ (o.defined.filter ObjectSymbol.isFunction).map ObjectSymbol.name).filter
    fun name ↦ !Names.isException name).eraseDups

/-- Whether a library function may be redirected. -/
def isPlannedLibraryFunction (seen : List String) (name : String) : Bool :=
  !(seen.contains name || Names.isException name || Names.isRuntimeCheck name
    || Names.isSecurityCheck name)

/-- Plans the redirections of all functions. -/
def planFunctions (a : Activation) (objects : List ObjectTable) (ips : List (List UInt64)) :
    EachM Staged (List FunctionRedirection × List LibraryRedirection) := do
  let names := functionNames objects
  let functions ← names.mapM (a.planFunction ips)
  let libraries ← ((a.view.tables.symbols.libraryFunctions.filter
    (isPlannedLibraryFunction names)).mapM a.planLibraryFunction : Outcome _)
  pure (functions.filterMap id, libraries.filterMap id)

end Activation
end LivePatch
