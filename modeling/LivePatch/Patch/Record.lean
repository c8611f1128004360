import LivePatch.Attached.Hooks
import LivePatch.Images.Image
import LivePatch.Redirect.Function
import LivePatch.Redirect.Reference

/-!
# Records of patches

Everything that was done to the processes while a patch was installed, in addresses relative to
images, so that it can be done again in a process that is attached later.
-/

namespace LivePatch

/-- The security cookie of a patch is overwritten with the module's. -/
structure CookieRecord where
  moduleRva : UInt32
  patchRva : UInt32
  deriving DecidableEq, Repr

/-- A patch and its edits. -/
structure PatchRecord where
  /-- The linked image, its entry point disabled. -/
  path : Path
  token : Token
  imageSize : UInt32
  entryPoint : Option SavedEntryPoint
  preEntry : List ReferenceRedirection
  postEntry : List ReferenceRedirection
  /-- Slots of initializers that are not run because their objects exist already. -/
  neutered : List UInt32
  cookie : Option CookieRecord
  dllMain : Option UInt32
  functions : List FunctionRedirection
  libraryFunctions : List LibraryRedirection
  preHooks : Option HookRecord
  postHooks : Option HookRecord
  deriving DecidableEq, Repr

namespace PatchRecord

/-- A patch without edits. -/
def bare (path : Path) (token : Token) (imageSize : UInt32) (entryPoint : Option SavedEntryPoint) :
    PatchRecord :=
  ⟨path, token, imageSize, entryPoint, [], [], [], none, none, [], [], none, none⟩

/-- Number of edits. -/
def editCount (p : PatchRecord) : Nat :=
  p.preEntry.length + p.postEntry.length + p.neutered.length + p.functions.length
    + p.libraryFunctions.length + p.cookie.toList.length + p.dllMain.toList.length

end PatchRecord
end LivePatch
