import LivePatch.Redirect.Technique
import LivePatch.Registry.Basic

/-!
# Redirected functions

Records of redirections, in addresses relative to images, so that they can be installed again in
another process. Calls of an old instance of a function are led to the new one in a patch, through
thunks too. A function that a patch got from a static library goes the other way: the patch's copy
leads to the instance that is there already.
-/

namespace LivePatch

/-- A redirection of a function's existing instance to the one in a patch. -/
structure FunctionRedirection where
  name : String
  /-- The image of the existing instance. -/
  existing : Token
  existingRva : UInt32
  patchRva : UInt32
  technique : Technique
  /-- Thunks in the image of the existing instance that lead to the function. -/
  thunks : List UInt32
  deriving DecidableEq, Repr

/-- A redirection of a patch's copy of a library function to the existing instance. -/
structure LibraryRedirection where
  name : String
  patchRva : UInt32
  existing : Token
  existingRva : UInt32
  covered : Nat
  deriving DecidableEq, Repr

/-- A jump that takes the place of `covered` bytes, filled up with traps. -/
def paddedJump (source target : UInt64) (covered : Nat) : Outcome Bytes := do
  let jump ← X86.encodeJump source target
  pure (jump.resize covered X86.trap)

/-- The code at a function of a mapped image and the bytes in front of it. -/
def readSite (image : Mapping) (rva imageSize : UInt32) : TargetM (Option Bytes × Bytes) := do
  let available := min (Word.monus32 imageSize rva).toNat inspectedBytes
  if available = 0 then fail (.outsideImage rva)
  else
    let code ← image.read rva available
    if X86.jumpSize ≤ rva.toNat then
      let preceding ← image.read (rva - UInt32.ofNat X86.jumpSize) X86.jumpSize
      pure (some preceding, code)
    else pure (none, code)

namespace FunctionRedirection

/-- Bytes at the function's start that the technique replaces. -/
def span (r : FunctionRedirection) : Nat :=
  match r.technique with
  | .direct covered => covered
  | .indirection => X86.jumpToPadding.size

/-- Whether the technique is safe while threads run at `ips`. -/
def isSafe (r : FunctionRedirection) (start : UInt64) (ips : List UInt64) : Outcome Bool := do
  return !(← isInside ips start r.span)

/-- Where the jump in front of the function goes. -/
def paddingRva (r : FunctionRedirection) : Outcome UInt32 :=
  orFault (Word.sub32? r.existingRva (UInt32.ofNat X86.jumpSize))

/-- The ranges of the image of the existing instance that installing the redirection replaces. -/
def overwritten (r : FunctionRedirection) : Outcome (List (UInt32 × Nat)) := do
  let thunks := r.thunks.map fun thunk ↦ (thunk, X86.jumpSize)
  match r.technique with
  | .direct covered => pure (thunks ++ [(r.existingRva, covered)])
  | .indirection =>
    let padding ← r.paddingRva
    pure (thunks ++ [(padding, X86.jumpSize), (r.existingRva, X86.jumpToPadding.size)])

/-- Installs the redirection in a process, which must be suspended. -/
def install (r : FunctionRedirection) (existing patch : Mapping) : TargetM Unit := do
  let target ← patch.address r.patchRva
  r.thunks.forM fun thunk ↦ do
    let jump ← X86.encodeJump (← existing.address thunk) target
    existing.write thunk jump
  let start ← existing.address r.existingRva
  match r.technique with
  | .direct covered => existing.write r.existingRva (← paddedJump start target covered)
  | .indirection =>
    let padding ← r.paddingRva
    let jump ← X86.encodeJump (← existing.address padding) target
    existing.write padding jump
    existing.write r.existingRva X86.jumpToPadding

end FunctionRedirection

namespace LibraryRedirection

/-- Installs the redirection in a process, which must be suspended. -/
def install (r : LibraryRedirection) (existing patch : Mapping) : TargetM Unit := do
  let start ← patch.address r.patchRva
  let target ← existing.address r.existingRva
  patch.write r.patchRva (← paddedJump start target r.covered)

end LibraryRedirection
end LivePatch
