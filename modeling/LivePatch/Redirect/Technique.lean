import LivePatch.X86.Instruction
import LivePatch.X86.Jump

/-!
# Techniques

The existing instance of a function is redirected in one of two ways: a long jump over its first
instructions, or a long jump in the padding in front of it that a short jump at its start leads to.
Which of them are safe depends on the code around the start and on where threads run; one technique
is chosen for all processes.
-/

namespace LivePatch

/-- How a function is redirected. -/
inductive Technique where
  /-- A jump over the first `covered` bytes, the rest of them traps. -/
  | direct (covered : Nat)
  /-- A jump in the padding in front of the function, and a short jump to it at the start. -/
  | indirection
  deriving DecidableEq, Repr

/-- A technique in words. -/
def Technique.describe : Technique → String
  | .direct covered => "DirectJump(" ++ Text.decimal covered ++ ")"
  | .indirection => "Indirection"

/-- The techniques that can be used for a function in one process. -/
structure TechniqueOptions where
  /-- Bytes that a direct jump would cover. -/
  direct : Option Nat
  indirection : Bool
  deriving DecidableEq, Repr

namespace TechniqueOptions

/-- No technique can be used. -/
def nothing : TechniqueOptions := ⟨none, false⟩

/-- One technique that is safe wherever the options hold. Direct jumps come first; the longest
span is covered everywhere. -/
def combine (options : List TechniqueOptions) : Option Technique :=
  if options.isEmpty then none
  else if options.all fun o ↦ o.direct.isSome then
    some (.direct ((options.filterMap TechniqueOptions.direct).foldl max 0))
  else if options.all TechniqueOptions.indirection then some .indirection
  else none

end TechniqueOptions

/-- Most bytes of a function's code that are looked at. -/
def inspectedBytes : Nat := 32

/-- Whether a thread runs strictly inside a span of code. -/
def isInside (ips : List UInt64) (start : UInt64) (len : Nat) : Outcome Bool :=
  match ips.dropWhile (· ≤ start) with
  | [] => .ok false
  | ip :: rest => do
    let stop ← orFault (Word.add64? start (UInt64.ofNat len))
    pure (ip < stop || rest.any fun ip ↦ start < ip && ip < stop)

/-- The code around the start of a function in one process. -/
structure FunctionSite where
  /-- Address of the first byte. -/
  start : UInt64
  /-- Size of the function, zero if it is not known. -/
  size : UInt32
  /-- The bytes in front of the function that a jump would take, if they can be read. -/
  preceding : Option Bytes
  code : Bytes
  /-- The start carries a redirection already. -/
  isRedirected : Bool

namespace FunctionSite

/-- Bytes that whole instructions at the start cover, unless the code cannot be decoded. -/
def covered? (s : FunctionSite) (wanted : Nat) : Outcome (Option Nat) :=
  match X86.covered s.code s.start wanted with
  | .ok covered => .ok (some covered)
  | .error (.error _) => .ok none
  | .error .fault => .error .fault

/-- Whether there is room in front of the function for a jump. -/
def hasPadding (s : FunctionSite) : Bool :=
  s.isRedirected
    || s.preceding.any fun bytes ↦ bytes.size == X86.jumpSize && bytes.all X86.isPadding

/-- Whether a short jump at the start is safe. -/
def allowsIndirection (s : FunctionSite) (ips : List UInt64) : Outcome Bool := do
  let first := (← s.covered? 1).getD 0
  if s.hasPadding && X86.jumpToPadding.size ≤ first then
    return !(← isInside ips s.start X86.jumpToPadding.size)
  else pure false

/-- The bytes that a direct jump would cover, if one is safe. -/
def directJump (s : FunctionSite) (ips : List UInt64) (covered : Nat) : Outcome (Option Nat) := do
  if covered ≤ s.size.toNat then
    if ← isInside ips s.start covered then pure none else pure (some covered)
  else pure none

/-- The techniques that can redirect the function while threads run at `ips`. Behind a short jump
that is there already the old instructions cannot be decoded any more. -/
def evaluate (s : FunctionSite) (ips : List UInt64) : Outcome TechniqueOptions := do
  if s.isRedirected && X86.jumpToPadding.toList.isPrefixOf s.code.toList then
    return ⟨none, !(← isInside ips s.start X86.jumpToPadding.size)⟩
  else if X86.jumpSize ≤ s.size.toNat then
    match ← s.covered? X86.jumpSize with
    | none => pure .nothing
    | some covered =>
      let direct ← s.directJump ips covered
      let indirection ← s.allowsIndirection ips
      pure ⟨direct, indirection⟩
  else
    let indirection ← s.allowsIndirection ips
    pure ⟨none, indirection⟩

end FunctionSite
end LivePatch
