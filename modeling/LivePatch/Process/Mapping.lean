import LivePatch.Process.Target

/-!
# Mapped images

Access to an image that is mapped into a process, by addresses relative to its base. Accesses
outside the image are faults of the caller.
-/

namespace LivePatch

/-- Where an image is mapped, and its size. -/
structure Mapping where
  base : UInt64
  size : UInt32
  deriving DecidableEq, Repr

namespace Mapping

/-- The address of a byte of the image. -/
def address (m : Mapping) (rva : UInt32) : Outcome UInt64 :=
  if rva < m.size then orFault (Word.add64? m.base rva.toUInt64) else .error .fault

/-- Lets accesses inside the image pass. -/
def check (m : Mapping) (rva : UInt32) (len : Nat) : Outcome Unit :=
  if rva.toNat + len ≤ m.size.toNat then .ok () else .error .fault

/-- Bytes of the image. -/
def read (m : Mapping) (rva : UInt32) (len : Nat) : TargetM Bytes := do
  m.check rva len
  let address ← m.address rva
  inContext (.readingMemory len rva) (Target.readMemory address len)

/-- Replaces bytes of the image, which may be code. -/
def write (m : Mapping) (rva : UInt32) (bytes : Bytes) : TargetM Unit := do
  m.check rva bytes.size
  let address ← m.address rva
  inContext (.writingMemory bytes.size rva) (Target.writeMemory address bytes)
  Target.flush

/-- A 64-bit word of the image. -/
def readWord (m : Mapping) (rva : UInt32) : TargetM UInt64 := do
  let bytes ← m.read rva 8
  pure (UInt64.ofNat (Bytes.number bytes.toList))

/-- Replaces a 64-bit word of the image. -/
def writeWord (m : Mapping) (rva : UInt32) (value : UInt64) : TargetM Unit :=
  m.write rva (Bytes.ofU64 value)

end Mapping
end LivePatch
