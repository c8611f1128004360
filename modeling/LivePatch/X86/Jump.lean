import LivePatch.Bytes
import LivePatch.Failure
import LivePatch.Word

/-!
# Jumps

The jumps that redirections are made of, written and read: a long jump reaches everything within a
signed 32-bit displacement, a short jump leads from a function's first byte into the five bytes in
front of it.
-/

namespace LivePatch.X86

/-- Size of a long jump. -/
def jumpSize : Nat := 5

/-- First byte of a long jump. -/
def longJump : UInt8 := 0xe9

/-- First byte of a short jump. -/
def shortJump : UInt8 := 0xeb

/-- A short jump to the long jump in front of it. -/
def jumpToPadding : Bytes := #[shortJump, 0xf9]

/-- Filler for bytes that must never run. -/
def trap : UInt8 := 0xcc

/-- The one-byte instruction that does nothing. -/
def idle : UInt8 := 0x90

/-- Whether a byte is a filler that compilers emit between functions. -/
def isPadding (b : UInt8) : Bool := b == trap || b == idle

/-- Code that returns success at once. -/
def successStub : Bytes := #[0xb8, 0x01, 0x00, 0x00, 0x00, 0xc3]

/-- Whether a word is a signed number of 32 bits. -/
def fitsSigned32 (w : UInt64) : Bool :=
  -0x80000000 ≤ Word.signed64 w && Word.signed64 w < 0x80000000

/-- The displacement from the end of a field or jump at `place` to a target and an addend. -/
def displacement (place target : UInt64) (addend : Int64) : Outcome UInt32 :=
  let value := target + addend.toUInt64 - place
  if fitsSigned32 value then .ok value.toUInt32
  else fail (.displacementTooLong place value target)

/-- The bytes of a long jump at one address to another. -/
def encodeJump (source target : UInt64) : Outcome Bytes := do
  let next ← orFault (Word.add64? source 5)
  let rel ← displacement next target 0
  pure (#[longJump] ++ Bytes.ofU32 rel)

/-- A signed number of 32 bits as a word of 64. -/
def signExtend (w : UInt32) : UInt64 := Word.wrap64 (Word.signed32 w)

/-- Where the long or short jump that code at an address starts with leads. -/
def jumpTarget? (address : UInt64) (code : Bytes) : Option UInt64 := do
  let first ← code.u8At? 0
  if first = longJump then
    let rel ← code.u32At? 1
    pure (address + 5 + signExtend rel)
  else if first = shortJump then
    let rel ← code.u8At? 1
    pure (address + 2 + (if rel < 0x80 then rel.toUInt64 else rel.toUInt64 - 0x100))
  else none

/-- A long jump has the size of a long jump. -/
theorem size_of_encodeJump {source target : UInt64} {code : Bytes}
    (h : encodeJump source target = .ok code) : code.size = jumpSize := by
  unfold encodeJump at h
  cases hn : Word.add64? source 5 with
  | none => rw [hn] at h; cases h
  | some next =>
    cases hd : displacement next target 0 with
    | error e => rw [hn] at h; simp [orFault, bind, Except.bind, hd] at h
    | ok rel =>
      rw [hn] at h
      simp only [orFault, bind, Except.bind, hd, pure, Except.pure, Except.ok.injEq] at h
      subst h
      rfl

end LivePatch.X86
