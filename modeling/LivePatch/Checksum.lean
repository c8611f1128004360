import LivePatch.Bytes

/-!
# Checksums

The 32-bit cyclic redundancy check with the reflected polynomial `0xedb88320`. Reports tell large
contents apart by it.
-/

namespace LivePatch.Checksum

/-- The polynomial, least significant bit first. -/
def polynomial : UInt32 := 0xedb88320

/-- Divides by one bit. -/
def shift (c : UInt32) : UInt32 :=
  if c &&& 1 = 1 then polynomial ^^^ (c >>> 1) else c >>> 1

/-- Divides a byte. -/
def entry (n : Nat) : UInt32 := (List.range 8).foldl (fun c _ ↦ shift c) (UInt32.ofNat n)

/-- The quotients of all bytes. -/
def table : Array UInt32 := (Array.range 256).map entry

/-- Takes in one more byte. -/
def step (c : UInt32) (b : UInt8) : UInt32 :=
  (table[((c ^^^ b.toUInt32) &&& 0xff).toNat]?).getD 0 ^^^ (c >>> 8)

/-- The checksum of bytes. -/
def ofBytes (b : Bytes) : UInt32 := b.foldl step 0xffffffff ^^^ 0xffffffff

end LivePatch.Checksum
