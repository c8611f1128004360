/-!
# Byte sequences

Contents of files, images and memory. Reads are bounded, writes keep the length, and numbers are
stored with their least significant byte first.
-/

namespace LivePatch

/-- A sequence of bytes. -/
abbrev Bytes := Array UInt8

namespace Bytes

/-- A sequence of one repeated byte. -/
def fill (size : Nat) (b : UInt8) : Bytes := Array.replicate size b

/-- The bytes of a window, absent unless all of it is there. -/
def slice? (b : Bytes) (offset len : Nat) : Option Bytes :=
  if offset + len ≤ b.size then some (b.extract offset (offset + len)) else none

/-- The bytes from an offset on, none when it lies behind the end. -/
def suffix (b : Bytes) (offset : Nat) : Bytes := b.extract offset b.size

/-- Replaces the bytes of a window that lies inside. -/
def overwrite (b : Bytes) (offset : Nat) (new : Bytes) : Bytes :=
  b.extract 0 offset ++ new ++ b.extract (offset + new.size) b.size

/-- Replaces the bytes of a window, absent unless all of it is there. -/
def overwrite? (b : Bytes) (offset : Nat) (new : Bytes) : Option Bytes :=
  if offset + new.size ≤ b.size then some (b.overwrite offset new) else none

/-- The number that bytes stand for, least significant byte first. -/
def number : List UInt8 → Nat
  | [] => 0
  | b :: rest => b.toNat + 256 * number rest

/-- A number in `width` bytes, least significant byte first; what does not fit is dropped. -/
def ofNumber : Nat → Nat → List UInt8
  | 0, _ => []
  | width + 1, n => UInt8.ofNat n :: ofNumber width (n / 256)

/-- The number stored in `width` bytes at an offset. -/
def numberAt? (b : Bytes) (offset width : Nat) : Option Nat :=
  (b.slice? offset width).map fun s ↦ number s.toList

/-- The byte at an offset. -/
def u8At? (b : Bytes) (offset : Nat) : Option UInt8 := b[offset]?

/-- The 16-bit word at an offset. -/
def u16At? (b : Bytes) (offset : Nat) : Option UInt16 := (b.numberAt? offset 2).map UInt16.ofNat

/-- The 32-bit word at an offset. -/
def u32At? (b : Bytes) (offset : Nat) : Option UInt32 := (b.numberAt? offset 4).map UInt32.ofNat

/-- The 64-bit word at an offset. -/
def u64At? (b : Bytes) (offset : Nat) : Option UInt64 := (b.numberAt? offset 8).map UInt64.ofNat

/-- A 16-bit word as bytes. -/
def ofU16 (w : UInt16) : Bytes := (ofNumber 2 w.toNat).toArray

/-- A 32-bit word as bytes. -/
def ofU32 (w : UInt32) : Bytes := (ofNumber 4 w.toNat).toArray

/-- A 64-bit word as bytes. -/
def ofU64 (w : UInt64) : Bytes := (ofNumber 8 w.toNat).toArray

/-- The bytes cut or filled up to a length. -/
def resize (b : Bytes) (size : Nat) (filler : UInt8) : Bytes :=
  b.extract 0 size ++ fill (size - b.size) filler

/-- The bytes before the first zero. -/
def beforeNul (b : List UInt8) : List UInt8 := b.takeWhile (· != 0)

/-- A window that is present has the requested length. -/
theorem size_of_slice? {b s : Bytes} {offset len : Nat} (h : b.slice? offset len = some s) :
    s.size = len := by
  unfold slice? at h
  split at h
  · cases h
    rw [Array.size_extract]
    omega
  · cases h

/-- Replacing a window that lies inside keeps the length. -/
theorem size_overwrite {b new : Bytes} {offset : Nat} (h : offset + new.size ≤ b.size) :
    (b.overwrite offset new).size = b.size := by
  simp only [overwrite, Array.size_append, Array.size_extract]
  omega

/-- Bytes of a number have the requested width. -/
theorem length_ofNumber (width n : Nat) : (ofNumber width n).length = width := by
  induction width generalizing n with
  | zero => rfl
  | succ width ih => simp [ofNumber, ih]

/-- Reading back a number gives what fits of it. -/
theorem number_ofNumber (width n : Nat) : number (ofNumber width n) = n % Nat.pow 256 width := by
  rw [Nat.pow_eq]
  induction width generalizing n with
  | zero => simp [ofNumber, number, Nat.mod_one]
  | succ width ih =>
    have h : (UInt8.ofNat n).toNat = n % 256 := UInt8.toNat_ofNat'
    rw [ofNumber, number, ih, h, Nat.pow_succ', Nat.mod_mul]

/-- Bytes of a number that was read from as many bytes. -/
theorem ofNumber_number (bytes : List UInt8) : ofNumber bytes.length (number bytes) = bytes := by
  induction bytes with
  | nil => rfl
  | cons b bytes ih =>
    have hb : UInt8.ofNat (b.toNat + 256 * number bytes) = b := by
      apply UInt8.toNat_inj.mp
      have := b.toNat_lt
      rw [UInt8.toNat_ofNat']
      omega
    have hrest : (b.toNat + 256 * number bytes) / 256 = number bytes := by
      have := b.toNat_lt
      omega
    rw [List.length_cons, ofNumber, number, hb, hrest, ih]

/-- A number takes the bytes that it was read from. -/
theorem number_lt (bytes : List UInt8) : number bytes < Nat.pow 256 bytes.length := by
  rw [Nat.pow_eq]
  induction bytes with
  | nil => exact Nat.one_pos
  | cons b bytes ih =>
    have := b.toNat_lt
    rw [List.length_cons, Nat.pow_succ, number]
    omega

end Bytes
end LivePatch
