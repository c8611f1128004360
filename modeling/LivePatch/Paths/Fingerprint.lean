import LivePatch.Bytes
import LivePatch.Paths.Path
import LivePatch.Text.Utf8

/-!
# Fingerprints

The identifier of a unit: a 32-bit hash of the normalized path of its object file. It
tells apart symbols of one name that are local to different units.
-/

namespace LivePatch.Fingerprint

/-- The two halves of a hash under way. -/
structure Lanes where
  first : UInt64
  second : UInt64

/-- The lanes before anything was read. -/
def seed : Lanes := ⟨0x243f6a8885a308d3, 0x13198a2e03707344⟩

/-- Low and high half of a product, combined. -/
def mix (x y : UInt64) : UInt64 :=
  let product := x.toNat * y.toNat
  UInt64.ofNat product ^^^ UInt64.ofNat (product / 0x10000000000000000)

/-- A little-endian number of up to eight bytes, zero where there are none. -/
def word (b : Bytes) (offset width : Nat) : UInt64 :=
  UInt64.ofNat ((b.numberAt? offset width).getD 0)

/-- Reads one block of 16 bytes; the lanes change places. -/
def absorb (b : Bytes) (lanes : Lanes) (block : Nat) : Lanes :=
  let offset := 16 * block
  ⟨lanes.second,
    mix (lanes.first ^^^ word b offset 8) (0xa4093822299f31d0 ^^^ word b (offset + 8) 8)⟩

/-- The lanes after all bytes were read. Long inputs are read in blocks and the last 16 bytes are
read once more; short ones are read from both ends. -/
def lanes (b : Bytes) : Lanes :=
  let n := b.size
  if n ≥ 17 then
    let l := (List.range ((n - 1) / 16)).foldl (absorb b) seed
    ⟨l.first ^^^ word b (n - 16) 8, l.second ^^^ word b (n - 8) 8⟩
  else if n ≥ 8 then ⟨seed.first ^^^ word b 0 8, seed.second ^^^ word b (n - 8) 8⟩
  else if n ≥ 4 then ⟨seed.first ^^^ word b 0 4, seed.second ^^^ word b (n - 4) 4⟩
  else if n ≥ 1 then
    ⟨seed.first ^^^ word b 0 1, seed.second ^^^ (word b (n - 1) 1 <<< 8 ||| word b (n / 2) 1)⟩
  else seed

/-- A word turned left by some bits. -/
def rotateLeft (w : UInt64) (bits : Nat) : UInt64 :=
  w <<< UInt64.ofNat bits ||| w >>> UInt64.ofNat (64 - bits)

/-- The 64-bit hash of a byte sequence. -/
def hash (b : Bytes) : UInt64 :=
  let l := lanes b
  rotateLeft ((mix l.first l.second ^^^ UInt64.ofNat b.size) * 0xf1357aea2e62a9c5) 26

/-- The identifier of the unit whose object file lies at a path. -/
def ofPath (p : Path) : UInt32 :=
  let h := hash (Text.Utf8.encode p.normalized)
  (h ^^^ (h >>> 32)).toUInt32

end LivePatch.Fingerprint
