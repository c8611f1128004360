/-!
# Machine words

Sums, differences and products of machine words that tell when they leave their width, and the
alignment of addresses. A result that is absent means that the arithmetic left its range.
-/

namespace LivePatch.Word

/-- Sum of two 64-bit words. -/
def add64? (a b : UInt64) : Option UInt64 :=
  if a.toNat + b.toNat < 0x10000000000000000 then some (a + b) else none

/-- Difference of two 64-bit words. -/
def sub64? (a b : UInt64) : Option UInt64 :=
  if b ≤ a then some (a - b) else none

/-- Difference of two 64-bit words that stops at zero. -/
def monus64 (a b : UInt64) : UInt64 := if b ≤ a then a - b else 0

/-- Sum of two 32-bit words. -/
def add32? (a b : UInt32) : Option UInt32 :=
  if a.toNat + b.toNat < 0x100000000 then some (a + b) else none

/-- Difference of two 32-bit words. -/
def sub32? (a b : UInt32) : Option UInt32 :=
  if b ≤ a then some (a - b) else none

/-- Difference of two 32-bit words that stops at zero. -/
def monus32 (a b : UInt32) : UInt32 := if b ≤ a then a - b else 0

/-- Sum of two sizes, which are 64 bits wide. -/
def addSize? (a b : Nat) : Option Nat :=
  if a + b < 0x10000000000000000 then some (a + b) else none

/-- Whether a word is a power of two. -/
def isPowerOfTwo (n : UInt64) : Bool := n != 0 && n &&& (n - 1) == 0

/-- An address moved down to a multiple of an alignment, which is a power of two. -/
def alignDown? (address alignment : UInt64) : Option UInt64 :=
  if isPowerOfTwo alignment then some (address &&& ~~~(alignment - 1)) else none

/-- An address or a size moved up to a multiple of an alignment, which is a power of two. -/
def alignUp? (address alignment : UInt64) : Option UInt64 :=
  if isPowerOfTwo alignment then do
    let sum ← add64? address alignment
    pure ((sum - 1) &&& ~~~(alignment - 1))
  else none

/-- A word of 64 bits read as a signed number. -/
def signed64 (w : UInt64) : Int :=
  if w.toNat < 0x8000000000000000 then w.toNat else (w.toNat : Int) - 0x10000000000000000

/-- A word of 32 bits read as a signed number. -/
def signed32 (w : UInt32) : Int :=
  if w.toNat < 0x80000000 then w.toNat else (w.toNat : Int) - 0x100000000

/-- The word of 64 bits that an integer leaves behind. -/
def wrap64 (i : Int) : UInt64 := UInt64.ofNat (i.emod 0x10000000000000000).toNat

/-- A sum that is present is exact. -/
theorem toNat_of_add64? {a b c : UInt64} (h : add64? a b = some c) :
    c.toNat = a.toNat + b.toNat := by
  unfold add64? at h
  split at h
  · next hlt =>
    cases h
    rw [UInt64.toNat_add, Nat.mod_eq_of_lt hlt]
  · cases h

/-- A 32-bit sum that is present is exact. -/
theorem toNat_of_add32? {a b c : UInt32} (h : add32? a b = some c) :
    c.toNat = a.toNat + b.toNat := by
  unfold add32? at h
  split at h
  · next hlt =>
    cases h
    rw [UInt32.toNat_add, Nat.mod_eq_of_lt hlt]
  · cases h

end LivePatch.Word
