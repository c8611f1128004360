import LivePatch.Process.Memory

/-!
# Changes of memory

What has become of a memory: runs of bytes that changed in regions that stayed, regions that came,
which includes those of another size than before, and bases where nothing is mapped any more.
-/

namespace LivePatch

namespace Bytes

/-- A run of bytes that ends before an offset, last byte first, unless it is empty. -/
def closedRun (offset : Nat) (run : List UInt8) : List (Nat × Bytes) :=
  if run.isEmpty then [] else [(offset - run.length, run.reverse.toArray)]

/-- Runs of changed bytes from an offset on, behind a run that ends there. -/
def runsFrom (old new : Bytes) : Nat → Nat → List UInt8 → List (Nat × Bytes)
  | 0, offset, run => closedRun offset run
  | fuel + 1, offset, run =>
    match old[offset]?, new[offset]? with
    | some a, some b =>
      if a != b then runsFrom old new fuel (offset + 1) (b :: run)
      else closedRun offset run ++ runsFrom old new fuel (offset + 1) []
    | _, _ => closedRun offset run

/-- Longest runs of bytes that differ, with the offsets they start at. -/
def runs (old new : Bytes) : List (Nat × Bytes) := runsFrom old new new.size 0 []

/-- Rows of 16 bytes that are not all zero, with their offsets. -/
def rows (b : Bytes) : List (Nat × Bytes) :=
  ((List.range ((b.size + 15) / 16)).map fun i ↦
    (16 * i, b.extract (16 * i) (16 * i + 16))).filter fun row ↦ row.2.any (· != 0)

end Bytes

/-- What became of a memory. -/
structure MemoryChanges where
  /-- Changed runs, by address. -/
  changed : List (UInt64 × Bytes)
  mapped : List Region
  unmapped : List UInt64
  deriving DecidableEq, Repr

namespace Memory

/-- The region of a base. -/
def regionAt? (m : Memory) (base : UInt64) : Option Region :=
  m.regions.find? fun r ↦ r.base == base

/-- The region that a region replaced byte by byte. -/
def counterpart? (m : Memory) (r : Region) : Option Region :=
  (m.regionAt? r.base).filter fun before ↦ before.bytes.size == r.bytes.size

/-- What became of a memory. -/
def changes (old new : Memory) : MemoryChanges where
  changed := new.regions.flatMap fun r ↦ match old.counterpart? r with
    | some before => (Bytes.runs before.bytes r.bytes).map fun run ↦
      (r.base + UInt64.ofNat run.1, run.2)
    | none => []
  mapped := new.regions.filter fun r ↦ (old.counterpart? r).isNone
  unmapped := (old.regions.filter fun r ↦ !new.isMapped r.base).map Region.base

end Memory
end LivePatch
