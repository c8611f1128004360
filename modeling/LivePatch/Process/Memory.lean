import LivePatch.Bytes
import LivePatch.Failure
import LivePatch.Word

/-!
# Memory of a process

Memory is a set of regions, each with its own base. An access concerns the last region that starts
at or before its address and must lie inside it; regions do not join.
-/

namespace LivePatch

/-- Mapped bytes and where they start. -/
structure Region where
  base : UInt64
  bytes : Bytes
  deriving DecidableEq, Repr

/-- Regions in the order of their bases, no two of which start at one address. -/
@[ext]
structure Memory where
  regions : List Region
  ordered : regions.Pairwise fun a b ↦ a.base < b.base
  deriving DecidableEq, Repr

namespace Memory

/-- Nothing is mapped. -/
def empty : Memory := ⟨[], .nil⟩

instance : Inhabited Memory := ⟨empty⟩

private theorem ordered_map {regions : List Region}
    (h : regions.Pairwise fun a b ↦ a.base < b.base) (base : UInt64) (bytes : Bytes) :
    (regions.filter (fun r ↦ r.base < base) ++ ⟨base, bytes⟩
      :: regions.filter fun r ↦ base < r.base).Pairwise fun a b ↦ a.base < b.base := by
  rw [List.pairwise_append]
  refine ⟨h.filter _, ?_, ?_⟩
  · rw [List.pairwise_cons]
    refine ⟨fun r hr ↦ ?_, h.filter _⟩
    simpa using (List.mem_filter.mp hr).2
  · intro a ha b hb
    have hlt : a.base < base := by simpa using (List.mem_filter.mp ha).2
    rcases List.mem_cons.mp hb with rfl | hb
    · exact hlt
    · have hgt : base < b.base := by simpa using (List.mem_filter.mp hb).2
      exact UInt64.lt_trans hlt hgt

/-- Maps bytes at a base, in place of the region that started there. -/
def map (m : Memory) (base : UInt64) (bytes : Bytes) : Memory where
  regions := m.regions.filter (fun r ↦ r.base < base) ++ ⟨base, bytes⟩
    :: m.regions.filter fun r ↦ base < r.base
  ordered := ordered_map m.ordered base bytes

/-- Unmaps the region that starts at a base, if there is one. -/
def unmap (m : Memory) (base : UInt64) : Memory where
  regions := m.regions.filter fun r ↦ r.base != base
  ordered := m.ordered.filter _

/-- Whether a region starts at a base. -/
def isMapped (m : Memory) (base : UInt64) : Bool := m.regions.any fun r ↦ r.base == base

/-- The only region that an access at an address can concern. -/
def candidate? (m : Memory) (address : UInt64) : Option Region :=
  (m.regions.filter fun r ↦ r.base ≤ address).getLast?

/-- The region that a whole access lies in, and where it lies there. -/
def window (m : Memory) (address : UInt64) (len : Nat) : Outcome (Region × Nat) :=
  match m.candidate? address with
  | none => fail (.accessViolation address len)
  | some r => do
    let start := (address - r.base).toNat
    let stop ← orFault (Word.addSize? start len)
    if stop ≤ r.bytes.size then pure (r, start) else fail (.accessViolation address len)

/-- Bytes at an address. -/
def read (m : Memory) (address : UInt64) (len : Nat) : Outcome Bytes := do
  let (r, start) ← m.window address len
  pure (r.bytes.extract start (start + len))

/-- Changes the bytes of the region that starts at a base. -/
def modifyAt (m : Memory) (base : UInt64) (f : Bytes → Bytes) : Memory where
  regions := m.regions.map fun r ↦ if r.base = base then { r with bytes := f r.bytes } else r
  ordered := by
    rw [List.pairwise_map]
    refine m.ordered.imp fun {a b} hab ↦ ?_
    split <;> split <;> exact hab

/-- The memory with other bytes at an address. -/
def write (m : Memory) (address : UInt64) (bytes : Bytes) : Outcome Memory := do
  let (r, start) ← m.window address bytes.size
  pure (m.modifyAt r.base fun old ↦ old.overwrite start bytes)

/-- Whether no region reaches into a range. The last region that starts before the end of the
range decides. -/
def isRangeFree (m : Memory) (address size : UInt64) : Outcome Bool := do
  let stop ← orFault (Word.add64? address size)
  match (m.regions.filter fun r ↦ r.base < stop).getLast? with
  | none => pure true
  | some r =>
    let last ← orFault (Word.add64? r.base (UInt64.ofNat r.bytes.size))
    pure (last ≤ address)

end Memory
end LivePatch
