import LivePatch.Relocation.Kind
import LivePatch.X86.Jump

/-!
# Relocated fields

The value that a relocation writes into its field, and what a field resolves to when it is read
back. P is the address of the field, S the address of the destination and A the addend.
-/

namespace LivePatch.Field

/-- The place that the displacement of a relative field counts from. -/
def placeBehind (p : UInt64) (extra : UInt8) : Outcome UInt64 := do
  let fieldEnd ← orFault (Word.add64? p 4)
  orFault (Word.add64? fieldEnd extra.toUInt64)

/-- The bytes of a field, absent for kinds that nothing is written for. -/
def value? (kind : RelocationKind) (p s : UInt64) (a : Int64) (imageBase : UInt64) :
    Outcome (Option Bytes) :=
  let target := s + a.toUInt64
  match kind with
  | .relative extra => do
    let place ← placeBehind p extra
    let rel ← X86.displacement place s a
    pure (some (Bytes.ofU32 rel))
  | .narrowVa =>
    if target.toNat < 0x100000000 then .ok (some (Bytes.ofU32 target.toUInt32))
    else fail (.addressTooWide target p)
  | .narrowRva =>
    let offset := target - imageBase
    if offset.toNat < 0x100000000 then .ok (some (Bytes.ofU32 offset.toUInt32))
    else fail (.offsetTooWide target p)
  | .wideVa => .ok (some (Bytes.ofU64 target))
  | .sectionRelative | .unknown _ => .ok none

/-- A field after its relocation was applied. A field of another size than the kind's is
refused. -/
def relocate (kind : RelocationKind) (p s : UInt64) (a : Int64) (imageBase : UInt64)
    (field : Bytes) : Outcome Bytes := do
  match ← value? kind p s a imageBase with
  | none => pure field
  | some bytes =>
    if field.size = bytes.size then pure bytes
    else fail (.fieldSize p field.size bytes.size)

/-- The address that a field resolves to, by the formula of its kind. -/
def resolve? (kind : RelocationKind) (p imageBase : UInt64) (field : Bytes) : Option UInt64 :=
  match kind with
  | .relative extra => do
    let rel ← field.u32At? 0
    pure (p + 4 + extra.toUInt64 + X86.signExtend rel)
  | .narrowVa => (field.u32At? 0).map UInt32.toUInt64
  | .narrowRva => (field.u32At? 0).map fun w ↦ imageBase + w.toUInt64
  | .wideVa => field.u64At? 0
  | .sectionRelative | .unknown _ => none

end LivePatch.Field
