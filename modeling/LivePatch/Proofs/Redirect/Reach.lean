import LivePatch.Process.Mapping
import LivePatch.Proofs.Ending
import LivePatch.Proofs.Process.Placement
import LivePatch.Proofs.Relocation.Field

/-!
# Reach of displacements

Which jumps and relative fields can be written at all: a displacement has 32 bits, so it spans two
gigabytes in either direction. Images that are in reach of one another have no two places that are
further apart. Of two images in reach of a third one this is known only where both lie on the same
side of it.
-/

namespace LivePatch

/-- The cause is a displacement that does not fit. -/
def Cause.IsTooLong : Cause → Prop
  | .displacementTooLong .. => True
  | _ => False

namespace X86

/-- A displacement leads from a place to a target. -/
def Spans (place target : UInt64) : Prop := fitsSigned32 (target - place) = true

instance (place target : UInt64) : Decidable (Spans place target) :=
  inferInstanceAs (Decidable (_ = _))

/-- A displacement leads to everything that is less than two gigabytes away. -/
theorem spans_of_near {place target : UInt64} (hup : target.toNat < place.toNat + 0x80000000)
    (hdown : place.toNat ≤ target.toNat + 0x80000000) : Spans place target := by
  have hplace := place.toNat_lt
  have htarget := target.toNat_lt
  have hdiff : (target - place).toNat
      = (0x10000000000000000 - place.toNat + target.toNat) % 0x10000000000000000 :=
    UInt64.toNat_sub ..
  unfold Spans fitsSigned32 Word.signed64
  rw [Bool.and_eq_true, decide_eq_true_eq, decide_eq_true_eq, hdiff]
  split <;> omega

theorem displacement_eq (place target : UInt64) :
    displacement place target 0 = if Spans place target then .ok (target - place).toUInt32
      else fail (.displacementTooLong place (target - place) target) := by
  unfold displacement Spans
  rw [show (0 : Int64).toUInt64 = 0 from rfl, UInt64.add_zero]
  rfl

/-- A displacement that fits leads to its target. -/
theorem spans_of_displacement {place target : UInt64} {rel : UInt32}
    (h : displacement place target 0 = .ok rel) : Spans place target := by
  rw [displacement_eq] at h
  split at h
  · assumption
  · cases h

theorem avoids_displacement {place target : UInt64} (h : Spans place target) :
    Outcome.Avoids Cause.IsTooLong (displacement place target 0) := by
  rw [displacement_eq, if_pos h]
  exact Outcome.Avoids.ok _

/-- A jump that was written spans its distance. -/
theorem spans_of_encodeJump {source target : UInt64} {code : Bytes}
    (h : encodeJump source target = .ok code) : Spans (source + 5) target := by
  obtain ⟨next, hnext, h⟩ := Outcome.bind_eq_ok_iff.mp h
  obtain ⟨rel, hrel, -⟩ := Outcome.bind_eq_ok_iff.mp h
  obtain rfl := Word.eq_of_add64? (Outcome.orFault_eq_ok_iff.mp hnext)
  exact spans_of_displacement hrel

theorem avoids_encodeJump {source target : UInt64} (h : Spans (source + 5) target) :
    Outcome.Avoids Cause.IsTooLong (encodeJump source target) := by
  refine (Outcome.Avoids.orFault _).bind fun next hnext ↦ ?_
  obtain rfl := Word.eq_of_add64? (Outcome.orFault_eq_ok_iff.mp hnext)
  exact (avoids_displacement h).bind fun _ _ ↦ Outcome.Avoids.ok _

end X86

namespace Mapping

/-- The check that loading a patch makes, for any two images. -/
def IsInReach (m n : Mapping) : Prop :=
  Placement.isWithinReach n.base n.size.toUInt64 m.base m.size.toUInt64 = .ok true

instance (m n : Mapping) : Decidable (m.IsInReach n) :=
  inferInstanceAs (Decidable (_ = Except.ok true))

/-- Where the addresses behind an image start. -/
def stop (m : Mapping) : Nat := m.base.toNat + m.size.toNat

/-- Two images lie on one side of a third one, or one of them is that one. -/
def IsBeside (module m n : Mapping) : Prop :=
  m = module ∨ n = module ∨ module.base.toNat ≤ m.base.toNat ∧ module.base.toNat ≤ n.base.toNat ∨
    m.stop ≤ module.stop ∧ n.stop ≤ module.stop

theorem IsBeside.symm {m n module : Mapping} (h : module.IsBeside m n) : module.IsBeside n m := by
  rcases h with h | h | h | h
  · exact .inr (.inl h)
  · exact .inl h
  · exact .inr (.inr (.inl h.symm))
  · exact .inr (.inr (.inr h.symm))

variable {m n module : Mapping} {rva : UInt32} {address : UInt64}

/-- Images in reach of one another span less than two gigabytes together. -/
theorem isInReach_iff : m.IsInReach n ↔
    m.stop < 0x10000000000000000 ∧ n.stop < 0x10000000000000000 ∧
    m.stop < m.base.toNat + 0x80000000 ∧ m.stop < n.base.toNat + 0x80000000 ∧
    n.stop < m.base.toNat + 0x80000000 ∧ n.stop < n.base.toNat + 0x80000000 := by
  unfold IsInReach stop
  rw [Placement.isWithinReach_iff, UInt32.toNat_toUInt64, UInt32.toNat_toUInt64]
  omega

theorem IsInReach.symm (h : m.IsInReach n) : n.IsInReach m := by
  rw [isInReach_iff] at h ⊢
  omega

/-- Images in reach of a third one are in reach of one another if they lie on one side of it. -/
theorem IsInReach.of_isBeside (hm : m = module ∨ m.IsInReach module) (hn : n.IsInReach module)
    (hbeside : module.IsBeside m n) : m.IsInReach n := by
  rcases hm with rfl | hm
  · exact hn.symm
  · rcases hbeside with rfl | rfl | hbeside
    · exact hn.symm
    · exact hm
    · rw [isInReach_iff] at hm hn ⊢
      omega

/-- A displacement leads from every place of an image, or the place behind it, to every byte of an
image in its reach. -/
theorem IsInReach.spans (h : m.IsInReach n) {place : UInt64} {offset : Nat}
    (hplace : place.toNat = m.base.toNat + offset) (hin : offset ≤ m.size.toNat)
    (hrva : rva < n.size) : X86.Spans place (n.base + rva.toUInt64) := by
  have hlt := UInt32.lt_iff_toNat_lt.mp hrva
  have hword := UInt32.toNat_toUInt64 rva
  rw [isInReach_iff] at h
  unfold stop at h
  have hsum : (n.base + rva.toUInt64).toNat = n.base.toNat + rva.toNat := by
    rw [UInt64.toNat_add, hword, Nat.mod_eq_of_lt (by omega)]
  exact X86.spans_of_near (by omega) (by omega)

/-- Addresses in and right behind an image in reach of another do not wrap around. -/
theorem IsInReach.toNat_add (h : m.IsInReach n) {more : UInt64}
    (hin : rva.toNat + more.toNat ≤ m.size.toNat) :
    (m.base + rva.toUInt64 + more).toNat = m.base.toNat + (rva.toNat + more.toNat) := by
  have hword := UInt32.toNat_toUInt64 rva
  have hstop := (isInReach_iff.mp h).1
  unfold stop at hstop
  rw [UInt64.toNat_add, UInt64.toNat_add, hword, Nat.mod_eq_of_lt (a := m.base.toNat + _) (by omega),
    Nat.mod_eq_of_lt (by omega), Nat.add_assoc]

/-- The address of a byte of an image. -/
theorem eq_of_address (h : m.address rva = .ok address) :
    address = m.base + rva.toUInt64 ∧ rva < m.size := by
  unfold Mapping.address at h
  split at h
  · next hlt => exact ⟨(Word.eq_of_add64? (Outcome.orFault_eq_ok_iff.mp h)).symm, hlt⟩
  · cases h

end Mapping

/-- A jump from one mapped image into another. -/
structure Leap where
  source : Mapping
  sourceRva : UInt32
  target : Mapping
  targetRva : UInt32

namespace Leap

/-- The displacement of the jump fits. -/
def Spans (l : Leap) : Prop :=
  X86.Spans (l.source.base + l.sourceRva.toUInt64 + 5) (l.target.base + l.targetRva.toUInt64)

/-- The jump lies in the one image and leads into the other. -/
structure IsInside (l : Leap) : Prop where
  source : l.sourceRva.toNat + X86.jumpSize ≤ l.source.size.toNat
  target : l.targetRva < l.target.size

variable {l : Leap}

/-- Jumps between images in reach of one another span their distance. -/
theorem IsInside.spans (h : l.IsInside) (hreach : l.source.IsInReach l.target) : l.Spans := by
  have hend : (l.source.base + l.sourceRva.toUInt64 + 5).toNat
      = l.source.base.toNat + (l.sourceRva.toNat + X86.jumpSize) := hreach.toNat_add h.source
  exact hreach.spans hend h.source h.target

end Leap
end LivePatch
