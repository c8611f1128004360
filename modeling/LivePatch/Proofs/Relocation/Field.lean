import LivePatch.Proofs.X86.Jumps
import LivePatch.Relocation.Field

/-!
# Fields read back

A field that a relocation was applied to resolves to the destination and the addend, whatever its
kind. Kinds that nothing is written for never resolve to anything.
-/

namespace LivePatch

namespace Bytes

theorem slice?_self (b : Bytes) : b.slice? 0 b.size = some b := by
  unfold slice?
  rw [if_pos (by omega), Nat.zero_add, Array.extract_size]

/-- Numbers of a width are read back from their bytes. -/
theorem numberAt?_ofNumber (width n : Nat) :
    numberAt? (ofNumber width n).toArray 0 width = some (n % Nat.pow 256 width) := by
  have hslice := slice?_self (ofNumber width n).toArray
  rw [List.size_toArray, length_ofNumber] at hslice
  rw [numberAt?, hslice, Option.map_some, List.toList_toArray, number_ofNumber]

/-- A word of 32 bits is read back from its bytes. -/
theorem u32At?_zero_ofU32 (w : UInt32) : (ofU32 w).u32At? 0 = some w := by
  rw [u32At?, ofU32, numberAt?_ofNumber, Option.map_some]
  congr 1
  apply UInt32.toNat_inj.mp
  rw [UInt32.toNat_ofNat']
  exact (Nat.mod_mod _ _).trans (Nat.mod_eq_of_lt w.toNat_lt)

/-- A word of 64 bits is read back from its bytes. -/
theorem u64At?_zero_ofU64 (w : UInt64) : (ofU64 w).u64At? 0 = some w := by
  rw [u64At?, ofU64, numberAt?_ofNumber, Option.map_some]
  congr 1
  apply UInt64.toNat_inj.mp
  rw [UInt64.toNat_ofNat']
  exact (Nat.mod_mod _ _).trans (Nat.mod_eq_of_lt w.toNat_lt)

end Bytes

namespace X86

/-- The displacement that could be written leads from the place to the target and the addend. -/
theorem signExtend_displacement {place target : UInt64} {addend : Int64} {rel : UInt32}
    (h : displacement place target addend = .ok rel) :
    place + signExtend rel = target + addend.toUInt64 := by
  unfold displacement at h
  dsimp only at h
  split at h
  · next hfits =>
    cases h
    rw [signExtend_toUInt32 hfits, UInt64.add_comm, UInt64.sub_add_cancel]
  · cases h

end X86

/-- A sum that is present is the sum. -/
theorem Word.eq_of_add64? {a b c : UInt64} (h : add64? a b = some c) : a + b = c := by
  unfold add64? at h
  split at h <;> cases h
  rfl

namespace Field

variable {kind : RelocationKind} {p s imageBase : UInt64} {a : Int64} {bytes : Bytes}

private theorem toUInt64_toUInt32 {w : UInt64} (h : w.toNat < 0x100000000) :
    w.toUInt32.toUInt64 = w := by
  apply UInt64.toNat_inj.mp
  rw [UInt32.toNat_toUInt64, UInt64.toNat_toUInt32]
  exact Nat.mod_eq_of_lt h

/-- The bytes of a field resolve to the destination and the addend. -/
theorem resolve?_of_value? (h : value? kind p s a imageBase = .ok (some bytes)) :
    resolve? kind p imageBase bytes = some (s + a.toUInt64) := by
  unfold value? at h
  dsimp only at h
  cases kind with
  | relative extra =>
    obtain ⟨place, hplace, h⟩ := Outcome.bind_eq_ok_iff.mp h
    obtain ⟨rel, hrel, h⟩ := Outcome.bind_eq_ok_iff.mp h
    obtain ⟨fieldEnd, hend, hplace⟩ := Outcome.bind_eq_ok_iff.mp hplace
    cases h
    have hend := Word.eq_of_add64? (Outcome.orFault_eq_ok_iff.mp hend)
    have hplace := Word.eq_of_add64? (Outcome.orFault_eq_ok_iff.mp hplace)
    have hvalue := X86.signExtend_displacement hrel
    rw [← hplace, ← hend] at hvalue
    simp only [resolve?, Bytes.u32At?_zero_ofU32, Option.bind_eq_bind, Option.bind_some,
      Option.pure_def, hvalue]
  | narrowVa =>
    dsimp only at h
    split at h
    · next hlt =>
      cases h
      rw [resolve?, Bytes.u32At?_zero_ofU32, Option.map_some, toUInt64_toUInt32 hlt]
    · cases h
  | narrowRva =>
    dsimp only at h
    split at h
    · next hlt =>
      cases h
      rw [resolve?, Bytes.u32At?_zero_ofU32, Option.map_some, toUInt64_toUInt32 hlt,
        UInt64.add_comm, UInt64.sub_add_cancel]
    · cases h
  | wideVa =>
    cases h
    exact Bytes.u64At?_zero_ofU64 _
  | sectionRelative | unknown => cases h

/-- The bytes of a field have the size of its kind. -/
theorem size_of_value? (h : value? kind p s a imageBase = .ok (some bytes)) :
    bytes.size = kind.size := by
  unfold value? at h
  dsimp only at h
  have h32 : ∀ w, (Bytes.ofU32 w).size = 4 := fun w ↦ by simp [Bytes.ofU32, Bytes.length_ofNumber]
  cases kind with
  | relative extra =>
    obtain ⟨place, -, h⟩ := Outcome.bind_eq_ok_iff.mp h
    obtain ⟨rel, -, h⟩ := Outcome.bind_eq_ok_iff.mp h
    cases h
    exact h32 rel
  | narrowVa | narrowRva =>
    dsimp only at h
    split at h <;> cases h
    exact h32 _
  | wideVa =>
    cases h
    simp [Bytes.ofU64, Bytes.length_ofNumber, RelocationKind.size]
  | sectionRelative | unknown => cases h

/-- Something is written for the kinds that can be computed anew. -/
theorem isSome_of_value? {written : Option Bytes} (h : value? kind p s a imageBase = .ok written) :
    written.isSome = kind.isPatchable := by
  unfold value? at h
  dsimp only at h
  cases kind with
  | relative extra =>
    obtain ⟨place, -, h⟩ := Outcome.bind_eq_ok_iff.mp h
    obtain ⟨rel, -, h⟩ := Outcome.bind_eq_ok_iff.mp h
    cases h
    rfl
  | narrowVa | narrowRva =>
    dsimp only at h
    split at h <;> cases h
    rfl
  | wideVa | sectionRelative | unknown =>
    cases h
    rfl

end Field
end LivePatch
