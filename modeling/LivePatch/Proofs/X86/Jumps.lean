import LivePatch.Proofs.Outcome
import LivePatch.X86.Instruction
import LivePatch.X86.Jump
import Mathlib.Tactic.Common

/-!
# Jumps read back

A jump that was written leads where it was asked to, and no other bytes of a long jump lead there
from the same address. So whether code still leads to a target can be told by its bytes.
-/

namespace LivePatch

namespace Bytes

/-- Bytes of a long word that was read from them. -/
theorem ofU64_number {bytes : Bytes} (h : bytes.size = 8) :
    ofU64 (UInt64.ofNat (number bytes.toList)) = bytes := by
  have hlt := number_lt bytes.toList
  have hback := ofNumber_number bytes.toList
  rw [Array.length_toList, h] at hlt hback
  rw [ofU64, UInt64.toNat_ofNat_of_lt' hlt, hback, Array.toArray_toList]

/-- A word is read back from its bytes. -/
theorem u32At?_ofU32 (first : UInt8) (w : UInt32) : u32At? (#[first] ++ ofU32 w) 1 = some w := by
  have hsize : (ofU32 w).size = 4 := by simp [ofU32, length_ofNumber]
  have hslice : slice? (#[first] ++ ofU32 w) 1 4 = some (ofU32 w) := by
    unfold slice?
    rw [if_pos (by simp [hsize]), Array.extract_append]
    simp [← hsize]
  unfold u32At? numberAt?
  rw [hslice, Option.map_some, Option.map_some, ofU32, number_ofNumber]
  congr 1
  apply UInt32.toNat_inj.mp
  rw [UInt32.toNat_ofNat']
  exact (Nat.mod_mod _ _).trans (Nat.mod_eq_of_lt w.toNat_lt)

/-- Bytes that a word was read from behind the first of them. -/
theorem eq_of_u32At? {b : Bytes} {first : UInt8} {w : UInt32} (hsize : b.size = 5)
    (hfirst : b.u8At? 0 = some first) (hw : b.u32At? 1 = some w) : b = #[first] ++ ofU32 w := by
  obtain ⟨bytes⟩ := b
  match bytes, hsize with
  | [b₀, b₁, b₂, b₃, b₄], _ =>
    cases hfirst
    cases hw
    have hlt : number [b₁, b₂, b₃, b₄] < 4294967296 := by
      have := b₁.toNat_lt
      have := b₂.toNat_lt
      have := b₃.toNat_lt
      have := b₄.toNat_lt
      simp only [number]
      omega
    have hnumber : (UInt32.ofNat (number [b₁, b₂, b₃, b₄])).toNat = number [b₁, b₂, b₃, b₄] := by
      rw [UInt32.toNat_ofNat', Nat.mod_eq_of_lt hlt]
    change _ = #[b₀] ++ ofU32 (UInt32.ofNat (number [b₁, b₂, b₃, b₄]))
    rw [ofU32, hnumber, show 4 = [b₁, b₂, b₃, b₄].length from rfl, ofNumber_number]
    rfl

end Bytes

namespace X86

/-- A word that is a signed number of 32 bits is got back from its low half. -/
theorem signExtend_toUInt32 {w : UInt64} (h : fitsSigned32 w = true) :
    signExtend w.toUInt32 = w := by
  have hlt := w.toNat_lt
  unfold fitsSigned32 Word.signed64 at h
  simp only [Bool.and_eq_true, decide_eq_true_eq] at h
  apply UInt64.toNat_inj.mp
  unfold signExtend Word.wrap64 Word.signed32
  rw [UInt64.toNat_ofNat', UInt64.toNat_toUInt32]
  change ((if w.toNat % 4294967296 < 2147483648 then ((w.toNat % 4294967296 : Nat) : Int)
    else ((w.toNat % 4294967296 : Nat) : Int) - 4294967296) % 18446744073709551616).toNat
      % 18446744073709551616 = w.toNat
  split at h <;> split <;> omega

/-- The low half of an extended word. -/
theorem toUInt32_signExtend (w : UInt32) : (signExtend w).toUInt32 = w := by
  have hlt := w.toNat_lt
  apply UInt32.toNat_inj.mp
  unfold signExtend Word.wrap64 Word.signed32
  rw [UInt64.toNat_toUInt32, UInt64.toNat_ofNat']
  change ((if w.toNat < 2147483648 then (w.toNat : Int) else (w.toNat : Int) - 4294967296)
    % 18446744073709551616).toNat % 18446744073709551616 % 4294967296 = w.toNat
  split <;> omega

/-- A jump that could be written begins like a long jump. -/
theorem u8At?_encodeJump {source target : UInt64} {code : Bytes}
    (h : encodeJump source target = .ok code) : code.u8At? 0 = some longJump := by
  obtain ⟨next, -, h⟩ := Outcome.bind_eq_ok_iff.mp h
  obtain ⟨rel, -, h⟩ := Outcome.bind_eq_ok_iff.mp h
  cases h
  rfl

/-- A jump that could be written leads where it was asked to. -/
theorem jumpTarget?_encodeJump {source target : UInt64} {code : Bytes}
    (h : encodeJump source target = .ok code) : jumpTarget? source code = some target := by
  have hfirst := u8At?_encodeJump h
  obtain ⟨next, hnext, h⟩ := Outcome.bind_eq_ok_iff.mp h
  obtain ⟨rel, hrel, h⟩ := Outcome.bind_eq_ok_iff.mp h
  cases h
  have hnext : source + 5 = next := by
    unfold Word.add64? at hnext
    split at hnext
    · cases hnext
      rfl
    · cases hnext
  unfold displacement at hrel
  dsimp only at hrel
  split at hrel
  · next hfits =>
    cases hrel
    unfold jumpTarget?
    rw [hfirst, Bytes.u32At?_ofU32]
    simp only [Option.bind_eq_bind, Option.bind_some, if_true, Option.pure_def, Option.some.injEq]
    rw [signExtend_toUInt32 hfits, hnext, show (0 : Int64).toUInt64 = 0 from rfl, UInt64.add_zero]
    rw [UInt64.add_comm, UInt64.sub_add_cancel]
  · cases hrel

/-- Long jumps from one address to one target are the same bytes. -/
theorem longJump_unique {source target : UInt64} {code code' : Bytes}
    (hsize : code.size = jumpSize) (hsize' : code'.size = jumpSize)
    (hfirst : code.u8At? 0 = some longJump) (hfirst' : code'.u8At? 0 = some longJump)
    (h : jumpTarget? source code = some target) (h' : jumpTarget? source code' = some target) :
    code = code' := by
  have hread : ∀ code : Bytes, code.size = jumpSize → code.u8At? 0 = some longJump →
      jumpTarget? source code = some target →
      code = #[longJump] ++ Bytes.ofU32 (target - (source + 5)).toUInt32 := by
    intro code hsize hfirst h
    unfold jumpTarget? at h
    rw [hfirst] at h
    simp only [Option.bind_eq_bind, Option.bind_some, if_true, Option.bind_eq_some_iff] at h
    obtain ⟨rel, hrel, h⟩ := h
    cases h
    rw [UInt64.add_comm, UInt64.add_sub_cancel, toUInt32_signExtend]
    exact Bytes.eq_of_u32At? hsize hfirst hrel
  rw [hread code hsize hfirst h, hread code' hsize' hfirst' h']

/-- The short jump at a function's start leads in front of the function. -/
theorem jumpTarget?_jumpToPadding (start : UInt64) :
    jumpTarget? start jumpToPadding = some (start - UInt64.ofNat jumpSize) := by
  have hback : (2 : UInt64) + ((0xf9 : UInt8).toUInt64 - 0x100) = -5 := by decide
  change some (start + 2 + ((0xf9 : UInt8).toUInt64 - 0x100)) = some (start - 5)
  rw [UInt64.add_assoc, hback, UInt64.sub_eq_add_neg]

/-- No other two bytes lead in front of a function. -/
theorem eq_jumpToPadding {start : UInt64} {code : Bytes} (hsize : code.size = jumpToPadding.size)
    (h : jumpTarget? start code = some (start - UInt64.ofNat jumpSize)) : code = jumpToPadding := by
  obtain ⟨bytes⟩ := code
  match bytes, hsize with
  | [first, rel], _ =>
    change (if first = longJump then none else if first = shortJump then
      some (start + 2 + (if rel < 0x80 then rel.toUInt64 else rel.toUInt64 - 0x100)) else none)
        = some (start - 5) at h
    split at h
    · cases h
    · split at h
      · next hfirst =>
        rw [Option.some.injEq, UInt64.add_assoc, UInt64.sub_eq_add_neg start,
          UInt64.add_right_inj] at h
        have hrel : rel = 0xf9 := by
          have hlt := rel.toNat_lt
          have h := congrArg UInt64.toNat h
          have hfive : (-5 : UInt64).toNat = 18446744073709551611 := rfl
          have htwo : (2 : UInt64).toNat = 2 := rfl
          have hwide : (0x100 : UInt64).toNat = 256 := rfl
          have hback : (0xf9 : UInt8).toNat = 249 := rfl
          apply UInt8.toNat_inj.mp
          rw [UInt64.toNat_add, hfive, htwo] at h
          rw [hback]
          split at h
          · rw [UInt8.toNat_toUInt64] at h
            omega
          · rw [UInt64.toNat_sub, UInt8.toNat_toUInt64, hwide] at h
            omega
        rw [hfirst, hrel]
        rfl
      · cases h

end X86
end LivePatch
