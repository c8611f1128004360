import LivePatch.Proofs.Outcome
import LivePatch.Redirect.Technique
import Mathlib.Tactic.Common

/-!
# Room for jumps

A technique that was found by looking at code covers whole instructions, and as many of them as a
jump takes. Combining what was found in several processes takes no room away.
-/

namespace LivePatch

namespace X86

/-- Every instruction takes bytes. -/
theorem pos_of_instructionLength? {code : List UInt8} {n : Nat}
    (h : instructionLength? code = some n) : 0 < n := by
  have hopcode : ∀ p rest len, opcodeLength p rest = some len → 0 < len := by
    intro p rest len hlen
    cases rest with
    | nil => cases hlen
    | cons b rest =>
      unfold opcodeLength at hlen
      dsimp only at hlen
      have hsucc : ∀ x : Option Nat, x.map (· + 1) = some len → 0 < len := by
        intro x hx
        obtain ⟨n, -, rfl⟩ := Option.map_eq_some_iff.mp hx
        exact Nat.succ_pos n
      split at hlen
      · exact hsucc _ hlen
      · split at hlen
        · split at hlen
          · cases hlen
          · split at hlen
            · exact hsucc _ hlen
            · split at hlen
              · exact hsucc _ hlen
              · exact hsucc _ hlen
        · exact hsucc _ hlen
  unfold instructionLength? at h
  dsimp only at h
  generalize splitPrefixes Prefixes.none (code.take maxLength) = split at h
  obtain ⟨len, hlen, h⟩ := Option.bind_eq_some_iff.mp h
  have := hopcode _ _ _ hlen
  split at h
  · cases h
    omega
  · cases h

/-- No instruction is longer than the code that it starts. -/
theorem le_of_instructionLength? {code : List UInt8} {n : Nat}
    (h : instructionLength? code = some n) : n ≤ code.length := by
  unfold instructionLength? at h
  dsimp only at h
  generalize splitPrefixes Prefixes.none (code.take maxLength) = split at h
  obtain ⟨len, -, h⟩ := Option.bind_eq_some_iff.mp h
  split at h
  · next hle =>
    cases h
    exact Nat.le_trans hle (List.length_take_le' ..)
  · cases h

/-- Instructions that cover code cover as much as was asked for. -/
theorem le_of_coverFrom {address : UInt64} {wanted fuel done total : Nat} {code : List UInt8}
    (hfuel : code.length < fuel) (h : coverFrom address wanted fuel done code = .ok total) :
    wanted ≤ total := by
  induction fuel generalizing done code with
  | zero => omega
  | succ fuel ih =>
    unfold coverFrom at h
    split at h
    · next hle =>
      cases h
      exact hle
    · split at h
      · obtain ⟨stop, -, h⟩ := Outcome.bind_eq_ok_iff.mp h
        cases h
      · split at h
        · cases h
        · next n hn =>
          have := pos_of_instructionLength? hn
          have := le_of_instructionLength? hn
          exact ih (by rw [List.length_drop]; omega) h

/-- Instructions at the start of code cover as much as was asked for. -/
theorem le_of_covered {code : Bytes} {address : UInt64} {wanted total : Nat}
    (h : covered code address wanted = .ok total) : wanted ≤ total :=
  le_of_coverFrom (Nat.lt_succ_self _) h

end X86

/-- A technique has room for its jump. -/
def Technique.IsRoomy : Technique → Prop
  | .direct covered => X86.jumpSize ≤ covered
  | .indirection => True

/-- A direct jump, where it is an option, has room. -/
def TechniqueOptions.IsRoomy (o : TechniqueOptions) : Prop :=
  ∀ covered, o.direct = some covered → X86.jumpSize ≤ covered

namespace FunctionSite

/-- The techniques for a function have room. -/
theorem isRoomy_of_evaluate {s : FunctionSite} {ips : List UInt64} {o : TechniqueOptions}
    (h : s.evaluate ips = .ok o) : o.IsRoomy := by
  have hnone : ∀ indirection, TechniqueOptions.IsRoomy ⟨none, indirection⟩ := by
    intro indirection covered hcovered
    cases hcovered
  unfold evaluate at h
  split at h
  · obtain ⟨inside, -, h⟩ := Outcome.bind_eq_ok_iff.mp h
    cases h
    exact hnone _
  · split at h
    · obtain ⟨found, hfound, h⟩ := Outcome.bind_eq_ok_iff.mp h
      cases found with
      | none =>
        cases h
        exact hnone _
      | some covered =>
        obtain ⟨direct, hdirect, h⟩ := Outcome.bind_eq_ok_iff.mp h
        obtain ⟨indirection, -, h⟩ := Outcome.bind_eq_ok_iff.mp h
        cases h
        have hcovered : X86.jumpSize ≤ covered := by
          unfold covered? at hfound
          split at hfound
          · next hok =>
            cases hfound
            exact X86.le_of_covered hok
          · cases hfound
          · cases hfound
        rintro n hn
        unfold directJump at hdirect
        split at hdirect
        · obtain ⟨inside, -, hdirect⟩ := Outcome.bind_eq_ok_iff.mp hdirect
          split at hdirect
          · cases hdirect
            cases hn
          · cases hdirect
            cases hn
            exact hcovered
        · cases hdirect
          cases hn
    · obtain ⟨indirection, -, h⟩ := Outcome.bind_eq_ok_iff.mp h
      cases h
      exact hnone _

end FunctionSite

namespace TechniqueOptions

private theorem le_foldl_max (spans : List Nat) (n : Nat) : n ≤ spans.foldl max n := by
  induction spans generalizing n with
  | nil => exact Nat.le_refl n
  | cons span spans ih => exact Nat.le_trans (Nat.le_max_left n span) (ih _)

/-- One technique for several processes has the room that those for single ones have. -/
theorem isRoomy_of_combine {options : List TechniqueOptions} {t : Technique}
    (hroomy : ∀ o ∈ options, o.IsRoomy) (h : combine options = some t) : t.IsRoomy := by
  unfold combine at h
  split at h
  · cases h
  · next hne =>
    split at h
    · next hall =>
      cases h
      cases options with
      | nil => simp at hne
      | cons o options =>
        have hsome := List.all_eq_true.mp hall o (List.mem_cons_self ..)
        obtain ⟨covered, hcovered⟩ := Option.isSome_iff_exists.mp hsome
        have hle := hroomy o (List.mem_cons_self ..) covered hcovered
        change X86.jumpSize ≤ ((o :: options).filterMap TechniqueOptions.direct).foldl max 0
        rw [List.filterMap_cons_some hcovered, List.foldl_cons]
        exact Nat.le_trans hle (Nat.le_trans (Nat.le_max_right 0 covered) (le_foldl_max _ _))
    · split at h
      · cases h
        trivial
      · cases h

end TechniqueOptions
end LivePatch
