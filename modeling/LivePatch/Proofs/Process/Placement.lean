import LivePatch.Process.Placement
import LivePatch.Proofs.Outcome
import LivePatch.Proofs.Process.Leeway

/-!
# Where a search for room ends

The search near a module looks at all multiples of the granularity on either side of it, as far as a
range there and the module span no more than two gigabytes together. So it only misses ranges that
are out of reach. The check that a loaded patch has to pass is stricter by one byte: a range that
spans exactly two gigabytes with the module is found and then refused.
-/

namespace LivePatch

namespace Word

theorem add64?_eq_some_iff {a b c : UInt64} :
    add64? a b = some c ↔ c.toNat = a.toNat + b.toNat := by
  have hc := c.toNat_lt
  unfold add64?
  split
  · next hlt =>
    rw [Option.some.injEq, ← UInt64.toNat_inj, UInt64.toNat_add, Nat.mod_eq_of_lt hlt]
    exact eq_comm
  · next hnot => exact ⟨(fun h ↦ by cases h), fun h ↦ by omega⟩

theorem sub64?_eq_some_iff {a b c : UInt64} :
    sub64? a b = some c ↔ c.toNat + b.toNat = a.toNat := by
  unfold sub64?
  split
  · next hle =>
    have hle' := UInt64.le_iff_toNat_le.mp hle
    rw [Option.some.injEq, ← UInt64.toNat_inj, UInt64.toNat_sub_of_le _ _ hle]
    omega
  · next hnot =>
    have hlt : ¬ b.toNat ≤ a.toNat := fun h ↦ hnot (UInt64.le_iff_toNat_le.mpr h)
    exact ⟨(fun h ↦ by cases h), fun h ↦ by omega⟩

/-- A sum that fits is the sum of some word. -/
theorem exists_toNat_eq {n : Nat} (h : n < 0x10000000000000000) : ∃ w : UInt64, w.toNat = n :=
  ⟨UInt64.ofNat n, UInt64.toNat_ofNat_of_lt' h⟩

/-- A difference that stops at zero. -/
theorem toNat_monus64 (a b : UInt64) : (monus64 a b).toNat = a.toNat - b.toNat := by
  unfold monus64
  split
  · next hle => exact UInt64.toNat_sub_of_le _ _ hle
  · next hnot =>
    have hlt : ¬ b.toNat ≤ a.toNat := fun h ↦ hnot (UInt64.le_iff_toNat_le.mpr h)
    rw [UInt64.toNat_zero]
    omega

/-- Clearing the bits below the granularity. -/
private theorem toNat_cleared (w : UInt64) :
    (w &&& ~~~(Target.granularity - 1)).toNat = w.toNat / 0x10000 * 0x10000 := by
  have hmask : (~~~(Target.granularity - 1)).toNat = (2 ^ 48 - 1) * 2 ^ 16 := by decide
  have hlt : w.toNat < 2 ^ 64 := w.toNat_lt
  rw [UInt64.toNat_and, hmask]
  refine Nat.eq_of_testBit_eq fun i ↦ ?_
  have hpow : (0x10000 : Nat) = 2 ^ 16 := rfl
  rw [Nat.testBit_and, hpow, Nat.testBit_mul_two_pow, Nat.testBit_mul_two_pow,
    Nat.testBit_two_pow_sub_one, Nat.testBit_div_two_pow]
  by_cases hle : 16 ≤ i
  · have hback : i - 16 + 16 = i := Nat.sub_add_cancel hle
    rw [hback]
    by_cases hi : i < 64
    · simp [hle, show i - 16 < 48 by omega]
    · have hbit : w.toNat.testBit i = false :=
        Nat.testBit_lt_two_pow (Nat.lt_of_lt_of_le hlt (Nat.pow_le_pow_right (by decide) (by omega)))
      simp [hbit]
  · simp [hle]

/-- An address moved down to the granularity. -/
theorem toNat_of_alignDown? {address aligned : UInt64}
    (h : alignDown? address Target.granularity = some aligned) :
    aligned.toNat = address.toNat / 0x10000 * 0x10000 := by
  have hpower : isPowerOfTwo Target.granularity = true := by decide
  rw [alignDown?, if_pos hpower] at h
  cases h
  exact toNat_cleared address

/-- An address moved up to the granularity. -/
theorem toNat_of_alignUp? {address aligned : UInt64}
    (h : alignUp? address Target.granularity = some aligned) :
    aligned.toNat = (address.toNat + 0xffff) / 0x10000 * 0x10000 := by
  have hpower : isPowerOfTwo Target.granularity = true := by decide
  have hone : (1 : UInt64).toNat = 1 := rfl
  have hgranularity : Target.granularity.toNat = 0x10000 := rfl
  rw [alignUp?, if_pos hpower] at h
  obtain ⟨sum, hsum, h⟩ := Option.bind_eq_some_iff.mp h
  cases h
  have hsum := toNat_of_add64? hsum
  rw [hgranularity] at hsum
  rw [toNat_cleared, UInt64.toNat_sub_of_le _ _ (UInt64.le_iff_toNat_le.mpr (by omega)), hsum, hone]
  rfl

end Word

/-- Where regions do not reach into one another, a range is free if none reaches into it. -/
theorem Memory.isRangeFree_iff {m : Memory} {address size : UInt64}
    (hseparate : m.regions.Pairwise fun a b ↦ a.base.toNat + a.bytes.size ≤ b.base.toNat)
    (hbounded : ∀ r ∈ m.regions, r.base.toNat + r.bytes.size < 0x10000000000000000) :
    m.isRangeFree address size = .ok true ↔ address.toNat + size.toNat < 0x10000000000000000 ∧
      ∀ r ∈ m.regions, r.base.toNat + r.bytes.size ≤ address.toNat ∨
        address.toNat + size.toNat ≤ r.base.toNat := by
  unfold isRangeFree
  simp only [Outcome.bind_eq_ok_iff, Outcome.orFault_eq_ok_iff, Word.add64?_eq_some_iff]
  by_cases hlt : address.toNat + size.toNat < 0x10000000000000000
  swap
  · exact ⟨fun ⟨stop, hstop, _⟩ ↦ (hlt (hstop ▸ stop.toNat_lt)).elim, fun h ↦ (hlt h.1).elim⟩
  obtain ⟨stop, hstop⟩ := Word.exists_toNat_eq hlt
  have hbefore : ∀ r, r ∈ m.regions.filter (fun r ↦ r.base < stop) ↔
      r ∈ m.regions ∧ r.base.toNat < address.toNat + size.toNat := fun r ↦ by
    rw [List.mem_filter, decide_eq_true_eq, UInt64.lt_iff_toNat_lt, hstop]
  have hseparate := hseparate.filter fun r ↦ r.base < stop
  rw [and_iff_right hlt]
  have hstop' : ∀ w : UInt64, w.toNat = address.toNat + size.toNat ↔ w = stop := fun w ↦ by
    rw [← hstop, UInt64.toNat_inj]
  simp only [hstop', exists_eq_left]
  rcases List.eq_nil_or_concat (m.regions.filter fun r ↦ r.base < stop) with hnil | ⟨front, last, hlast⟩
  · rw [hnil]
    refine iff_of_true rfl fun r hr ↦ .inr (Nat.le_of_not_lt fun h ↦ ?_)
    have hmem := (hbefore r).mpr ⟨hr, h⟩
    rw [hnil] at hmem
    cases hmem
  · rw [List.concat_eq_append] at hlast
    rw [hlast] at hbefore hseparate
    have hfront := (List.pairwise_append.mp hseparate).2.2
    have hmem := (hbefore last).mp (List.mem_append_right _ (List.mem_singleton_self _))
    obtain ⟨behind, hbehind⟩ := Word.exists_toNat_eq (hbounded last hmem.1)
    have hsum : Word.add64? last.base (UInt64.ofNat last.bytes.size) = some behind :=
      Word.add64?_eq_some_iff.mpr (by
        have := hbounded last hmem.1
        rw [hbehind, UInt64.toNat_ofNat_of_lt' (by rw [UInt64.size]; omega)])
    rw [hlast, List.getLast?_concat]
    simp only [hsum]
    change Except.ok (decide (behind ≤ address)) = Except.ok true ↔ _
    rw [Except.ok.injEq, decide_eq_true_eq, UInt64.le_iff_toNat_le, hbehind]
    refine ⟨fun hle r hr ↦ ?_, fun hall ↦ ?_⟩
    · by_cases hr' : r.base.toNat < address.toNat + size.toNat
      · rcases List.mem_append.mp ((hbefore r).mpr ⟨hr, hr'⟩) with hr | hr
        · have := hfront r hr last (List.mem_singleton_self _)
          exact .inl (by omega)
        · obtain rfl := List.mem_singleton.mp hr
          exact .inl hle
      · exact .inr (Nat.le_of_not_lt hr')
    · have := hall last hmem.1
      omega

/-- Asking whether a range is free leaves the memory alone. -/
theorem Target.triple_isRangeFree {m : Memory} (address size : UInt64) :
    Triple (·.memory = m) (Target.isRangeFree address size)
      (fun isFree t ↦ m.isRangeFree address size = .ok isFree ∧ t.memory = m) fun _ ↦ True := by
  have hpass : ∀ c, Keeps (fun t : Target ↦ t.memory = m) (pass c) := fun c ↦
    Keeps.of_run fun t ht ↦ by rwa [run_pass]
  refine (hpass _).bind_any fun _ ↦ Triple.bind_get fun t ht ↦
    Triple.lift (fun s isFree hs hfree ↦ ?_) fun _ _ ↦ trivial
  rw [hs, ht] at *
  exact ⟨hfree, rfl⟩

namespace Placement

variable {m : Memory} {base moduleSize size : UInt64}

/-- Two ranges are within reach of one another if they span less than two gigabytes together. -/
theorem isWithinReach_iff {base size otherBase otherSize : UInt64} :
    isWithinReach base size otherBase otherSize = .ok true ↔
      base.toNat + size.toNat < 0x10000000000000000 ∧
      otherBase.toNat + otherSize.toNat < 0x10000000000000000 ∧
      size.toNat < 0x80000000 ∧ otherSize.toNat < 0x80000000 ∧
      base.toNat + size.toNat < otherBase.toNat + 0x80000000 ∧
      otherBase.toNat + otherSize.toNat < base.toNat + 0x80000000 := by
  have hrange : range.toNat = 0x80000000 := rfl
  unfold isWithinReach
  simp only [Outcome.bind_eq_ok_iff, Outcome.orFault_eq_ok_iff, Word.add64?_eq_some_iff,
    Word.sub64?_eq_some_iff, UInt64.toNat_max, UInt64.toNat_min]
  constructor
  · rintro ⟨stop, hstop, otherStop, hother, distance, hdistance, h⟩
    have hlt := UInt64.lt_iff_toNat_lt.mp (of_decide_eq_true (Except.ok.inj h))
    have := stop.toNat_lt
    have := otherStop.toNat_lt
    omega
  · rintro ⟨hlt, hother, hspan⟩
    obtain ⟨stop, hstop⟩ := Word.exists_toNat_eq hlt
    obtain ⟨otherStop, hother⟩ := Word.exists_toNat_eq hother
    obtain ⟨distance, hdistance⟩ := Word.exists_toNat_eq
      (show max stop.toNat otherStop.toNat - min base.toNat otherBase.toNat < _ by omega)
    refine ⟨stop, hstop, otherStop, hother, distance, by omega, congrArg Except.ok ?_⟩
    exact decide_eq_true (UInt64.lt_iff_toNat_lt.mpr (by omega))

/-- What a search among candidates for a free range of a size comes to. -/
def Finds (m : Memory) (size : UInt64) (among : UInt64 → Prop) : Option UInt64 → Prop
  | some place => among place ∧ m.isRangeFree place size = .ok true
  | none => ∀ place, among place → m.isRangeFree place size ≠ .ok true

/-- A candidate that is not free may be left out. -/
theorem Finds.of_next {among next : UInt64 → Prop} {first : UInt64} {found : Option UInt64}
    (h : Finds m size next found) (hfirst : m.isRangeFree first size = .ok false)
    (hsplit : ∀ place, among place ↔ place = first ∨ next place) : Finds m size among found := by
  cases found with
  | some place => exact ⟨(hsplit place).mpr (.inr h.1), h.2⟩
  | none =>
    intro place hplace
    rcases (hsplit place).mp hplace with rfl | hplace
    · rw [hfirst]
      exact fun heq ↦ by cases heq
    · exact h place hplace

/-- The search upward looks at every candidate up to the highest one. -/
theorem triple_upward {highest : UInt64} {fuel : Nat} {candidate : UInt64}
    (hfuel : highest.toNat < candidate.toNat + fuel * 0x10000) :
    Triple (·.memory = m) (upward size highest fuel candidate)
      (fun found t ↦ Finds m size (fun place ↦ candidate.toNat ≤ place.toNat ∧
        place.toNat ≤ highest.toNat ∧ place.toNat % 0x10000 = candidate.toNat % 0x10000) found ∧
        t.memory = m) fun _ ↦ True := by
  have hgranularity : Target.granularity.toNat = 0x10000 := rfl
  induction fuel generalizing candidate with
  | zero => exact Triple.pure fun _ ht ↦ ⟨fun place hplace ↦ by omega, ht⟩
  | succ fuel ih =>
    unfold upward
    generalize Target.granularity = granularity at hgranularity ⊢
    split
    · next hlt =>
      have hlt := UInt64.lt_iff_toNat_lt.mp hlt
      exact Triple.pure fun _ ht ↦ ⟨fun place hplace ↦ by omega, ht⟩
    · next hnot =>
      have hle : ¬ highest.toNat < candidate.toNat :=
        fun h ↦ hnot (UInt64.lt_iff_toNat_lt.mpr h)
      refine (Target.triple_isRangeFree candidate size).bind fun isFree ↦ ?_
      cases isFree with
      | true => exact Triple.pure fun _ ht ↦ ⟨⟨⟨Nat.le_refl _, by omega, rfl⟩, ht.1⟩, ht.2⟩
      | false =>
        refine Triple.bind_lift (fun next hnext ↦ ?_) fun _ _ ↦ trivial
        have hnext := Word.toNat_of_add64? (Outcome.orFault_eq_ok_iff.mp hnext)
        have hrest : highest.toNat < next.toNat + fuel * 0x10000 := by omega
        intro t ht
        refine ((ih hrest).mono (fun _ h ↦ h) (fun found s hs ↦ ?_) fun _ h ↦ h) t ht.2
        refine ⟨hs.1.of_next ht.1 fun place ↦ ?_, hs.2⟩
        rw [← UInt64.toNat_inj]
        omega

/-- The search downward looks at every candidate down to the lowest one, but for zero. -/
theorem triple_downward {lowest : UInt64} {fuel : Nat} {candidate : UInt64}
    (hfuel : candidate.toNat < lowest.toNat + fuel * 0x10000) :
    Triple (·.memory = m) (downward size lowest fuel candidate)
      (fun found t ↦ Finds m size (fun place ↦ place.toNat ≤ candidate.toNat ∧
        lowest.toNat ≤ place.toNat ∧ 0x10000 ≤ place.toNat ∧
        place.toNat % 0x10000 = candidate.toNat % 0x10000) found ∧ t.memory = m)
      fun _ ↦ True := by
  have hgranularity : Target.granularity.toNat = 0x10000 := rfl
  induction fuel generalizing candidate with
  | zero => exact Triple.pure fun _ ht ↦ ⟨fun place hplace ↦ by omega, ht⟩
  | succ fuel ih =>
    unfold downward
    generalize Target.granularity = granularity at hgranularity ⊢
    simp only [UInt64.lt_iff_toNat_lt, hgranularity]
    split
    · next hlt => exact Triple.pure fun _ ht ↦ ⟨fun place hplace ↦ by omega, ht⟩
    · next hnot =>
      refine (Target.triple_isRangeFree candidate size).bind fun isFree ↦ ?_
      cases isFree with
      | true => exact Triple.pure fun _ ht ↦ ⟨⟨⟨Nat.le_refl _, by omega, by omega, rfl⟩, ht.1⟩, ht.2⟩
      | false =>
        have hnext : (candidate - granularity).toNat = candidate.toNat - 0x10000 := by
          rw [UInt64.toNat_sub_of_le _ _ (UInt64.le_iff_toNat_le.mpr (by omega)), hgranularity]
        have hrest : (candidate - granularity).toNat < lowest.toNat + fuel * 0x10000 := by omega
        intro t ht
        refine ((ih hrest).mono (fun _ h ↦ h) (fun found s hs ↦ ?_) fun _ h ↦ h) t ht.2
        refine ⟨hs.1.of_next ht.1 fun place ↦ ?_, hs.2⟩
        rw [← UInt64.toNat_inj]
        omega

/-- The number of candidates reaches past the last of them. -/
private theorem lt_candidates (first last : UInt64) :
    last.toNat < first.toNat + candidates first last * 0x10000 := by
  have hgranularity : Target.granularity.toNat = 0x10000 := rfl
  rw [candidates, hgranularity]
  omega

/-- The addresses that the search near a module looks at. -/
structure IsCandidate (base moduleSize size place : UInt64) : Prop where
  aligned : place.toNat % 0x10000 = 0
  positive : 0x10000 ≤ place.toNat
  near : base.toNat + moduleSize.toNat ≤ place.toNat ∧
      place.toNat + size.toNat ≤ base.toNat + 0x80000000 ∨
    place.toNat + size.toNat ≤ base.toNat ∧
      base.toNat + moduleSize.toNat ≤ place.toNat + 0x80000000

/-- The search near a module looks at the candidates on both sides of it. -/
theorem triple_freeRegionNear (hmodule : 0 < moduleSize) :
    Triple (·.memory = m) (freeRegionNear base moduleSize size)
      (fun found t ↦ (Finds m size (IsCandidate base moduleSize size) found ∧
        base.toNat + moduleSize.toNat < 0x10000000000000000 ∧
        base.toNat + 0x80000000 < 0x10000000000000000) ∧ t.memory = m)
      fun _ ↦ True := by
  have hmodule := UInt64.lt_iff_toNat_lt.mp hmodule
  have hrange : range.toNat = 0x80000000 := rfl
  unfold freeRegionNear
  have hcandidates := lt_candidates
  generalize hgranularity : Target.granularity = granularity
  generalize range = range, candidates = count at hrange hcandidates ⊢
  refine Triple.bind_lift (fun stop hstop ↦ Triple.bind_lift (fun reach hreach ↦ ?_)
    fun _ _ ↦ trivial) fun _ _ ↦ trivial
  have hstop := Word.toNat_of_add64? (Outcome.orFault_eq_ok_iff.mp hstop)
  have hreach := Word.toNat_of_add64? (Outcome.orFault_eq_ok_iff.mp hreach)
  have hstop' := stop.toNat_lt
  have hreach' := reach.toNat_lt
  have hhighest := Word.toNat_monus64 reach size
  have hlowest := Word.toNat_monus64 stop range
  dsimp only
  refine Triple.bind_lift (fun first hfirst ↦ ?_) fun _ _ ↦ trivial
  have hfirst := Word.toNat_of_alignUp? (hgranularity ▸ Outcome.orFault_eq_ok_iff.mp hfirst)
  refine (triple_upward (hcandidates first _)).bind fun found ↦ ?_
  rw [UInt64.toNat_zero] at hmodule
  cases found with
  | some place =>
    refine Triple.pure fun t ht ↦ ⟨⟨⟨?_, ht.1.2⟩, by omega, by omega⟩, ht.2⟩
    obtain ⟨⟨hle, hplace, haligned⟩, -⟩ := ht.1
    exact ⟨by omega, by omega, .inl ⟨by omega, by omega⟩⟩
  | none =>
    refine Triple.bind_lift (fun last hlast ↦ ?_) fun _ _ ↦ trivial
    have hlast := Word.toNat_of_alignDown? (hgranularity ▸ Outcome.orFault_eq_ok_iff.mp hlast)
    rw [Word.toNat_monus64] at hlast
    intro t ht
    refine ((triple_downward (hcandidates _ last)).mono (fun _ h ↦ h) (fun found s hs ↦ ?_)
      (fun _ h ↦ h)) t ht.2
    refine ⟨⟨?_, by omega, by omega⟩, hs.2⟩
    cases found with
    | some place =>
      obtain ⟨⟨hle, hplace, hpositive, haligned⟩, hfree⟩ := hs.1
      exact ⟨⟨by omega, hpositive, .inr ⟨by omega, by omega⟩⟩, hfree⟩
    | none =>
      intro place hplace
      rcases hplace.near with hnear | hnear
      · exact ht.1 place ⟨by have := hplace.aligned; omega, by omega, by have := hplace.aligned; omega⟩
      · exact hs.1 place ⟨by have := hplace.aligned; omega, by omega, hplace.positive,
          by have := hplace.aligned; omega⟩

/-- A multiple of the granularity at which a free range of a size starts that does not reach into
the module. -/
structure IsPlace (m : Memory) (base moduleSize size place : UInt64) : Prop where
  aligned : place.toNat % Target.granularity.toNat = 0
  free : m.isRangeFree place size = .ok true
  apart : place.toNat + size.toNat ≤ base.toNat ∨
    base.toNat + moduleSize.toNat ≤ place.toNat

variable {t t' : Target} {found : Option UInt64}

/-- A range that is found near a module is a free one beside it, and only those that are out of
reach are missed. It is itself in reach unless it spans exactly two gigabytes with the module. -/
theorem found_place_is_in_reach_iff (hmodule : 0 < moduleSize)
    (hrun : (freeRegionNear base moduleSize size).run t = (.ok found, t')) :
    match found with
    | some place => 0x10000 ≤ place.toNat ∧ IsPlace t.memory base moduleSize size place ∧
        (isWithinReach base moduleSize place size = .ok true ↔
          place.toNat + size.toNat ≠ base.toNat + 0x80000000 ∧
          base.toNat + moduleSize.toNat ≠ place.toNat + 0x80000000)
    | none => ∀ place : UInt64, 0x10000 ≤ place.toNat →
        IsPlace t.memory base moduleSize size place →
        isWithinReach base moduleSize place size ≠ .ok true := by
  obtain ⟨⟨hfinds, hstop, hreach⟩, -⟩ :=
    (triple_freeRegionNear (m := t.memory) hmodule).ok rfl hrun
  have hgranularity : Target.granularity.toNat = 0x10000 := rfl
  have hmodule := UInt64.lt_iff_toNat_lt.mp hmodule
  cases found with
  | some place =>
    obtain ⟨⟨haligned, hpositive, hnear⟩, hfree⟩ := hfinds
    refine ⟨hpositive, ⟨haligned, hfree, by omega⟩, ?_⟩
    rw [isWithinReach_iff]
    omega
  | none =>
    intro place hpositive hplace hwithin
    have hapart := hplace.apart
    obtain ⟨-, -, -, -, hup, hdown⟩ := isWithinReach_iff.mp hwithin
    exact hfinds place ⟨hplace.aligned, hpositive, by omega⟩ hplace.free

/-- A range above a module is taken, so the search finds the next one. -/
theorem place_behind_region_is_in_reach :
    let t := (Target.ofPid 1).map 0x140010000 (Array.replicate 0x10 0)
    (0 : UInt64) < 0x3000 ∧
    ∃ t', (freeRegionNear 0x140000000 0x3000 0x10000).run t = (.ok (some 0x140020000), t') ∧
      IsPlace t.memory 0x140000000 0x3000 0x10000 0x140020000 ∧
      isWithinReach 0x140000000 0x3000 0x140020000 0x10000 = .ok true := by
  intro t
  have hrun : (freeRegionNear 0x140000000 0x3000 0x10000).run t
      = (.ok (some 0x140020000), ((freeRegionNear 0x140000000 0x3000 0x10000).run t).2) :=
    Prod.ext (by decide +kernel) rfl
  obtain ⟨-, hplace, hreach⟩ := found_place_is_in_reach_iff (by decide) hrun
  exact ⟨by decide, _, hrun, hplace, hreach.mpr (by decide)⟩

/-- A module of almost two gigabytes. The only range that the search looks at above it spans exactly
two gigabytes with the module and is free, so the search ends there, although the range below the
module is free and in reach. -/
theorem search_prefers_place_out_of_reach :
    ((freeRegionNear 0x140000000 0x7ffe1000 0x10000).run (Target.ofPid 1)).1
        = .ok (some 0x1bfff0000) ∧
      isWithinReach 0x140000000 0x7ffe1000 0x1bfff0000 0x10000 = .ok false ∧
      isWithinReach 0x140000000 0x7ffe1000 0x13fff0000 0x10000 = .ok true ∧
      IsPlace (Target.ofPid 1).memory 0x140000000 0x7ffe1000 0x10000 0x13fff0000 :=
  ⟨by decide +kernel, by decide +kernel, by decide +kernel,
    by decide +kernel, by decide +kernel, by decide +kernel⟩

end Placement
end LivePatch
