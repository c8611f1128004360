import LivePatch.Proofs.Memory.Writes

/-!
# Memory that stays

A patch and the caves of its entry point come into a process where nothing is. As long as everything
that is mapped, unmapped and written lies there, the regions that were there before stay as they are,
and what is read from them stays the same.
-/

namespace LivePatch.Memory

/-- No region reaches an address. -/
abbrev IsClear (m : Memory) (address : UInt64) : Prop := m.IsFree (fun _ ↦ False) address 1

/-- All regions of a memory are in another one, and what else is there starts where it has none. -/
structure StaysIn (m m' : Memory) : Prop where
  regions : ∀ r ∈ m.regions, r ∈ m'.regions
  others : ∀ r ∈ m'.regions, r ∈ m.regions ∨ m.IsClear r.base

variable {m m' n : Memory} {address base : UInt64} {bytes : Bytes}

/-- Every address of a free range is clear. -/
theorem IsFree.isClear {size : Nat} (h : m.IsFree (fun _ ↦ False) base size)
    (hlo : base.toNat ≤ address.toNat) (hhi : address.toNat < base.toNat + size) :
    m.IsClear address := by
  intro r hr
  have := (h r hr).resolve_left id
  omega

/-- No region starts at a clear address. -/
theorem IsClear.ne {r : Region} (h : m.IsClear address) (hr : r ∈ m.regions) : r.base ≠ address := by
  rintro rfl
  have := (h r hr).resolve_left id
  omega

namespace StaysIn

/-- A memory stays in itself. -/
theorem refl (m : Memory) : m.StaysIn m := ⟨fun _ hr ↦ hr, fun _ hr ↦ .inl hr⟩

/-- What is mapped at a clear address leaves the regions alone. -/
theorem map (h : m.StaysIn m') (hclear : m.IsClear base) (bytes : Bytes) :
    m.StaysIn (m'.map base bytes) := by
  constructor
  · intro r hr
    have hne : r.base.toNat ≠ base.toNat := fun heq ↦ hclear.ne hr (UInt64.toNat_inj.mp heq)
    rcases Nat.lt_or_gt_of_ne hne with hlt | hgt
    · exact List.mem_append_left _ (List.mem_filter.mpr
        ⟨h.regions r hr, by simpa using UInt64.lt_iff_toNat_lt.mpr hlt⟩)
    · exact List.mem_append_right _ (List.mem_cons_of_mem _ (List.mem_filter.mpr
        ⟨h.regions r hr, by simpa using UInt64.lt_iff_toNat_lt.mpr hgt⟩))
  · intro r hr
    rcases List.mem_append.mp hr with hr | hr
    · exact h.others r (List.mem_filter.mp hr).1
    · rcases List.mem_cons.mp hr with rfl | hr
      · exact .inr hclear
      · exact h.others r (List.mem_filter.mp hr).1

/-- What is unmapped at a clear address is none of the regions. -/
theorem unmap (h : m.StaysIn m') (hclear : m.IsClear base) : m.StaysIn (m'.unmap base) :=
  ⟨fun r hr ↦ List.mem_filter.mpr ⟨h.regions r hr, by simpa using hclear.ne hr⟩,
    fun r hr ↦ h.others r (List.mem_filter.mp hr).1⟩

/-- What is written at a clear address lies in none of the regions. -/
theorem write (h : m.StaysIn m') (hclear : m.IsClear address)
    (hw : m'.write address bytes = .ok n) : m.StaysIn n := by
  obtain ⟨q, start, hwin, rfl⟩ := write_eq_ok_iff.mp hw
  obtain ⟨hc, hstart, -, hle⟩ := window_eq_ok_iff.mp hwin
  obtain ⟨hq, hbase⟩ := mem_of_candidate? hc
  have hoffset := UInt64.toNat_sub_of_le _ _ hbase
  rw [UInt64.le_iff_toNat_le] at hbase
  -- a region that stays could only be written behind its last byte, that is, not at all
  have hsame : ∀ r ∈ m.regions, (if r.base = q.base then
      { r with bytes := r.bytes.overwrite start bytes } else r) = r := by
    intro r hr
    split
    · next heq =>
      have hrq : r = q := eq_of_base (h.regions r hr) hq heq
      have := (hclear r hr).resolve_left id
      have hempty : bytes.size = 0 := by
        subst hrq
        omega
      have hbytes : bytes = #[] := Array.eq_empty_of_size_eq_zero hempty
      have hend : start ≤ r.bytes.size := by
        subst hrq
        omega
      rw [hbytes]
      simp [Bytes.overwrite, Nat.max_eq_right hend]
    · rfl
  constructor
  · intro r hr
    exact List.mem_map.mpr ⟨r, h.regions r hr, hsame r hr⟩
  · intro r hr
    obtain ⟨r', hr', rfl⟩ := List.mem_map.mp hr
    rcases h.others r' hr' with hr' | hr'
    · rw [hsame r' hr']
      exact .inl hr'
    · refine .inr ?_
      split
      · exact hr'
      · exact hr'

/-- What is read from the regions stays the same. -/
theorem read (h : m.StaysIn m') {len : Nat} (hlen : 0 < len)
    (hr : m.read address len = .ok bytes) : m'.read address len = .ok bytes := by
  obtain ⟨r, start, hwin, rfl⟩ := read_eq_ok_iff.mp hr
  obtain ⟨hc, hstart, hlt, hle⟩ := window_eq_ok_iff.mp hwin
  obtain ⟨hr, hbase⟩ := mem_of_candidate? hc
  refine read_eq_ok_iff.mpr ⟨r, start, window_eq_ok_iff.mpr ⟨?_, hstart, hlt, hle⟩, rfl⟩
  have hoffset := UInt64.toNat_sub_of_le _ _ hbase
  -- the region that an access concerns is the last one before it
  have hlast : ∀ {m : Memory} {q : Region}, m.candidate? address = some q →
      ∀ q' ∈ m.regions, q'.base ≤ address → q'.base ≤ q.base := by
    intro m q hq q' hq' hle'
    unfold candidate? at hq
    obtain ⟨pre, hpre⟩ := List.getLast?_eq_some_iff.mp hq
    have hmem : q' ∈ m.regions.filter fun r ↦ r.base ≤ address :=
      List.mem_filter.mpr ⟨hq', by simpa using hle'⟩
    have hpair : (pre ++ [q]).Pairwise fun a b ↦ a.base < b.base := hpre ▸ m.ordered.filter _
    rw [hpre] at hmem
    rcases List.mem_append.mp hmem with hmem | hmem
    · exact UInt64.le_of_lt ((List.pairwise_append.mp hpair).2.2 q' hmem q (List.mem_singleton_self q))
    · rw [List.mem_singleton.mp hmem]
      exact UInt64.le_refl _
  cases hc' : m'.candidate? address with
  | none =>
    unfold candidate? at hc'
    rw [List.getLast?_eq_none_iff, List.filter_eq_nil_iff] at hc'
    exact absurd (by simpa using hbase) (hc' r (h.regions r hr))
  | some q =>
    obtain ⟨hq, hqbase⟩ := mem_of_candidate? hc'
    have hrq := hlast hc' r (h.regions r hr) hbase
    rcases h.others q hq with hq | hclear
    · have hqr := hlast hc q hq hqbase
      rw [eq_of_base hq hr (UInt64.le_antisymm hqr hrq)]
    · exfalso
      have := (hclear r hr).resolve_left id
      rw [UInt64.le_iff_toNat_le] at hrq hqbase
      omega

/-- What is in memory stays there. -/
theorem has (h : m.StaysIn m') {saved : UInt64 × Bytes} (hsize : 0 < saved.2.size)
    (hhas : m.Has saved) : m'.Has saved := h.read hsize hhas

end StaysIn

end LivePatch.Memory
