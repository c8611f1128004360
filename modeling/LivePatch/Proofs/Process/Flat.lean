import LivePatch.Proofs.Memory.Writes
import LivePatch.Proofs.Process.Parking
import LivePatch.Proofs.Process.Placement
import Mathlib.Data.List.Pairwise

/-!
# Memory as one row of bytes

Accesses look at one region only, the last one that starts at or before their address. Where regions
hold bytes and none of them reaches into another, that is the region the address belongs to: memory
is one row of bytes with gaps in it. A range can be written when it lies in one region, reading gives
what was written last, and a range is free when it is all gap.
-/

namespace LivePatch

/-- A byte of a region stands at an address. -/
def Region.Holds (r : Region) (address : Nat) : Prop :=
  r.base.toNat ≤ address ∧ address < r.base.toNat + r.bytes.size

namespace Memory

/-- Regions that are not empty, hold no address together and end inside of the address space. -/
structure IsFlat (m : Memory) : Prop where
  filled : ∀ r ∈ m.regions, r.bytes.size ≠ 0
  disjoint : m.regions.Pairwise fun a b ↦ ∀ address, a.Holds address → ¬b.Holds address
  bounded : ∀ r ∈ m.regions, r.base.toNat + r.bytes.size < 0x10000000000000000

/-- A byte of a region stands at an address, and which. -/
def HasByte (m : Memory) (address : Nat) (b : UInt8) : Prop :=
  ∃ r ∈ m.regions, r.base.toNat ≤ address ∧ r.bytes[address - r.base.toNat]? = some b

/-- A range lies inside one region. -/
def HasRange (m : Memory) (address : UInt64) (size : Nat) : Prop :=
  ∃ r ∈ m.regions, r.base.toNat ≤ address.toNat ∧
    address.toNat + size ≤ r.base.toNat + r.bytes.size

/-- Bytes that were read at an address, with those of a write in place of them where it overlaps. -/
def overlaid (write : UInt64 × Bytes) (address : UInt64) (old : Bytes) : Bytes :=
  old.mapIdx fun i b ↦
    if write.1.toNat ≤ address.toNat + i then
      write.2[address.toNat + i - write.1.toNat]?.getD b else b

theorem getElem?_overlaid (write : UInt64 × Bytes) (address : UInt64) (old : Bytes) (i : Nat) :
    (overlaid write address old)[i]? = old[i]?.map fun b ↦
      if write.1.toNat ≤ address.toNat + i then
        write.2[address.toNat + i - write.1.toNat]?.getD b else b :=
  Array.getElem?_mapIdx

variable {m m' : Memory}

/-- The region of an access is the last one that starts at or before its address. -/
theorem candidate?_eq_some {address : UInt64} {r : Region} (hr : r ∈ m.regions)
    (hle : r.base ≤ address) (hlast : ∀ q ∈ m.regions, q.base ≤ address → q.base ≤ r.base) :
    m.candidate? address = some r := by
  have hmem : r ∈ m.regions.filter fun q ↦ q.base ≤ address :=
    List.mem_filter.mpr ⟨hr, by simpa using hle⟩
  cases hc : m.candidate? address with
  | none =>
    rw [List.getLast?_eq_none_iff.mp hc] at hmem
    cases hmem
  | some q =>
    obtain ⟨front, hfront⟩ := List.getLast?_eq_some_iff.mp hc
    have hsorted : (front ++ [q]).Pairwise fun a b ↦ a.base < b.base :=
      hfront ▸ m.ordered.filter _
    rw [hfront] at hmem
    rcases List.mem_append.mp hmem with hearlier | hlast'
    · have hlt := (List.pairwise_append.mp hsorted).2.2 r hearlier q (List.mem_singleton_self q)
      obtain ⟨hq, hqle⟩ := mem_of_candidate? hc
      exact absurd hlt (UInt64.not_lt.mpr (hlast q hq hqle))
    · rw [List.mem_singleton.mp hlast']

/-- An access that is refused is refused alike in memories that agree. -/
theorem AgreesOff.window_eq_error {P : Places} (h : m.AgreesOff P m') {address : UInt64}
    {len : Nat} {stop : Stop} (hw : m.window address len = .error stop) :
    m'.window address len = .error stop := by
  unfold Memory.window at hw ⊢
  cases hc : m.candidate? address with
  | some r =>
    obtain ⟨r', hc', hr⟩ := h.candidate? hc
    rw [hc] at hw
    rw [hc']
    dsimp only at hw ⊢
    rw [← hr.base, ← hr.size]
    cases hsum : Word.addSize? (address - r.base).toNat len with
    | none =>
      rw [hsum] at hw
      exact hw
    | some stop =>
      rw [hsum] at hw
      by_cases hinside : stop ≤ r.bytes.size
      · simp [hinside, orFault, bind, Except.bind, pure, Except.pure] at hw
      · simpa [hinside, orFault, bind, Except.bind] using hw
  | none =>
    have hc' : m'.candidate? address = none := by
      cases hc' : m'.candidate? address with
      | none => rfl
      | some r' =>
        obtain ⟨r, hr, -⟩ := h.symm.candidate? hc'
        rw [hc] at hr
        cases hr
    rw [hc] at hw
    rw [hc', ← hw]

/-- Regions are flat that end before the next one starts. -/
theorem isFlat_of_separate (hfilled : ∀ r ∈ m.regions, r.bytes.size ≠ 0)
    (hseparate : m.regions.Pairwise fun a b ↦ a.base.toNat + a.bytes.size ≤ b.base.toNat)
    (hbounded : ∀ r ∈ m.regions, r.base.toNat + r.bytes.size < 0x10000000000000000) :
    m.IsFlat :=
  ⟨hfilled, hseparate.imp fun hle _ ha hb ↦
    absurd (Nat.lt_of_lt_of_le ha.2 hle) (Nat.not_lt.mpr hb.1), hbounded⟩

namespace IsFlat

variable (h : m.IsFlat)
include h

/-- Of two regions the one that starts first ends before the other starts. -/
theorem separate : m.regions.Pairwise fun a b ↦ a.base.toNat + a.bytes.size ≤ b.base.toNat := by
  have hfilled : m.regions.Pairwise fun _ b ↦ b.bytes.size ≠ 0 :=
    List.pairwise_of_forall_mem_list fun _ _ b hb ↦ h.filled b hb
  refine ((m.ordered.and h.disjoint).and hfilled).imp fun {a b} hab ↦ ?_
  obtain ⟨⟨hlt, hdisjoint⟩, hsize⟩ := hab
  have hlt := UInt64.lt_iff_toNat_lt.mp hlt
  by_contra hover
  exact hdisjoint b.base.toNat ⟨Nat.le_of_lt hlt, by omega⟩ ⟨Nat.le_refl _, by omega⟩

/-- Two regions that hold one address are one. -/
theorem eq_of_holds {a b : Region} (ha : a ∈ m.regions) (hb : b ∈ m.regions) {address : Nat}
    (hholds : a.Holds address) (hholds' : b.Holds address) : a = b := by
  by_contra hne
  have hsymm : Std.Symm fun a b : Region ↦ ∀ address, a.Holds address → ¬b.Holds address :=
    ⟨fun _ _ h address hb ha ↦ h address ha hb⟩
  exact h.disjoint.forall ha hb hne address hholds hholds'

/-- An access goes through in the region that holds its range. -/
theorem window_eq_ok_iff {address : UInt64} {len : Nat} (hlen : len ≠ 0) {r : Region}
    {start : Nat} :
    m.window address len = .ok (r, start) ↔ r ∈ m.regions ∧ r.base.toNat + start = address.toNat ∧
      start + len ≤ r.bytes.size := by
  rw [Memory.window_eq_ok_iff]
  constructor
  · rintro ⟨hc, rfl, -, hinside⟩
    obtain ⟨hr, hle⟩ := mem_of_candidate? hc
    have := UInt64.le_iff_toNat_le.mp hle
    rw [UInt64.toNat_sub_of_le _ _ hle] at hinside ⊢
    exact ⟨hr, by omega, hinside⟩
  · rintro ⟨hr, hstart, hinside⟩
    have hle : r.base ≤ address := UInt64.le_iff_toNat_le.mpr (by omega)
    have hbound := h.bounded r hr
    refine ⟨candidate?_eq_some hr hle fun q hq hqle ↦ ?_, ?_, by omega, hinside⟩
    · -- a region that started later would hold what this one holds
      have hqle := UInt64.le_iff_toNat_le.mp hqle
      by_contra hlt
      have hlt := UInt64.lt_iff_toNat_lt.mp (UInt64.not_le.mp hlt)
      have hsize := h.filled q hq
      have hsame := h.eq_of_holds hr hq (show r.Holds q.base.toNat from ⟨by omega, by omega⟩)
        ⟨Nat.le_refl _, by omega⟩
      rw [hsame] at hlt
      exact Nat.lt_irrefl _ hlt
    · rw [UInt64.toNat_sub_of_le _ _ hle]
      omega

/-- A read goes through when its range lies in one region, and answers what stands there. -/
theorem read_eq_ok_iff {address : UInt64} {len : Nat} (hlen : len ≠ 0) {bytes : Bytes} :
    m.read address len = .ok bytes ↔ m.HasRange address len ∧ bytes.size = len ∧
      ∀ k b, bytes[k]? = some b → m.HasByte (address.toNat + k) b := by
  rw [Memory.read_eq_ok_iff]
  constructor
  · rintro ⟨r, start, hwindow, rfl⟩
    obtain ⟨hr, hstart, hinside⟩ := (h.window_eq_ok_iff hlen).mp hwindow
    refine ⟨⟨r, hr, by omega, by omega⟩, by rw [Array.size_extract]; omega,
      fun k b hk ↦ ⟨r, hr, by omega, ?_⟩⟩
    rw [Array.getElem?_extract] at hk
    split at hk
    · rw [← hk]
      congr 1
      omega
    · cases hk
  · rintro ⟨⟨r, hr, hle, hinside⟩, hsize, hbytes⟩
    refine ⟨r, address.toNat - r.base.toNat,
      (h.window_eq_ok_iff hlen).mpr ⟨hr, by omega, by omega⟩, Array.ext_getElem? fun k ↦ ?_⟩
    rw [Array.getElem?_extract]
    split
    · next hk =>
      -- the region of a byte is the one that the range lies in
      have hsome : bytes[k]? = some bytes[k] := Array.getElem?_eq_getElem (by omega)
      obtain ⟨q, hq, hqle, hqb⟩ := hbytes k _ hsome
      obtain ⟨hqlt, -⟩ := Array.getElem?_eq_some_iff.mp hqb
      have hholds : q.Holds (address.toNat + k) := ⟨hqle, by omega⟩
      have hsame : q = r := h.eq_of_holds hq hr hholds ⟨by omega, by omega⟩
      rw [hsome, ← hqb, hsame]
      congr 1
      omega
    · exact Array.getElem?_eq_none (by omega)

/-- Every range inside of one region can be read. -/
theorem exists_read {address : UInt64} {len : Nat} (hlen : len ≠ 0)
    (hrange : m.HasRange address len) : ∃ bytes, m.read address len = .ok bytes := by
  obtain ⟨r, hr, hle, hinside⟩ := hrange
  exact ⟨_, Memory.read_eq_ok_iff.mpr
    ⟨r, _, (h.window_eq_ok_iff hlen).mpr ⟨hr, Nat.add_sub_cancel' hle, by omega⟩, rfl⟩⟩

/-- A write goes through when its range lies in one region. -/
theorem exists_write_iff {address : UInt64} {bytes : Bytes} (hbytes : bytes.size ≠ 0) :
    (∃ m', m.write address bytes = .ok m') ↔ m.HasRange address bytes.size := by
  constructor
  · rintro ⟨m', hwrite⟩
    obtain ⟨r, start, hwindow, -⟩ := write_eq_ok_iff.mp hwrite
    obtain ⟨hr, hstart, hinside⟩ := (h.window_eq_ok_iff hbytes).mp hwindow
    exact ⟨r, hr, by omega, by omega⟩
  · rintro ⟨r, hr, hle, hinside⟩
    have hwindow : m.window address bytes.size = .ok (r, address.toNat - r.base.toNat) :=
      (h.window_eq_ok_iff hbytes).mpr ⟨hr, by omega, by omega⟩
    exact ⟨_, write_eq_ok_iff.mpr ⟨r, _, hwindow, rfl⟩⟩

/-- What a write puts into the range of an access. -/
theorem put?_of_window {write : UInt64 × Bytes} {q : Region} {begin : Nat}
    (hwrite : m.window write.1 write.2.size = .ok (q, begin)) {address : UInt64} {len : Nat}
    {r : Region} {start : Nat} (hwindow : m.window address len = .ok (r, start)) {k : Nat}
    (hk : k < len) :
    m.put? write r.base (start + k) = if write.1.toNat ≤ address.toNat + k then
      write.2[address.toNat + k - write.1.toNat]? else none := by
  obtain ⟨hr, hstart, hinside⟩ := (h.window_eq_ok_iff (by omega)).mp hwindow
  obtain ⟨hc, rfl, -, hinside'⟩ := Memory.window_eq_ok_iff.mp hwrite
  obtain ⟨hq, hle⟩ := mem_of_candidate? hc
  have hsub := UInt64.toNat_sub_of_le _ _ hle
  have hle := UInt64.le_iff_toNat_le.mp hle
  rw [put?, hwrite]
  dsimp only
  by_cases hbase : q.base = r.base
  · -- both ranges lie in one region, where places follow each other as addresses do
    rw [hbase] at hle hsub ⊢
    by_cases hfrom : write.1.toNat ≤ address.toNat + k
    · have hplace : start + k - (write.1 - r.base).toNat = address.toNat + k - write.1.toNat := by
        omega
      rw [if_pos ⟨rfl, by omega⟩, if_pos hfrom, hplace]
    · rw [if_neg (by omega), if_neg hfrom]
  · -- an address in both ranges would be held by two regions
    rw [if_neg fun hin ↦ hbase hin.1]
    split
    · refine (Array.getElem?_eq_none (Nat.le_of_not_lt fun hlt ↦ hbase ?_)).symm
      have hholds : q.Holds (address.toNat + k) := ⟨by omega, by omega⟩
      rw [h.eq_of_holds hq hr hholds ⟨by omega, by omega⟩]
    · rfl

/-- Reading behind a write answers what was read before, with the written bytes in place of the old
ones where the ranges overlap. -/
theorem read_of_write {write : UInt64 × Bytes} (hwrite : m.write write.1 write.2 = .ok m')
    (address : UInt64) (len : Nat) :
    m'.read address len = (m.read address len).map (overlaid write address) := by
  have hagrees := agreesOff_write hwrite
  cases hread : m.read address len with
  | error stop =>
    have hrefused : m.window address len = .error stop := by
      rw [Memory.read] at hread
      cases hwindow : m.window address len with
      | error e =>
        rw [hwindow] at hread
        exact congrArg _ (Except.error.inj hread)
      | ok w =>
        rw [hwindow] at hread
        cases hread
    rw [Memory.read, hagrees.window_eq_error hrefused]
    rfl
  | ok old =>
    obtain ⟨hsize, r, start, hwindow, hbytes⟩ := read_eq_ok_iff_byteAt?.mp hread
    obtain ⟨r', hwindow', hr⟩ := hagrees.window hwindow
    obtain ⟨q, begin, hbegin, -⟩ := write_eq_ok_iff.mp hwrite
    refine read_eq_ok_iff_byteAt?.mpr
      ⟨by simp [overlaid, hsize], r', start, hwindow', fun k hk ↦ ?_⟩
    have hold : old[k]? = some old[k] := Array.getElem?_eq_getElem (hsize ▸ hk)
    rw [← hr.base, byteAt?_write hwrite, h.put?_of_window hbegin hwindow hk, hbytes k hk,
      getElem?_overlaid, hold, Option.map_some]
    split
    · cases write.2[address.toNat + k - write.1.toNat]? with
      | none => rfl
      | some b => rfl
    · rfl

/-- Memory stays flat when it is written to. -/
theorem write {address : UInt64} {bytes : Bytes} (hwrite : m.write address bytes = .ok m') :
    m'.IsFlat := by
  have hshape := (agreesOff_write hwrite).shape
  have hregion : ∀ r' ∈ m'.regions, ∃ r ∈ m.regions, r.base = r'.base ∧
      r.bytes.size = r'.bytes.size := fun r' hr' ↦ by
    have hmem : (r'.base, r'.bytes.size) ∈ m.regions.map fun r ↦ (r.base, r.bytes.size) :=
      hshape ▸ List.mem_map.mpr ⟨r', hr', rfl⟩
    obtain ⟨r, hr, heq⟩ := List.mem_map.mp hmem
    exact ⟨r, hr, Prod.mk.inj heq⟩
  refine ⟨fun r' hr' ↦ ?_, ?_, fun r' hr' ↦ ?_⟩
  · obtain ⟨r, hr, -, hsize⟩ := hregion r' hr'
    exact hsize ▸ h.filled r hr
  · have hdisjoint : (m.regions.map fun r ↦ (r.base, r.bytes.size)).Pairwise fun a b ↦
        ∀ x, a.1.toNat ≤ x ∧ x < a.1.toNat + a.2 → ¬(b.1.toNat ≤ x ∧ x < b.1.toNat + b.2) :=
      List.pairwise_map.mpr h.disjoint
    exact List.pairwise_map.mp (hshape ▸ hdisjoint)
  · obtain ⟨r, hr, hbase, hsize⟩ := hregion r' hr'
    exact hbase ▸ hsize ▸ h.bounded r hr

/-- Asking whether a range is free answers whether it holds no byte of any region. -/
theorem exists_isRangeFree {address size : UInt64} (hsize : 0 < size.toNat)
    (hstop : address.toNat + size.toNat < 0x10000000000000000) :
    ∃ isFree, m.isRangeFree address size = .ok isFree ∧ (isFree = true ↔
      ∀ r ∈ m.regions, ∀ x, address.toNat ≤ x → x < address.toNat + size.toNat → ¬r.Holds x) := by
  have hanswers : ∃ isFree, m.isRangeFree address size = .ok isFree := by
    obtain ⟨stop, hsum⟩ := Word.exists_toNat_eq hstop
    rw [isRangeFree, Word.add64?_eq_some_iff.mpr hsum]
    simp only [orFault, bind, Except.bind]
    split
    · exact ⟨true, rfl⟩
    · next r hlast =>
      have hr : r ∈ m.regions := List.mem_of_mem_filter (List.mem_of_getLast? hlast)
      have hbound := h.bounded r hr
      obtain ⟨last, hsum⟩ := Word.exists_toNat_eq hbound
      have hend : Word.add64? r.base (UInt64.ofNat r.bytes.size) = some last :=
        Word.add64?_eq_some_iff.mpr (by
          rw [hsum, UInt64.toNat_ofNat_of_lt' (by rw [UInt64.size]; omega)])
      rw [hend]
      exact ⟨_, rfl⟩
  obtain ⟨isFree, hfree⟩ := hanswers
  have hiff : m.isRangeFree address size = .ok true ↔ _ := isRangeFree_iff h.separate h.bounded
  rw [hfree, Except.ok.injEq] at hiff
  refine ⟨isFree, hfree, hiff.trans ⟨fun hfree r hr x hlo hhi hholds ↦ ?_, fun hnone ↦
    ⟨hstop, fun r hr ↦ ?_⟩⟩⟩
  · have := hfree.2 r hr
    obtain ⟨hbase, hend⟩ := hholds
    omega
  · -- the first address that a range and a region that meet have in common
    have hfilled := h.filled r hr
    by_contra hmeet
    exact hnone r hr (max address.toNat r.base.toNat) (by omega) (by omega) ⟨by omega, by omega⟩

end IsFlat

end Memory

namespace Target

variable {t : Target}

theorem run_readMemory_of_passes (hgate : t.gate.RefusesThreadsOnly) (address : UInt64)
    (len : Nat) : (readMemory address len).run t
      = (t.memory.read address len, { t with gate := t.gate.counted .readMemory }) := by
  simp only [readMemory, run_bind, run_pass_of_passes (hgate ⟨.readMemory, none⟩ _ rfl), run_get,
    run_lift]

/-- The memory of a process whose regions hold bytes, hold none together and end inside of the
address space is one row of bytes with gaps in it. Bytes are read when their range lies in one
region, and are those that stand there; otherwise reading fails. Bytes are written when their range
lies in one region, and then they are read back, and every range reads as before but for the bytes
that were written; a write that fails changes nothing. And a range is free when no byte of any
region lies in it. -/
theorem memory_is_row_of_bytes (hgate : t.gate.RefusesThreadsOnly) (hflat : t.memory.IsFlat) :
    (∀ address len, len ≠ 0 →
      (t.memory.HasRange address len → ∃ bytes, (readMemory address len).run t
          = (.ok bytes, { t with gate := t.gate.counted .readMemory }) ∧ bytes.size = len ∧
        ∀ k b, bytes[k]? = some b → t.memory.HasByte (address.toNat + k) b) ∧
      (¬t.memory.HasRange address len → ∃ stop, (readMemory address len).run t
        = (.error stop, { t with gate := t.gate.counted .readMemory }))) ∧
    (∀ address bytes, bytes.size ≠ 0 →
      (t.memory.HasRange address bytes.size → ∃ t',
        (writeMemory address bytes).run t = (.ok (), t') ∧ t'.memory.IsFlat ∧
        ((readMemory address bytes.size).run t').1 = .ok bytes ∧
        ∀ start len, ((readMemory start len).run t').1
          = ((readMemory start len).run t).1.map (Memory.overlaid (address, bytes) start)) ∧
      (¬t.memory.HasRange address bytes.size → ∃ stop, (writeMemory address bytes).run t
        = (.error stop, { t with gate := t.gate.counted .writeMemory }))) ∧
    ∀ address size : UInt64, 0 < size.toNat →
      address.toNat + size.toNat < 0x10000000000000000 →
      ∃ isFree, (isRangeFree address size).run t
          = (.ok isFree, { t with gate := t.gate.counted .isRangeFree }) ∧
        (isFree = true ↔ ∀ r ∈ t.memory.regions, ∀ x, address.toNat ≤ x →
          x < address.toNat + size.toNat → ¬r.Holds x) := by
  refine ⟨fun address len hlen ↦ ⟨fun hrange ↦ ?_, fun hrange ↦ ?_⟩,
    fun address bytes hbytes ↦ ⟨fun hrange ↦ ?_, fun hrange ↦ ?_⟩,
    fun address size hsize hstop ↦ ?_⟩
  · obtain ⟨bytes, hread⟩ := hflat.exists_read hlen hrange
    obtain ⟨-, hsize, hstands⟩ := (hflat.read_eq_ok_iff hlen).mp hread
    refine ⟨bytes, ?_, hsize, hstands⟩
    rw [run_readMemory_of_passes hgate, hread]
  · rw [run_readMemory_of_passes hgate]
    cases hread : t.memory.read address len with
    | ok bytes => exact absurd ((hflat.read_eq_ok_iff hlen).mp hread).1 hrange
    | error stop => exact ⟨stop, rfl⟩
  · obtain ⟨m', hwrite⟩ := (hflat.exists_write_iff hbytes).mpr hrange
    have hwrite' : t.memory.write (address, bytes).1 (address, bytes).2 = .ok m' := hwrite
    obtain ⟨t', hrun, hgate', rfl⟩ : ∃ t', (writeMemory address bytes).run t = (.ok (), t') ∧
        t'.gate.RefusesThreadsOnly ∧ t'.memory = m' :=
      ⟨_, run_writeMemory hgate hwrite, fun c n ↦ hgate c n, rfl⟩
    refine ⟨t', hrun, hflat.write hwrite, ?_, fun start len ↦ ?_⟩
    · rw [run_readMemory_of_passes hgate']
      exact Memory.has_of_write hwrite'
    · rw [run_readMemory_of_passes hgate, run_readMemory_of_passes hgate']
      exact hflat.read_of_write hwrite' start len
  · cases hwrite : t.memory.write address bytes with
    | ok m' => exact absurd ((hflat.exists_write_iff hbytes).mp ⟨m', hwrite⟩) hrange
    | error stop =>
      refine ⟨stop, ?_⟩
      simp only [writeMemory, run_bind, run_pass_of_passes (hgate ⟨.writeMemory, none⟩ _ rfl),
        run_get, run_lift, hwrite]
  · obtain ⟨isFree, hfree, hiff⟩ := hflat.exists_isRangeFree hsize hstop
    refine ⟨isFree, ?_, hiff⟩
    simp only [isRangeFree, run_bind, run_pass_of_passes (hgate ⟨.isRangeFree, none⟩ _ rfl),
      run_get, run_lift, hfree]

/-- A process with two regions that meet and a gap in front of them. -/
def adjoining : Target := ((ofPid 7).map 0x1000 (Bytes.fill 4 1)).map 0x1004 (Bytes.fill 4 2)

/-- Regions that meet do not join: what is written into one of them is read there, and a write that
reaches into both changes nothing. -/
theorem adjoining_regions_do_not_join :
    (∃ t', (writeMemory 0x1005 #[7, 8]).run adjoining = (.ok (), t') ∧
      ((readMemory 0x1004 4).run t').1 = .ok #[2, 7, 8, 2]) ∧
    (∃ stop, (writeMemory 0x1003 #[7, 8]).run adjoining
      = (.error stop, { adjoining with gate := adjoining.gate.counted .writeMemory })) ∧
    (isRangeFree 0xff0 0x10).run adjoining
      = (.ok true, { adjoining with gate := adjoining.gate.counted .isRangeFree }) := by
  have hflat : adjoining.memory.IsFlat :=
    Memory.isFlat_of_separate (by decide) (by decide) (by decide)
  have hrow := memory_is_row_of_bytes (t := adjoining) (fun _ _ _ ↦ rfl) hflat
  refine ⟨?_, ?_, ?_⟩
  · obtain ⟨t', hrun, -, -, hread⟩ := (hrow.2.1 0x1005 #[7, 8] (by decide)).1
      ⟨⟨0x1004, Bytes.fill 4 2⟩, by decide, by decide, by decide⟩
    exact ⟨t', hrun, (hread 0x1004 4).trans (by decide)⟩
  · refine (hrow.2.1 0x1003 #[7, 8] (by decide)).2 ?_
    rintro ⟨r, hr, hrange⟩
    revert r
    decide
  · obtain ⟨isFree, hrun, hfree⟩ := hrow.2.2 0xff0 0x10 (by decide) (by decide)
    rw [hrun, hfree.mpr]
    intro r hr x hlo hhi hholds
    have hbases : ∀ r ∈ adjoining.memory.regions, 0x1000 ≤ r.base.toNat := by decide
    exact absurd (Nat.le_trans (hbases r hr) hholds.1) (Nat.not_le.mpr hhi)

end Target
end LivePatch
