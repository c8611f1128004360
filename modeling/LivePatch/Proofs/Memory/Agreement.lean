import LivePatch.Proofs.Memory.Access

/-!
# Agreement of memories

Two memories with the same regions agree off a set of places when every byte outside the set is the
same in both. Whether an access is let through depends on the regions alone, so it is let through in
both or in neither. A write shrinks the set by its window, which is why putting bytes back undoes
whatever happened inside the windows they came from.
-/

namespace LivePatch

/-- Places in memory, each given by the base of its region and its offset there. -/
abbrev Places := UInt64 → Nat → Prop

namespace Places

/-- No place. -/
def none : Places := fun _ _ ↦ False

/-- Every place of the region that starts at a base. -/
def region (base : UInt64) : Places := fun b _ ↦ b = base

end Places

/-- Two regions that differ at most at certain places. -/
structure Region.AgreesOff (P : Places) (r r' : Region) : Prop where
  base : r.base = r'.base
  size : r.bytes.size = r'.bytes.size
  bytes : ∀ i, ¬P r.base i → r.bytes[i]? = r'.bytes[i]?

namespace Memory

/-- Two memories with the same regions that differ at most at certain places. -/
def AgreesOff (P : Places) (m m' : Memory) : Prop :=
  List.Forall₂ (Region.AgreesOff P) m.regions m'.regions

/-- The places that an access touches. -/
def Touches (m : Memory) (address : UInt64) (len : Nat) : Places := fun base i ↦
  ∃ r start, m.window address len = .ok (r, start) ∧ r.base = base ∧ start ≤ i ∧ i < start + len

namespace AgreesOff

variable {P Q : Places} {m m' m'' : Memory}

/-- A memory agrees with itself. -/
theorem refl (P : Places) (m : Memory) : m.AgreesOff P m :=
  List.forall₂_same.mpr fun _ _ ↦ ⟨rfl, rfl, fun _ _ ↦ rfl⟩

/-- Agreement goes both ways. -/
theorem symm (h : m.AgreesOff P m') : m'.AgreesOff P m := by
  refine (List.Forall₂.imp ?_ h).flip
  rintro r r' ⟨hb, hs, he⟩
  exact ⟨hb.symm, hs.symm, fun i hi ↦ (he i (hb ▸ hi)).symm⟩

/-- Memories that differ at certain places differ at most at more. -/
theorem mono (h : m.AgreesOff P m') (hPQ : ∀ r ∈ m.regions, ∀ i, P r.base i → Q r.base i) :
    m.AgreesOff Q m' := by
  refine List.Forall₂.imp ?_ (List.forall₂_and_left _ _ |>.mpr ⟨fun r hr ↦ hr, h⟩)
  rintro r r' ⟨hr, hb, hs, he⟩
  exact ⟨hb, hs, fun i hi ↦ he i fun hP ↦ hi (hPQ r hr i hP)⟩

/-- Agreement passes through a memory in between. -/
theorem trans (h : m.AgreesOff P m') (h' : m'.AgreesOff P m'') : m.AgreesOff P m'' := by
  unfold AgreesOff at *
  generalize m.regions = l, m'.regions = l', m''.regions = l'' at *
  induction h generalizing l'' with
  | nil =>
    cases h'
    exact .nil
  | cons hr _ ih =>
    cases h' with
    | cons hr' ht =>
      refine .cons ⟨hr.base.trans hr'.base, hr.size.trans hr'.size, fun i hi ↦ ?_⟩ (ih _ ht)
      exact (hr.bytes i hi).trans (hr'.bytes i (hr.base ▸ hi))

/-- Memories that agree off no place are one. -/
theorem eq (h : m.AgreesOff .none m') : m = m' := by
  have : m.regions = m'.regions := by
    refine List.forall₂_eq_eq_eq ▸ List.Forall₂.imp ?_ h
    rintro ⟨b, x⟩ ⟨b', x'⟩ ⟨hb, -, he⟩
    cases hb
    have hx : x = x' := Array.ext_getElem? fun i ↦ he i id
    rw [hx]
  exact Memory.ext this

/-- Memories that agree have regions of the same sizes at the same addresses. -/
theorem shape (h : m.AgreesOff P m') :
    m.regions.map (fun r ↦ (r.base, r.bytes.size))
      = m'.regions.map fun r ↦ (r.base, r.bytes.size) := by
  rw [← List.forall₂_eq_eq_eq, List.forall₂_map_left_iff, List.forall₂_map_right_iff]
  exact List.Forall₂.imp (fun _ _ hr ↦ by rw [hr.base, hr.size]) h

/-- Memories that agree start their regions at the same addresses. -/
theorem bases (h : m.AgreesOff P m') : m.regions.map Region.base = m'.regions.map Region.base := by
  have := congrArg (List.map Prod.fst) h.shape
  rwa [List.map_map, List.map_map] at this

/-- Whether a region starts at a base is the same in memories that agree. -/
theorem isMapped (h : m.AgreesOff P m') (base : UInt64) :
    m.isMapped base = m'.isMapped base := by
  have : ∀ m : Memory, m.isMapped base = (m.regions.map Region.base).any (· == base) := by
    intro m
    rw [List.any_map]
    rfl
  rw [this, this, h.bases]

/-- Parts of memories that agree, chosen by the bases of regions. -/
private theorem filter (h : m.AgreesOff P m') (p : UInt64 → Bool) :
    List.Forall₂ (Region.AgreesOff P) (m.regions.filter fun r ↦ p r.base)
      (m'.regions.filter fun r ↦ p r.base) :=
  List.rel_filter (fun r r' hr ↦ by simp only [hr.base]) h

/-- An access concerns the same region of memories that agree. -/
theorem candidate? (h : m.AgreesOff P m') {address : UInt64} {r : Region}
    (hr : m.candidate? address = some r) :
    ∃ r', m'.candidate? address = some r' ∧ r.AgreesOff P r' := by
  have hrev := List.forall₂_reverse_iff.mpr (h.filter fun base ↦ base ≤ address)
  unfold Memory.candidate? at *
  rw [List.getLast?_eq_head?_reverse] at *
  generalize (m.regions.filter _).reverse = l, (m'.regions.filter _).reverse = l' at *
  cases hrev with
  | nil => simp at hr
  | cons hhead _ =>
    cases hr
    exact ⟨_, rfl, hhead⟩

/-- An access is let through in memories that agree alike. -/
theorem window (h : m.AgreesOff P m') {address : UInt64} {len : Nat} {r : Region} {start : Nat}
    (hw : m.window address len = .ok (r, start)) :
    ∃ r', m'.window address len = .ok (r', start) ∧ r.AgreesOff P r' := by
  obtain ⟨hc, rfl, hlt, hle⟩ := window_eq_ok_iff.mp hw
  obtain ⟨r', hc', hr⟩ := h.candidate? hc
  refine ⟨r', window_eq_ok_iff.mpr ⟨hc', by rw [hr.base], hlt, hr.size ▸ hle⟩, hr⟩

/-- An access touches the same places of memories that agree. -/
theorem touches (h : m.AgreesOff P m') (address : UInt64) (len : Nat) :
    m.Touches address len = m'.Touches address len := by
  funext base i
  apply propext
  constructor
  · rintro ⟨r, start, hw, rfl, hlo, hhi⟩
    obtain ⟨r', hw', hr⟩ := h.window hw
    exact ⟨r', start, hw', hr.base.symm, hlo, hhi⟩
  · rintro ⟨r, start, hw, rfl, hlo, hhi⟩
    obtain ⟨r', hw', hr⟩ := h.symm.window hw
    exact ⟨r', start, hw', hr.base.symm, hlo, hhi⟩

/-- A read answers the same bytes of memories that agree where it touches them. -/
theorem read (h : m.AgreesOff P m') {address : UInt64} {len : Nat} {bytes : Bytes}
    (hP : ∀ base i, m.Touches address len base i → ¬P base i)
    (hr : m.read address len = .ok bytes) : m'.read address len = .ok bytes := by
  obtain ⟨r, start, hw, rfl⟩ := read_eq_ok_iff.mp hr
  obtain ⟨r', hw', hrr⟩ := h.window hw
  refine read_eq_ok_iff.mpr ⟨r', start, hw', ?_⟩
  apply Array.ext_getElem?
  intro i
  rw [Array.getElem?_extract, Array.getElem?_extract, hrr.size]
  split
  · next hi =>
    exact hrr.bytes _ (hP _ _ ⟨r, start, hw, rfl, by omega, by omega⟩)
  · rfl

/-- The same write into memories that agree makes them agree on its window too. -/
theorem write (h : m.AgreesOff P m') {address : UInt64} {bytes : Bytes}
    {n : Memory} (hw : m.write address bytes = .ok n) :
    ∃ n', m'.write address bytes = .ok n' ∧
      n.AgreesOff (fun base i ↦ P base i ∧ ¬m.Touches address bytes.size base i) n' := by
  obtain ⟨r, start, hwin, rfl⟩ := write_eq_ok_iff.mp hw
  obtain ⟨r', hwin', hr⟩ := h.window hwin
  refine ⟨_, write_eq_ok_iff.mpr ⟨r', start, hwin', rfl⟩, ?_⟩
  obtain ⟨hc, -, -, hle⟩ := window_eq_ok_iff.mp hwin
  unfold AgreesOff modifyAt
  rw [List.forall₂_map_left_iff, List.forall₂_map_right_iff]
  refine List.Forall₂.imp ?_ ((List.forall₂_and_left _ _).mpr ⟨fun q hq ↦ hq, h⟩)
  rintro q q' ⟨hq, hqq⟩
  rw [← hr.base, ← hqq.base]
  by_cases hb : q.base = r.base
  · rw [if_pos hb, if_pos hb]
    have hqr : q = r := eq_of_base hq (mem_of_candidate? hc).1 hb
    subst hqr
    have hle' : start + bytes.size ≤ q'.bytes.size := hqq.size ▸ hle
    refine ⟨rfl, by rw [Bytes.size_overwrite hle, Bytes.size_overwrite hle', hqq.size], ?_⟩
    intro i hi
    by_cases hin : start ≤ i ∧ i < start + bytes.size
    · rw [Bytes.getElem?_overwrite_of_inside hle hin.1 hin.2,
        Bytes.getElem?_overwrite_of_inside hle' hin.1 hin.2]
    · rw [Bytes.getElem?_overwrite_of_outside hle (by omega),
        Bytes.getElem?_overwrite_of_outside hle' (by omega)]
      refine hqq.bytes i fun hP ↦ hi ⟨hP, ?_⟩
      rintro ⟨c, start', hwin'', -, hlo, hhi⟩
      rw [hwin] at hwin''
      cases hwin''
      exact hin ⟨hlo, hhi⟩
  · rw [if_neg hb, if_neg hb]
    refine ⟨hqq.base, hqq.size, fun i hi ↦ hqq.bytes i fun hP ↦ hi ⟨hP, ?_⟩⟩
    rintro ⟨c, start', hwin'', hbase, -, -⟩
    rw [hwin] at hwin''
    cases hwin''
    exact hb hbase.symm

/-- Unmapping a region of memories that agree leaves nothing of it to differ. -/
theorem unmap (h : m.AgreesOff P m') (base : UInt64) :
    (m.unmap base).AgreesOff (fun b i ↦ P b i ∧ b ≠ base) (m'.unmap base) := by
  refine mono (h.filter fun b ↦ b != base) fun r hr i hP ↦ ⟨hP, ?_⟩
  simpa using (List.mem_filter.mp hr).2

/-- Mapping the same bytes into memories that agree. -/
theorem map (h : m.AgreesOff P m') (base : UInt64) (bytes : Bytes) :
    (m.map base bytes).AgreesOff P (m'.map base bytes) :=
  List.rel_append (h.filter fun b ↦ b < base)
    (.cons ⟨rfl, rfl, fun _ _ ↦ rfl⟩ (h.filter fun b ↦ base < b))

end AgreesOff

/-- A write changes memory at most in its window. -/
theorem agreesOff_write {m m' : Memory} {address : UInt64} {bytes : Bytes}
    (hw : m.write address bytes = .ok m') :
    m.AgreesOff (m.Touches address bytes.size) m' := by
  obtain ⟨r, start, hwin, rfl⟩ := write_eq_ok_iff.mp hw
  obtain ⟨hc, -, -, hle⟩ := window_eq_ok_iff.mp hwin
  unfold AgreesOff modifyAt
  rw [List.forall₂_map_right_iff, List.forall₂_same]
  intro q hq
  split
  · next hb =>
    have hqr : q = r := eq_of_base hq (mem_of_candidate? hc).1 hb
    subst hqr
    refine ⟨rfl, (Bytes.size_overwrite hle).symm, fun i hi ↦ ?_⟩
    symm
    apply Bytes.getElem?_overwrite_of_outside hle
    by_contra hin
    exact hi ⟨q, start, hwin, rfl, by omega, by omega⟩
  · exact ⟨rfl, rfl, fun _ _ ↦ rfl⟩

/-- The start of what was written is read back. -/
theorem read_of_write {m m' : Memory} {address : UInt64} {bytes : Bytes} {len : Nat}
    (hw : m.write address bytes = .ok m') (hlen : len ≤ bytes.size) :
    m'.read address len = .ok (bytes.extract 0 len) := by
  obtain ⟨r, start, hwin, rfl⟩ := write_eq_ok_iff.mp hw
  obtain ⟨hc, hstart, hlt, hle⟩ := window_eq_ok_iff.mp hwin
  refine read_eq_ok_iff.mpr ⟨{ r with bytes := r.bytes.overwrite start bytes }, start,
    window_eq_ok_iff.mpr ⟨?_, hstart, by omega, ?_⟩, (Bytes.extract_overwrite hle hlen).symm⟩
  · unfold candidate? modifyAt at *
    rw [List.filter_map, List.getLast?_map]
    have hp : (fun q : Region ↦ decide (q.base ≤ address)) ∘ (fun q ↦ if q.base = r.base then
        { q with bytes := q.bytes.overwrite start bytes } else q)
        = fun q ↦ decide (q.base ≤ address) := by
      funext q
      simp only [Function.comp_apply]
      split <;> rfl
    rw [hp, hc]
    simp
  · simpa only [Bytes.size_overwrite hle] using by omega

private theorem filter_append_filter {base : UInt64} {regions : List Region}
    (hm : regions.Pairwise fun a b ↦ a.base < b.base) (hb : ∀ r ∈ regions, r.base ≠ base) :
    regions.filter (fun r ↦ r.base < base) ++ regions.filter (fun r ↦ base < r.base)
      = regions := by
  induction regions with
  | nil => rfl
  | cons r regions ih =>
    rw [List.pairwise_cons] at hm
    have hr : r.base ≠ base := hb r (List.mem_cons_self ..)
    by_cases hlt : r.base < base
    · have hge : ¬base < r.base := UInt64.lt_asymm hlt
      rw [List.filter_cons_of_pos (by simpa using hlt),
        List.filter_cons_of_neg (by simpa using hge), List.cons_append,
        ih hm.2 fun q hq ↦ hb q (List.mem_cons_of_mem r hq)]
    · have hgt : base < r.base := by
        have : r.base.toNat ≠ base.toNat := fun h ↦ hr (UInt64.toNat_inj.mp h)
        rw [UInt64.lt_iff_toNat_lt] at hlt ⊢
        omega
      have hall : ∀ q ∈ r :: regions, base < q.base := by
        intro q hq
        rcases List.mem_cons.mp hq with rfl | hq
        · exact hgt
        · exact UInt64.lt_trans hgt (hm.1 q hq)
      rw [List.filter_eq_nil_iff.mpr fun q hq ↦ by simpa using UInt64.le_of_lt (hall q hq),
        List.filter_eq_self.mpr fun q hq ↦ by simpa using hall q hq, List.nil_append]

/-- Mapping where nothing starts and unmapping again changes nothing. -/
theorem unmap_map {m : Memory} {base : UInt64} (hb : m.isMapped base = false)
    (bytes : Bytes) : (m.map base bytes).unmap base = m := by
  have hne : ∀ r ∈ m.regions, r.base ≠ base := by
    intro r hr heq
    have : m.isMapped base = true := List.any_eq_true.mpr ⟨r, hr, by simpa using heq⟩
    rw [hb] at this
    cases this
  have hlow : (m.regions.filter fun r ↦ r.base < base).filter (fun r ↦ r.base != base)
      = m.regions.filter fun r ↦ r.base < base :=
    List.filter_eq_self.mpr fun r hr ↦ by simpa using hne r (List.mem_filter.mp hr).1
  have hhigh : (m.regions.filter fun r ↦ base < r.base).filter (fun r ↦ r.base != base)
      = m.regions.filter fun r ↦ base < r.base :=
    List.filter_eq_self.mpr fun r hr ↦ by simpa using hne r (List.mem_filter.mp hr).1
  apply Memory.ext
  simp only [unmap, map]
  rw [List.filter_append, List.filter_cons_of_neg (by simp), hlow, hhigh,
    filter_append_filter m.ordered hne]

/-- Writes bytes at their addresses, one after another. -/
def writeAll : List (UInt64 × Bytes) → Memory → Outcome Memory
  | [], m => .ok m
  | (address, bytes) :: log, m => do writeAll log (← m.write address bytes)

/-- The places that writes touch. -/
def Covers (m : Memory) (log : List (UInt64 × Bytes)) : Places := fun base i ↦
  ∃ saved ∈ log, m.Touches saved.1 saved.2.size base i

/-- Writes begin with the first of them. -/
theorem writeAll_cons_eq_ok_iff {m n : Memory} {saved : UInt64 × Bytes}
    {log : List (UInt64 × Bytes)} :
    writeAll (saved :: log) m = .ok n ↔
      ∃ next, m.write saved.1 saved.2 = .ok next ∧ writeAll log next = .ok n := by
  rw [writeAll]
  cases m.write saved.1 saved.2 with
  | error e => simp [bind, Except.bind]
  | ok next => simp [bind, Except.bind]

/-- The same writes into memories that agree make them agree there too. -/
theorem AgreesOff.writeAll {P : Places} {m m' n : Memory} {log : List (UInt64 × Bytes)}
    (h : m.AgreesOff P m') (hr : Memory.writeAll log m = .ok n) :
    ∃ n', Memory.writeAll log m' = .ok n' ∧
      n.AgreesOff (fun base i ↦ P base i ∧ ¬m.Covers log base i) n' := by
  induction log generalizing P m m' with
  | nil =>
    cases hr
    refine ⟨m', rfl, h.mono fun r _ i hP ↦ ⟨hP, ?_⟩⟩
    rintro ⟨saved, hs, -⟩
    cases hs
  | cons saved log ih =>
    obtain ⟨next, hw, hr⟩ := writeAll_cons_eq_ok_iff.mp hr
    obtain ⟨next', hw', hnext⟩ := h.write hw
    obtain ⟨n', hr', hn⟩ := ih hnext hr
    refine ⟨n', writeAll_cons_eq_ok_iff.mpr ⟨next', hw', hr'⟩, hn.mono ?_⟩
    rintro r - i ⟨⟨hP, hhead⟩, htail⟩
    refine ⟨hP, ?_⟩
    rintro ⟨s, hs, ht⟩
    rcases List.mem_cons.mp hs with rfl | hs
    · exact hhead ht
    · refine htail ⟨s, hs, ?_⟩
      rwa [← (agreesOff_write hw).touches]

/-- A range that no region reaches into, but those that start at certain bases. An empty region
takes up its base. -/
def IsFree (m : Memory) (own : UInt64 → Prop) (base : UInt64) (size : Nat) : Prop :=
  ∀ r ∈ m.regions, own r.base ∨ r.base.toNat + max r.bytes.size 1 ≤ base.toNat ∨
    base.toNat + size ≤ r.base.toNat

instance (m : Memory) (own : UInt64 → Prop) [DecidablePred own] (base : UInt64) (size : Nat) :
    Decidable (m.IsFree own base size) :=
  inferInstanceAs (Decidable (∀ r ∈ m.regions, _))

/-- An access that starts in a range that is free but for certain regions concerns one of them. -/
theorem own_of_window {m : Memory} {own : UInt64 → Prop} {base : UInt64} {size : Nat}
    (hfree : m.IsFree own base size) (hmapped : m.isMapped base = true)
    {address : UInt64} (hlo : base.toNat ≤ address.toNat) (hhi : address.toNat < base.toNat + size)
    {len : Nat} {r : Region} {start : Nat} (hw : m.window address len = .ok (r, start)) :
    own r.base := by
  obtain ⟨hc, -, -, -⟩ := window_eq_ok_iff.mp hw
  obtain ⟨hr, hle⟩ := mem_of_candidate? hc
  rw [UInt64.le_iff_toNat_le] at hle
  rcases hfree r hr with hown | hbelow | habove
  · exact hown
  · -- the region that starts at the base comes later and is a candidate too
    exfalso
    obtain ⟨q, hq, hqb⟩ := List.any_eq_true.mp hmapped
    have hqb : q.base = base := by simpa using hqb
    unfold candidate? at hc
    obtain ⟨pre, hpre⟩ := List.getLast?_eq_some_iff.mp hc
    have hqmem : q ∈ m.regions.filter fun r ↦ r.base ≤ address := by
      refine List.mem_filter.mpr ⟨hq, ?_⟩
      rw [hqb, decide_eq_true_eq, UInt64.le_iff_toNat_le]
      exact hlo
    have hpair : (pre ++ [r]).Pairwise fun a b ↦ a.base < b.base := hpre ▸ m.ordered.filter _
    rw [hpre, List.mem_append, List.mem_singleton] at hqmem
    rcases hqmem with hqpre | rfl
    · have := (List.pairwise_append.mp hpair).2.2 q hqpre r (List.mem_singleton_self r)
      rw [UInt64.lt_iff_toNat_lt, hqb] at this
      omega
    · rw [hqb] at hbelow
      omega
  · omega

/-- Memories that agree have the same free ranges. -/
theorem AgreesOff.isFree {P : Places} {m m' : Memory} (h : m.AgreesOff P m')
    {own : UInt64 → Prop} {base : UInt64} {size : Nat} (hf : m.IsFree own base size) :
    m'.IsFree own base size := by
  intro r' hr'
  have hmem : (r'.base, r'.bytes.size) ∈ m.regions.map fun r ↦ (r.base, r.bytes.size) := by
    rw [h.shape]
    exact List.mem_map.mpr ⟨r', hr', rfl⟩
  obtain ⟨r, hr, heq⟩ := List.mem_map.mp hmem
  obtain ⟨hbase, hsize⟩ := Prod.mk.inj heq
  rw [← hbase, ← hsize]
  exact hf r hr

end Memory
end LivePatch
