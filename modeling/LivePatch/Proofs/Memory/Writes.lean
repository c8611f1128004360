import LivePatch.Proofs.Memory.Agreement
import LivePatch.Proofs.Outcome

/-!
# What writes leave

Writes that are made one after another leave at every place the byte of the last of them that
touches it. So what one write began with is still there at the end exactly when no later write put
another byte into it that stayed.
-/

namespace LivePatch.Memory

/-- The byte at a place. -/
def byteAt? (m : Memory) (base : UInt64) (i : Nat) : Option UInt8 :=
  (m.regions.find? fun r ↦ r.base == base).bind fun r ↦ r.bytes[i]?

/-- The byte that a write puts at a place, if it touches it. -/
def put? (m : Memory) (write : UInt64 × Bytes) (base : UInt64) (i : Nat) : Option UInt8 :=
  match m.window write.1 write.2.size with
  | .ok (r, start) => if r.base = base ∧ start ≤ i then write.2[i - start]? else none
  | .error _ => none

/-- The byte that writes leave at a place, if one of them touches it. -/
def left? (m : Memory) : List (UInt64 × Bytes) → UInt64 → Nat → Option UInt8
  | [], _, _ => none
  | write :: log, base, i => (m.left? log base i).or (m.put? write base i)

/-- The first bytes of a write. -/
def front (len : Nat) (write : UInt64 × Bytes) : UInt64 × Bytes :=
  (write.1, write.2.extract 0 len)

/-- The bytes of a write are in memory. -/
def Has (m : Memory) (write : UInt64 × Bytes) : Prop :=
  m.read write.1 write.2.size = .ok write.2

/-- What a write puts into memory is what all of the writes leave there. -/
def IsKept (m : Memory) (log : List (UInt64 × Bytes)) (write : UInt64 × Bytes) : Prop :=
  ∀ base i b, m.put? write base i = some b → m.left? log base i = some b

/-- Two writes whose ranges do not overlap. -/
def Apart (write write' : UInt64 × Bytes) : Prop :=
  write.1.toNat + write.2.size ≤ write'.1.toNat ∨ write'.1.toNat + write'.2.size ≤ write.1.toNat

instance (write write' : UInt64 × Bytes) : Decidable (Apart write write') :=
  inferInstanceAs (Decidable (_ ∨ _))

variable {m m' : Memory}

/-- The byte at a place of a region that is there. -/
theorem byteAt?_of_mem {r : Region} (hr : r ∈ m.regions) (i : Nat) :
    m.byteAt? r.base i = r.bytes[i]? := by
  unfold byteAt?
  cases hfind : m.regions.find? fun q ↦ q.base == r.base with
  | none =>
    have := List.find?_eq_none.mp hfind r hr
    simp at this
  | some q =>
    have hq : q.base = r.base := by simpa using List.find?_some hfind
    rw [eq_of_base (List.mem_of_find?_eq_some hfind) hr hq, Option.bind_some]

/-- A read answers the bytes at the places of its window. -/
theorem read_eq_ok_iff_byteAt? {address : UInt64} {len : Nat} {bytes : Bytes} :
    m.read address len = .ok bytes ↔ bytes.size = len ∧ ∃ r start,
      m.window address len = .ok (r, start) ∧
        ∀ k < len, m.byteAt? r.base (start + k) = bytes[k]? := by
  constructor
  · intro h
    refine ⟨size_of_read h, ?_⟩
    obtain ⟨r, start, hw, rfl⟩ := read_eq_ok_iff.mp h
    obtain ⟨hc, -, -, hle⟩ := window_eq_ok_iff.mp hw
    refine ⟨r, start, hw, fun k hk ↦ ?_⟩
    rw [byteAt?_of_mem (mem_of_candidate? hc).1, Array.getElem?_extract, if_pos (by omega)]
  · rintro ⟨hsize, r, start, hw, hbytes⟩
    obtain ⟨hc, -, -, hle⟩ := window_eq_ok_iff.mp hw
    refine read_eq_ok_iff.mpr ⟨r, start, hw, Array.ext_getElem? fun k ↦ ?_⟩
    rw [Array.getElem?_extract]
    by_cases hk : k < len
    · rw [if_pos (by omega), ← hbytes k hk, byteAt?_of_mem (mem_of_candidate? hc).1]
    · rw [if_neg (by omega), Array.getElem?_eq_none (by omega)]

/-- Memories that agree take a write at the same places. -/
theorem AgreesOff.put? {P : Places} (h : m.AgreesOff P m') (write : UInt64 × Bytes) :
    m.put? write = m'.put? write := by
  funext base i
  unfold Memory.put?
  cases hw : m.window write.1 write.2.size with
  | ok w =>
    obtain ⟨r, start⟩ := w
    obtain ⟨r', hw', hr⟩ := h.window hw
    rw [hw']
    simp only [hr.base]
  | error e =>
    cases hw' : m'.window write.1 write.2.size with
    | ok w =>
      obtain ⟨r, start⟩ := w
      obtain ⟨r', hw'', -⟩ := h.symm.window hw'
      rw [hw] at hw''
      cases hw''
    | error e' => rfl

/-- Memories that agree are left with the same bytes by the same writes. -/
theorem AgreesOff.left? {P : Places} (h : m.AgreesOff P m') (log : List (UInt64 × Bytes)) :
    m.left? log = m'.left? log := by
  funext base i
  induction log with
  | nil => rfl
  | cons write log ih => rw [Memory.left?, Memory.left?, ih, h.put?]

/-- A write changes the bytes that it puts into memory. -/
theorem byteAt?_write {write : UInt64 × Bytes} (h : m.write write.1 write.2 = .ok m')
    (base : UInt64) (i : Nat) :
    m'.byteAt? base i = (m.put? write base i).or (m.byteAt? base i) := by
  obtain ⟨r, start, hw, rfl⟩ := write_eq_ok_iff.mp h
  obtain ⟨hc, -, -, hle⟩ := window_eq_ok_iff.mp hw
  have hr := (mem_of_candidate? hc).1
  have hmap : (m.modifyAt r.base fun old ↦ old.overwrite start write.2).byteAt? base i
      = (m.regions.find? fun q ↦ q.base == base).bind fun q ↦
        (if q.base = r.base then q.bytes.overwrite start write.2 else q.bytes)[i]? := by
    unfold byteAt? modifyAt
    have hbase : ((fun q : Region ↦ q.base == base) ∘ fun q : Region ↦ if q.base = r.base then
        { q with bytes := q.bytes.overwrite start write.2 } else q) = fun q ↦ q.base == base := by
      funext q
      simp only [Function.comp_apply]
      split <;> rfl
    rw [List.find?_map, hbase, Option.bind_map]
    congr 1
    funext q
    simp only [Function.comp_apply]
    split <;> rfl
  rw [hmap]
  unfold put? byteAt?
  rw [hw]
  dsimp only
  cases hfind : m.regions.find? fun q ↦ q.base == base with
  | none =>
    have hne : r.base ≠ base := by simpa using List.find?_eq_none.mp hfind r hr
    rw [if_neg fun h ↦ hne h.1]
    rfl
  | some q =>
    have hq : q.base = base := by simpa using List.find?_some hfind
    simp only [Option.bind_some]
    by_cases hb : q.base = r.base
    · have hqr : q = r := eq_of_base (List.mem_of_find?_eq_some hfind) hr hb
      rw [if_pos hb, hqr]
      by_cases hin : start ≤ i ∧ i < start + write.2.size
      · rw [if_pos ⟨hqr ▸ hq, hin.1⟩, Bytes.getElem?_overwrite_of_inside hle hin.1 hin.2,
          Array.getElem?_eq_getElem (by omega), Option.some_or]
      · rw [Bytes.getElem?_overwrite_of_outside hle (by omega)]
        split
        · have hbehind : write.2[i - start]? = none := Array.getElem?_eq_none (by omega)
          rw [hbehind, Option.none_or]
        · rw [Option.none_or]
    · rw [if_neg hb, if_neg fun h ↦ hb (hq.trans h.1.symm), Option.none_or]

/-- A list of writes goes through memories that agree. -/
theorem agreesOff_writeAll {log : List (UInt64 × Bytes)} (h : writeAll log m = .ok m') :
    m.AgreesOff (m.Covers log) m' := by
  induction log generalizing m with
  | nil =>
    cases h
    exact .refl ..
  | cons write log ih =>
    obtain ⟨next, hw, hrest⟩ := writeAll_cons_eq_ok_iff.mp h
    have hnext := agreesOff_write hw
    refine (hnext.mono fun _ _ _ hi ↦ ⟨write, List.mem_cons_self .., hi⟩).trans
      ((ih hrest).mono ?_)
    rintro r - i ⟨saved, hs, hi⟩
    exact ⟨saved, List.mem_cons_of_mem _ hs, by rwa [hnext.touches]⟩

/-- Writes made one after another leave the last byte at every place. -/
theorem byteAt?_writeAll {log : List (UInt64 × Bytes)} (h : writeAll log m = .ok m')
    (base : UInt64) (i : Nat) :
    m'.byteAt? base i = (m.left? log base i).or (m.byteAt? base i) := by
  induction log generalizing m with
  | nil =>
    cases h
    rfl
  | cons write log ih =>
    obtain ⟨next, hw, hrest⟩ := writeAll_cons_eq_ok_iff.mp h
    rw [ih hrest, byteAt?_write hw, left?, (agreesOff_write hw).left?, Option.or_assoc]

/-- What a write puts somewhere, some write leaves there. -/
theorem isSome_left? {log : List (UInt64 × Bytes)} {write : UInt64 × Bytes} (hmem : write ∈ log)
    {base : UInt64} {i : Nat} (h : (m.put? write base i).isSome) :
    (m.left? log base i).isSome := by
  induction log with
  | nil => cases hmem
  | cons first log ih =>
    rw [left?, Option.isSome_or]
    rcases List.mem_cons.mp hmem with rfl | hmem
    · rw [h, Bool.or_true]
    · rw [ih hmem, Bool.true_or]

/-- Writes of a longer list begin with those of its first part. -/
theorem writeAll_append_eq_ok_iff {log log' : List (UInt64 × Bytes)} {n : Memory} :
    writeAll (log ++ log') m = .ok n ↔ ∃ next, writeAll log m = .ok next ∧ writeAll log' next = .ok n := by
  induction log generalizing m with
  | nil => simp [writeAll]
  | cons write log ih =>
    rw [List.cons_append, writeAll_cons_eq_ok_iff]
    constructor
    · rintro ⟨next, hw, h⟩
      obtain ⟨next', h, h'⟩ := ih.mp h
      exact ⟨next', writeAll_cons_eq_ok_iff.mpr ⟨next, hw, h⟩, h'⟩
    · rintro ⟨next', h, h'⟩
      obtain ⟨next, hw, h⟩ := writeAll_cons_eq_ok_iff.mp h
      exact ⟨next, hw, ih.mpr ⟨next', h, h'⟩⟩

/-- Every one of the writes that were made goes through in the memory they were made in. -/
theorem window_of_writeAll {log : List (UInt64 × Bytes)} (h : writeAll log m = .ok m')
    {write : UInt64 × Bytes} (hmem : write ∈ log) :
    ∃ r start, m.window write.1 write.2.size = .ok (r, start) := by
  induction log generalizing m with
  | nil => cases hmem
  | cons first log ih =>
    obtain ⟨next, hw, hrest⟩ := writeAll_cons_eq_ok_iff.mp h
    rcases List.mem_cons.mp hmem with rfl | hmem
    · obtain ⟨r, start, hwin, -⟩ := write_eq_ok_iff.mp hw
      exact ⟨r, start, hwin⟩
    · obtain ⟨r, start, hwin⟩ := ih hrest hmem
      obtain ⟨r', hwin', -⟩ := (agreesOff_write hw).symm.window hwin
      exact ⟨r', start, hwin'⟩

/-- The size of the front of a write. -/
theorem size_front (len : Nat) (write : UInt64 × Bytes) :
    (front len write).2.size = min len write.2.size := Array.size_extract

/-- The bytes of the front of a write. -/
theorem getElem?_front {len : Nat} {write : UInt64 × Bytes} {k : Nat}
    (hk : k < (front len write).2.size) : (front len write).2[k]? = write.2[k]? := by
  rw [size_front] at hk
  rw [front, Array.getElem?_extract, if_pos (by omega), Nat.zero_add]

/-- The front of a write is in memory at the end exactly when the writes leave it there. -/
theorem has_front_iff_isKept {log : List (UInt64 × Bytes)} (h : writeAll log m = .ok m')
    {write : UInt64 × Bytes} (hmem : write ∈ log) (len : Nat) :
    m'.Has (front len write) ↔ m.IsKept log (front len write) := by
  obtain ⟨r, start, hwhole⟩ := window_of_writeAll h hmem
  obtain ⟨hc, hstart, hlt, hle⟩ := window_eq_ok_iff.mp hwhole
  have hsize := size_front len write
  have hwin : m.window (front len write).1 (front len write).2.size = .ok (r, start) :=
    window_eq_ok_iff.mpr ⟨hc, hstart, by omega, by omega⟩
  have hput : ∀ base i, m.put? (front len write) base i
      = if r.base = base ∧ start ≤ i then (front len write).2[i - start]? else none := by
    intro base i
    rw [put?, hwin]
  -- where the front was put, the writes left some byte
  have hleft : ∀ k < (front len write).2.size,
      m'.byteAt? r.base (start + k) = m.left? log r.base (start + k) := by
    intro k hk
    have hsome : (m.put? write r.base (start + k)).isSome := by
      rw [put?, hwhole]
      dsimp only
      rw [if_pos ⟨rfl, by omega⟩, Nat.add_sub_cancel_left, Array.getElem?_eq_getElem (by omega)]
      rfl
    obtain ⟨b, hb⟩ := Option.isSome_iff_exists.mp (isSome_left? hmem hsome)
    rw [byteAt?_writeAll h, hb, Option.some_or]
  obtain ⟨r', hwin', hr'⟩ := (agreesOff_writeAll h).window hwin
  rw [Has, read_eq_ok_iff_byteAt?]
  constructor
  · rintro ⟨-, q, start', hq, hbytes⟩ base i b hb
    rw [hwin'] at hq
    cases hq
    rw [hput] at hb
    split at hb
    · next hin =>
      obtain ⟨rfl, hge⟩ := hin
      have hk : i - start < (front len write).2.size := (Array.getElem?_eq_some_iff.mp hb).1
      have hi : start + (i - start) = i := by omega
      rw [← hi, ← hleft _ hk, hr'.base, hbytes _ hk, hb]
    · cases hb
  · intro hkept
    refine ⟨rfl, r', start, hwin', fun k hk ↦ ?_⟩
    rw [← hr'.base, hleft k hk, Array.getElem?_eq_getElem hk]
    refine hkept r.base (start + k) _ ?_
    rw [hput, if_pos ⟨rfl, by omega⟩, Nat.add_sub_cancel_left, Array.getElem?_eq_getElem hk]

/-- Where a write puts a byte. -/
theorem put?_eq_some_iff {write : UInt64 × Bytes} {base : UInt64} {i : Nat} {b : UInt8} :
    m.put? write base i = some b ↔ ∃ r, m.window write.1 write.2.size
      = .ok (r, write.1.toNat - base.toNat) ∧ r.base = base ∧ base.toNat ≤ write.1.toNat ∧
        write.1.toNat - base.toNat ≤ i ∧ write.2[i - (write.1.toNat - base.toNat)]? = some b := by
  have hstart : ∀ {r start}, m.window write.1 write.2.size = .ok (r, start) →
      r.base.toNat ≤ write.1.toNat ∧ start = write.1.toNat - r.base.toNat := by
    intro r start hw
    obtain ⟨hc, hstart, -, -⟩ := window_eq_ok_iff.mp hw
    have hle := (mem_of_candidate? hc).2
    rw [hstart, UInt64.toNat_sub_of_le _ _ hle]
    exact ⟨UInt64.le_iff_toNat_le.mp hle, rfl⟩
  unfold put?
  constructor
  · intro h
    cases hw : m.window write.1 write.2.size with
    | error e =>
      rw [hw] at h
      cases h
    | ok w =>
      obtain ⟨r, start⟩ := w
      rw [hw] at h
      dsimp only at h
      split at h
      · next hin =>
        obtain ⟨rfl, hge⟩ := hin
        obtain ⟨hle, rfl⟩ := hstart hw
        exact ⟨r, rfl, rfl, hle, hge, h⟩
      · cases h
  · rintro ⟨r, hw, rfl, -, hge, hb⟩
    rw [hw]
    dsimp only
    rw [if_pos ⟨rfl, hge⟩, hb]

/-- Two writes that do not overlap put no byte at the same place. -/
theorem Apart.put? {write write' : UInt64 × Bytes} (h : Apart write write') {base : UInt64}
    {i : Nat} {b : UInt8} (hb : m.put? write base i = some b) : m.put? write' base i = none := by
  rw [Option.eq_none_iff_forall_ne_some]
  intro b' hb'
  obtain ⟨-, -, -, hle, hge, hat⟩ := put?_eq_some_iff.mp hb
  obtain ⟨-, -, -, hle', hge', hat'⟩ := put?_eq_some_iff.mp hb'
  have hlt := (Array.getElem?_eq_some_iff.mp hat).1
  have hlt' := (Array.getElem?_eq_some_iff.mp hat').1
  unfold Apart at h
  omega

/-- Writes that do not touch a place leave nothing there. -/
theorem left?_eq_none {log : List (UInt64 × Bytes)} {base : UInt64} {i : Nat}
    (h : ∀ write ∈ log, m.put? write base i = none) : m.left? log base i = none := by
  induction log with
  | nil => rfl
  | cons write log ih =>
    rw [left?, ih fun w hw ↦ h w (List.mem_cons_of_mem _ hw), h write (List.mem_cons_self ..)]
    rfl

/-- Writes that do not overlap are all left as they were put. -/
theorem isKept_of_pairwise_apart {log : List (UInt64 × Bytes)} (h : log.Pairwise Apart)
    {write : UInt64 × Bytes} (hmem : write ∈ log) : m.IsKept log write := by
  intro base i b hb
  induction h with
  | nil => cases hmem
  | @cons first log hfirst _ ih =>
    rw [left?]
    rcases List.mem_cons.mp hmem with rfl | hmem
    · rw [left?_eq_none fun w hw ↦ (hfirst w hw).put? hb, hb, Option.none_or]
    · rw [ih hmem, Option.some_or]

/-- The front of a write is left when the write is. -/
theorem IsKept.front {log : List (UInt64 × Bytes)} {write : UInt64 × Bytes} {len : Nat}
    (h : m.IsKept log write) (hw : ∃ r start, m.window write.1 write.2.size = .ok (r, start)) :
    m.IsKept log (front len write) := by
  intro base i b hb
  obtain ⟨r, start, hw⟩ := hw
  obtain ⟨q, hq, rfl, hle, hge, hat⟩ := put?_eq_some_iff.mp hb
  refine h q.base i b (put?_eq_some_iff.mpr ?_)
  obtain ⟨hc, hstart, -, -⟩ := window_eq_ok_iff.mp hw
  obtain ⟨hc', hstart', -, -⟩ := window_eq_ok_iff.mp hq
  have hqr : q = r := Option.some.inj (hc'.symm.trans hc)
  subst hqr
  have hk := (Array.getElem?_eq_some_iff.mp hat).1
  rw [getElem?_front hk] at hat
  have hsame : (write.1 - q.base).toNat = write.1.toNat - q.base.toNat := hstart'.symm
  exact ⟨q, by rw [hw, hstart, hsame], rfl, hle, hge, hat⟩

/-- What a write touches lies between its first and its last address. -/
theorem Touches.bounds {address : UInt64} {len : Nat} {base : UInt64} {i : Nat}
    (h : m.Touches address len base i) :
    address.toNat ≤ base.toNat + i ∧ base.toNat + i < address.toNat + len := by
  obtain ⟨r, start, hwin, rfl, hlo, hhi⟩ := h
  obtain ⟨hc, rfl, -, -⟩ := window_eq_ok_iff.mp hwin
  have hle := (mem_of_candidate? hc).2
  have hsub := UInt64.toNat_sub_of_le _ _ hle
  have := UInt64.le_iff_toNat_le.mp hle
  omega

/-- A write leaves what is read apart from it as it was. -/
theorem read_eq_ok_iff_of_write {write : UInt64 × Bytes} (h : m.write write.1 write.2 = .ok m')
    {address : UInt64} {len : Nat}
    (hapart : address.toNat + len ≤ write.1.toNat ∨
      write.1.toNat + write.2.size ≤ address.toNat) {bytes : Bytes} :
    m'.read address len = .ok bytes ↔ m.read address len = .ok bytes := by
  have hagrees := agreesOff_write h
  have hP : ∀ base i, m.Touches address len base i →
      ¬m.Touches write.1 write.2.size base i := by
    intro base i hread hwrite
    have := hread.bounds
    have := hwrite.bounds
    omega
  exact ⟨fun hr ↦ hagrees.symm.read (fun base i ht ↦ hP base i (hagrees.touches address len ▸ ht)) hr,
    fun hr ↦ hagrees.read hP hr⟩

/-- A write is there behind itself. -/
theorem has_of_write {write : UInt64 × Bytes} (h : m.write write.1 write.2 = .ok m') :
    m'.Has write := by
  have hread := read_of_write h (Nat.le_refl write.2.size)
  rwa [Array.extract_size] at hread

/-- A write stays behind writes apart from it. -/
theorem Has.write {write write' : UInt64 × Bytes} (hhas : m.Has write) (hapart : Apart write write')
    (h : m.write write'.1 write'.2 = .ok m') : m'.Has write :=
  (read_eq_ok_iff_of_write h hapart).mpr hhas

end LivePatch.Memory
