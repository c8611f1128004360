import LivePatch.Process.Memory
import Mathlib.Data.List.Forall2
import Mathlib.Data.List.Nodup
import Mathlib.Tactic.Common

/-!
# Accesses to memory

What the window of an access is, and what a write does to the window it replaces: bytes read from
it are the bytes written, everything else in the region stays, and writing what was read changes
nothing.
-/

namespace LivePatch

namespace Bytes

/-- Bytes that are brought to a size have it. -/
theorem size_resize (b : Bytes) (size : Nat) (filler : UInt8) :
    (b.resize size filler).size = size := by
  unfold resize fill
  rw [Array.size_append, Array.size_extract, Array.size_replicate]
  omega

/-- Inside a replaced window stand the new bytes. -/
theorem getElem?_overwrite_of_inside {b new : Bytes} {offset i : Nat}
    (h : offset + new.size ≤ b.size) (hlo : offset ≤ i) (hhi : i < offset + new.size) :
    (b.overwrite offset new)[i]? = new[i - offset]? := by
  unfold overwrite
  have hs : (b.extract 0 offset).size = offset := by
    rw [Array.size_extract]
    omega
  rw [Array.getElem?_append_left (by rw [Array.size_append]; omega),
    Array.getElem?_append_right (by omega), hs]

/-- Outside a replaced window the bytes stay. -/
theorem getElem?_overwrite_of_outside {b new : Bytes} {offset i : Nat}
    (h : offset + new.size ≤ b.size) (hi : i < offset ∨ offset + new.size ≤ i) :
    (b.overwrite offset new)[i]? = b[i]? := by
  unfold overwrite
  have hs : (b.extract 0 offset).size = offset := by
    rw [Array.size_extract]
    omega
  rcases hi with hi | hi
  · rw [Array.getElem?_append_left (by rw [Array.size_append]; omega),
      Array.getElem?_append_left (by omega), Array.getElem?_extract]
    simp only [Nat.zero_add, ite_eq_left_iff]
    omega
  · rw [Array.getElem?_append_right (by rw [Array.size_append]; omega), Array.size_append, hs,
      Array.getElem?_extract]
    split
    · next hlt =>
      congr 1
      omega
    · next hge =>
      symm
      apply Array.getElem?_eq_none
      omega

/-- Replacing a window by what stands in it changes nothing. -/
theorem overwrite_extract {b : Bytes} {offset len : Nat} (h : offset + len ≤ b.size) :
    b.overwrite offset (b.extract offset (offset + len)) = b := by
  have hs : (b.extract offset (offset + len)).size = len := by
    rw [Array.size_extract]
    omega
  apply Array.ext_getElem?
  intro i
  by_cases hin : offset ≤ i ∧ i < offset + len
  · rw [getElem?_overwrite_of_inside (by omega) hin.1 (by omega), Array.getElem?_extract,
      if_pos (by omega), Nat.add_sub_cancel' hin.1]
  · exact getElem?_overwrite_of_outside (by omega) (by omega)

/-- The start of a replaced window is the start of the new bytes. -/
theorem extract_overwrite {b new : Bytes} {offset len : Nat} (h : offset + new.size ≤ b.size)
    (hlen : len ≤ new.size) :
    (b.overwrite offset new).extract offset (offset + len) = new.extract 0 len := by
  apply Array.ext_getElem?
  intro i
  rw [Array.getElem?_extract, Array.getElem?_extract, size_overwrite h]
  by_cases hi : i < len
  · rw [if_pos (by omega), if_pos (by omega),
      getElem?_overwrite_of_inside h (by omega) (by omega)]
    congr 1
    omega
  · rw [if_neg (by omega), if_neg (by omega)]

end Bytes

namespace Memory

/-- An access that is let through concerns the last region before its address and lies inside. -/
theorem window_eq_ok_iff {m : Memory} {address : UInt64} {len : Nat} {r : Region} {start : Nat} :
    m.window address len = .ok (r, start) ↔
      m.candidate? address = some r ∧ start = (address - r.base).toNat ∧
        start + len < 0x10000000000000000 ∧ start + len ≤ r.bytes.size := by
  unfold window
  cases hc : m.candidate? address with
  | none => simp [fail, throwThe, MonadExceptOf.throw]
  | some c =>
    simp only [Word.addSize?, Option.some.injEq]
    by_cases hlt : (address - c.base).toNat + len < 0x10000000000000000
    · by_cases hle : (address - c.base).toNat + len ≤ c.bytes.size
      · simp only [hlt, hle, if_true, orFault, bind, Except.bind, pure, Except.pure,
          Except.ok.injEq, Prod.mk.injEq]
        constructor
        · rintro ⟨rfl, rfl⟩
          exact ⟨rfl, rfl, hlt, hle⟩
        · rintro ⟨rfl, rfl, -, -⟩
          exact ⟨rfl, rfl⟩
      · simp only [hlt, hle, if_true, if_false, orFault, bind, Except.bind, fail, throwThe,
          MonadExceptOf.throw, reduceCtorEq, false_iff, not_and]
        rintro rfl rfl - hle'
        exact hle hle'
    · simp only [hlt, if_false, orFault, bind, Except.bind, reduceCtorEq, false_iff, not_and]
      rintro rfl rfl hlt'
      exact absurd hlt' hlt

/-- The region of an access is one of the memory's, and starts at or before the address. -/
theorem mem_of_candidate? {m : Memory} {address : UInt64} {r : Region}
    (h : m.candidate? address = some r) : r ∈ m.regions ∧ r.base ≤ address := by
  have := List.mem_of_getLast? h
  simpa using List.mem_filter.mp this

/-- A read that is let through answers the bytes of its window. -/
theorem read_eq_ok_iff {m : Memory} {address : UInt64} {len : Nat} {bytes : Bytes} :
    m.read address len = .ok bytes ↔
      ∃ r start, m.window address len = .ok (r, start) ∧
        bytes = r.bytes.extract start (start + len) := by
  unfold read
  cases hw : m.window address len with
  | error e => simp [bind, Except.bind]
  | ok w =>
    obtain ⟨r, start⟩ := w
    simp only [bind, Except.bind, pure, Except.pure, Except.ok.injEq, Prod.mk.injEq]
    constructor
    · rintro rfl
      exact ⟨r, start, ⟨rfl, rfl⟩, rfl⟩
    · rintro ⟨_, _, ⟨rfl, rfl⟩, rfl⟩
      rfl

/-- A read answers as many bytes as were asked for. -/
theorem size_of_read {m : Memory} {address : UInt64} {len : Nat} {bytes : Bytes}
    (h : m.read address len = .ok bytes) : bytes.size = len := by
  obtain ⟨r, start, hw, rfl⟩ := read_eq_ok_iff.mp h
  obtain ⟨-, -, -, hle⟩ := window_eq_ok_iff.mp hw
  rw [Array.size_extract]
  omega

/-- A write that is let through replaces the bytes of its window. -/
theorem write_eq_ok_iff {m m' : Memory} {address : UInt64} {bytes : Bytes} :
    m.write address bytes = .ok m' ↔
      ∃ r start, m.window address bytes.size = .ok (r, start) ∧
        m' = m.modifyAt r.base fun old ↦ old.overwrite start bytes := by
  unfold write
  cases hw : m.window address bytes.size with
  | error e => simp [bind, Except.bind]
  | ok w =>
    obtain ⟨r, start⟩ := w
    simp only [bind, Except.bind, pure, Except.pure, Except.ok.injEq, Prod.mk.injEq]
    constructor
    · rintro rfl
      exact ⟨r, start, ⟨rfl, rfl⟩, rfl⟩
    · rintro ⟨_, _, ⟨rfl, rfl⟩, rfl⟩
      rfl

/-- No two regions of a memory start at one address. -/
theorem eq_of_base {m : Memory} {r r' : Region} (hr : r ∈ m.regions) (hr' : r' ∈ m.regions)
    (hb : r.base = r'.base) : r = r' := by
  have hnodup : (m.regions.map Region.base).Nodup :=
    List.pairwise_map.mpr (m.ordered.imp fun {a b} hab ↦ UInt64.ne_of_lt hab)
  exact List.inj_on_of_nodup_map hnodup hr hr' hb

/-- A change that leaves the bytes of a region alone changes nothing. -/
theorem modifyAt_eq_self {m : Memory} {base : UInt64} {f : Bytes → Bytes}
    (h : ∀ r ∈ m.regions, r.base = base → f r.bytes = r.bytes) : m.modifyAt base f = m := by
  have hmap : m.regions.map (fun r ↦ if r.base = base then { r with bytes := f r.bytes } else r)
      = m.regions.map id := by
    apply List.map_congr_left
    intro r hr
    split
    · next hb => rw [h r hr hb]; rfl
    · rfl
  rw [List.map_id] at hmap
  exact Memory.ext hmap

/-- Writing what was read changes nothing. -/
theorem write_of_read {m : Memory} {address : UInt64} {len : Nat} {bytes : Bytes}
    (hr : m.read address len = .ok bytes) : m.write address bytes = .ok m := by
  obtain ⟨r, start, hw, rfl⟩ := read_eq_ok_iff.mp hr
  obtain ⟨hc, rfl, hlt, hle⟩ := window_eq_ok_iff.mp hw
  have hs : (r.bytes.extract (address - r.base).toNat ((address - r.base).toNat + len)).size
      = len := by
    rw [Array.size_extract]
    omega
  rw [write_eq_ok_iff]
  refine ⟨r, (address - r.base).toNat, by rw [hs]; exact hw, ?_⟩
  rw [modifyAt_eq_self]
  intro q hq hb
  rw [eq_of_base hq (mem_of_candidate? hc).1 hb, Bytes.overwrite_extract hle]

end Memory
end LivePatch
