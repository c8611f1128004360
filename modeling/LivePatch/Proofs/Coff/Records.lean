import LivePatch.Coff.Editor
import LivePatch.Proofs.Memory.Access
import LivePatch.Proofs.Relocation.Field

/-!
# Records of an object file being edited

What replacing bytes of an object file does to its records: those that lie clear of the replaced
window stay as they are, and the record of a symbol that is neutralized turns into a fixed one that
keeps nothing but the number of auxiliary records behind it.
-/

namespace LivePatch

namespace Bytes

/-- A part of a file. -/
structure Window where
  start : Nat
  size : Nat
  deriving DecidableEq, Repr

/-- A byte lies in a part of a file. -/
def Window.Contains (w : Window) (i : Nat) : Prop := w.start ≤ i ∧ i < w.start + w.size

/-- Parts of a file that share no byte. -/
def Window.IsClear (w w' : Window) : Prop :=
  w.size = 0 ∨ w'.size = 0 ∨ w.start + w.size ≤ w'.start ∨ w'.start + w'.size ≤ w.start

instance (w w' : Window) : Decidable (w.IsClear w') :=
  inferInstanceAs (Decidable (_ ∨ _ ∨ _ ∨ _))

theorem Window.IsClear.symm {w w' : Window} (h : w.IsClear w') : w'.IsClear w := by
  unfold IsClear at *
  omega

theorem Window.IsClear.not_contains {w w' : Window} (h : w.IsClear w') {i : Nat}
    (hi : w.Contains i) : ¬w'.Contains i := by
  unfold IsClear at h
  unfold Contains at *
  omega

/-- Parts of parts that share no byte share none. -/
theorem Window.IsClear.mono {v w v' w' : Window} (h : w.IsClear w')
    (hv : ∀ i, v.Contains i → w.Contains i) (hv' : ∀ i, v'.Contains i → w'.Contains i) :
    v.IsClear v' := by
  have hfirst := hv v.start
  have hlast := hv (v.start + v.size - 1)
  have hfirst' := hv' v'.start
  have hlast' := hv' (v'.start + v'.size - 1)
  unfold Contains at *
  unfold IsClear at *
  omega

/-- Files that have the same bytes in a part of them. -/
def SameIn (b b' : Bytes) (w : Window) : Prop := ∀ i, w.Contains i → b[i]? = b'[i]?

theorem SameIn.trans {a b c : Bytes} {w : Window} (h : SameIn a b w) (h' : SameIn b c w) :
    SameIn a c w :=
  fun i hi ↦ (h i hi).trans (h' i hi)

theorem SameIn.mono {b b' : Bytes} {v w : Window} (h : SameIn b b' w)
    (hv : ∀ i, v.Contains i → w.Contains i) : SameIn b b' v :=
  fun i hi ↦ h i (hv i hi)

/-- Replacing bytes changes nothing clear of them. -/
theorem sameIn_overwrite {b new : Bytes} {offset : Nat} {w : Window}
    (hinside : offset + new.size ≤ b.size) (hclear : (Window.mk offset new.size).IsClear w) :
    SameIn (b.overwrite offset new) b w := by
  rintro i ⟨hlo, hhi⟩
  refine getElem?_overwrite_of_outside hinside ?_
  unfold Window.IsClear at hclear
  dsimp only at hclear
  by_cases hempty : new.size = 0 <;> omega

/-- Files that are the same but for a part of them. -/
structure DiffersIn (b b' : Bytes) (w : Window) : Prop where
  size : b'.size = b.size
  same : ∀ v, w.IsClear v → SameIn b' b v

theorem differsIn_overwrite {b : Bytes} (offset : Nat) (new : Bytes)
    (hinside : new.size = 0 ∨ offset + new.size ≤ b.size) :
    DiffersIn b (b.overwrite offset new) ⟨offset, new.size⟩ := by
  by_cases hle : offset + new.size ≤ b.size
  · exact ⟨size_overwrite hle, fun _ hclear ↦ sameIn_overwrite hle hclear⟩
  · have hsame : b.overwrite offset new = b := by
      have hempty := Array.eq_empty_of_size_eq_zero (hinside.resolve_right hle)
      subst hempty
      have hlt : b.size < offset := Nat.lt_of_not_le hle
      apply Array.ext_getElem?
      intro i
      rw [overwrite, Array.append_empty, Array.getElem?_append, Array.getElem?_extract,
        Array.getElem?_extract, Array.size_extract]
      have hi : b.size ≤ i → b[i]? = none := Array.getElem?_eq_none
      split
      · rw [Nat.zero_add]
      · rw [if_neg (by omega), hi (by omega)]
    rw [hsame]
    exact ⟨rfl, fun _ _ _ _ ↦ rfl⟩

theorem DiffersIn.mono {b b' : Bytes} {v w : Window} (h : DiffersIn b b' v)
    (hv : ∀ i, v.Contains i → w.Contains i) : DiffersIn b b' w :=
  ⟨h.size, fun u hu ↦ h.same u (hu.mono hv fun _ hi ↦ hi)⟩

theorem DiffersIn.trans {a b c : Bytes} {w : Window} (h : DiffersIn a b w)
    (h' : DiffersIn b c w) : DiffersIn a c w :=
  ⟨h'.size.trans h.size, fun v hv ↦ (h'.same v hv).trans (h.same v hv)⟩

/-- A part of a file depends on its own bytes only. -/
theorem slice?_congr {b b' : Bytes} {offset len : Nat} (hsize : b.size = b'.size)
    (h : SameIn b b' ⟨offset, len⟩) : b.slice? offset len = b'.slice? offset len := by
  unfold slice?
  rw [hsize]
  split
  · congr 1
    apply Array.ext_getElem?
    intro i
    rw [Array.getElem?_extract, Array.getElem?_extract, hsize]
    split
    · next hi => exact h _ ⟨by dsimp only; omega, by dsimp only; omega⟩
    · rfl
  · rfl

/-- The bytes that were written are there. -/
theorem slice?_overwrite {b new : Bytes} {offset : Nat} (h : offset + new.size ≤ b.size) :
    (b.overwrite offset new).slice? offset new.size = some new := by
  rw [slice?, size_overwrite h, if_pos h, extract_overwrite h (Nat.le_refl _), Array.extract_size]

/-- A part that is present lies inside. -/
theorem le_of_slice? {b r : Bytes} {offset len : Nat} (h : b.slice? offset len = some r) :
    offset + len ≤ b.size := by
  unfold slice? at h
  split at h
  · assumption
  · cases h

/-- A part of a part of a file. -/
theorem slice?_of_slice? {b r : Bytes} {offset len i n : Nat} (h : b.slice? offset len = some r)
    (hi : i + n ≤ len) : r.slice? i n = b.slice? (offset + i) n := by
  unfold slice? at h ⊢
  split at h
  · cases h
    rw [if_pos (by rw [Array.size_extract]; omega), if_pos (by omega), Array.extract_extract,
      Nat.min_eq_left (by omega), ← Nat.add_assoc]
  · cases h

/-- A number in a part of a file. -/
theorem numberAt?_of_slice? {b r : Bytes} {offset len i n : Nat} (h : b.slice? offset len = some r)
    (hi : i + n ≤ len) : r.numberAt? i n = b.numberAt? (offset + i) n := by
  rw [numberAt?, numberAt?, slice?_of_slice? h hi]

/-- A number depends on its own bytes only. -/
theorem numberAt?_congr {b b' : Bytes} {offset n : Nat} (hsize : b.size = b'.size)
    (h : SameIn b b' ⟨offset, n⟩) : b.numberAt? offset n = b'.numberAt? offset n := by
  rw [numberAt?, numberAt?, slice?_congr hsize h]

end Bytes

namespace Coff

open Bytes

variable {b b' : Bytes} {offset : Nat}

/-- Work on the entries of a list is the same when it is on each of them. -/
theorem mapM_congr {m : Type → Type} [Monad m] [LawfulMonad m] {α β : Type} {f g : α → m β}
    {l : List α} (h : ∀ a ∈ l, f a = g a) : l.mapM f = l.mapM g := by
  induction l with
  | nil => rfl
  | cons a l ih =>
    obtain ⟨hfirst, hrest⟩ := List.forall_mem_cons.mp h
    rw [List.mapM_cons, List.mapM_cons, hfirst, ih hrest]

theorem SectionHeader.read?_congr (hsize : b.size = b'.size)
    (h : SameIn b b' ⟨offset, sectionHeaderSize⟩) : read? b offset = read? b' offset := by
  unfold read?
  rw [slice?_congr hsize h]

theorem SymbolRecord.read?_congr (hsize : b.size = b'.size)
    (h : SameIn b b' ⟨offset, symbolSize⟩) : read? b offset = read? b' offset := by
  unfold read?
  rw [slice?_congr hsize h]

theorem RawRelocation.read?_congr (hsize : b.size = b'.size)
    (h : SameIn b b' ⟨offset, relocationSize⟩) : read? b offset = read? b' offset := by
  unfold read?
  rw [slice?_congr hsize h]

theorem Header.read?_congr (hsize : b.size = b'.size) (h : SameIn b b' ⟨0, headerSize⟩) :
    read? b = read? b' := by
  unfold read?
  rw [slice?_congr hsize h]

/-! ### Records that are there -/

/-- Entries of a list are all read or none is. -/
theorem exists_of_mapM_option {α β : Type} {g : α → Option β} {l : List α}
    (h : ∀ a ∈ l, ∃ b, g a = some b) : ∃ bs, l.mapM g = some bs := by
  induction l with
  | nil => exact ⟨[], rfl⟩
  | cons a l ih =>
    obtain ⟨⟨b, hb⟩, hrest⟩ := List.forall_mem_cons.mp h
    obtain ⟨bs, hbs⟩ := ih hrest
    exact ⟨b :: bs, by rw [List.mapM_cons, hb, hbs]; rfl⟩

/-- What is read of a list is read entry by entry. -/
theorem getElem?_of_mapM {α β : Type} {g : α → Option β} {l : List α} {bs : List β}
    (h : l.mapM g = some bs) (i : Nat) : bs[i]? = l[i]?.bind g := by
  induction l generalizing bs i with
  | nil =>
    cases h
    rfl
  | cons a l ih =>
    rw [List.mapM_cons] at h
    obtain ⟨b, hb, h⟩ := Option.bind_eq_some_iff.mp h
    obtain ⟨rest, hrest, h⟩ := Option.bind_eq_some_iff.mp h
    cases h
    cases i with
    | zero => exact hb.symm
    | succ i => exact ih hrest i

/-- A header is read wherever its bytes are there. -/
theorem SectionHeader.exists_read? {b : Bytes} {offset : Nat}
    (h : offset + sectionHeaderSize ≤ b.size) : ∃ header, read? b offset = some header := by
  unfold sectionHeaderSize at h
  have hsize : (b.extract offset (offset + 40)).size = 40 := by
    rw [Array.size_extract]
    omega
  simp [read?, slice?, u32At?, numberAt?, sectionHeaderSize, h, hsize]

/-- A record is read wherever its bytes are there. -/
theorem SymbolRecord.exists_read? {b : Bytes} {offset : Nat} (h : offset + symbolSize ≤ b.size) :
    ∃ r, read? b offset = some r := by
  unfold symbolSize at h
  have hsize : (b.extract offset (offset + 18)).size = 18 := by
    rw [Array.size_extract]
    omega
  simp [read?, Bytes.slice?, Bytes.u32At?, Bytes.u16At?, Bytes.u8At?, Bytes.numberAt?, symbolSize, h,
    hsize]

/-- A relocation is read wherever its bytes are there. -/
theorem RawRelocation.exists_read? {b : Bytes} {offset : Nat}
    (h : offset + relocationSize ≤ b.size) : ∃ r, read? b offset = some r := by
  unfold relocationSize at h
  have hsize : (b.extract offset (offset + 10)).size = 10 := by
    rw [Array.size_extract]
    omega
  simp [read?, Bytes.slice?, Bytes.u32At?, Bytes.u16At?, Bytes.numberAt?, relocationSize, h, hsize]

/-- Relocations are read exactly if their table is there. -/
theorem isSome_relocationsAt?_iff {b : Bytes} {offset count : Nat} :
    (relocationsAt? b offset count).isSome = true ↔ offset + count * relocationSize ≤ b.size := by
  unfold relocationsAt?
  split
  · next hle =>
    refine ⟨fun _ ↦ hle, fun _ ↦ Option.isSome_iff_exists.mpr ?_⟩
    refine exists_of_mapM_option fun i hi ↦ RawRelocation.exists_read? ?_
    have hlast : (i + 1) * relocationSize ≤ count * relocationSize :=
      Nat.mul_le_mul_right _ (List.mem_range.mp hi)
    rw [Nat.succ_mul] at hlast
    omega
  · next hgt => exact ⟨fun h ↦ (by cases h), fun h ↦ absurd h hgt⟩

/-! ### Records after an edit of them -/

/-- The characteristics of a section are the last word of its header. -/
theorem SectionHeader.characteristics_overwrite {h : SectionHeader} {flags : UInt32}
    (hinside : offset + sectionHeaderSize ≤ b.size)
    (hread : read? (b.overwrite (offset + 36) (ofU32 flags)) offset = some h) :
    h.characteristics = flags := by
  have hfour : (ofU32 flags).size = 4 := by simp [ofU32, length_ofNumber]
  unfold sectionHeaderSize at hinside
  unfold read? at hread
  obtain ⟨r, hr, hread⟩ := Option.bind_eq_some_iff.mp hread
  obtain ⟨_, -, hread⟩ := Option.bind_eq_some_iff.mp hread
  obtain ⟨_, -, hread⟩ := Option.bind_eq_some_iff.mp hread
  obtain ⟨_, -, hread⟩ := Option.bind_eq_some_iff.mp hread
  obtain ⟨_, -, hread⟩ := Option.bind_eq_some_iff.mp hread
  obtain ⟨_, -, hread⟩ := Option.bind_eq_some_iff.mp hread
  obtain ⟨_, -, hread⟩ := Option.bind_eq_some_iff.mp hread
  obtain ⟨_, -, hread⟩ := Option.bind_eq_some_iff.mp hread
  obtain ⟨c, hc, hread⟩ := Option.bind_eq_some_iff.mp hread
  cases hread
  have hown : (b.overwrite (offset + 36) (ofU32 flags)).slice? (offset + 36) _ = _ :=
    slice?_overwrite (by omega)
  have hflags := u32At?_zero_ofU32 flags
  rw [u32At?, numberAt?, ← hfour, slice?_self] at hflags
  rw [u32At?, numberAt?, slice?_of_slice? hr (by unfold sectionHeaderSize; omega), ← hfour, hown,
    hflags] at hc
  exact (Option.some.inj hc).symm

/-- The record of a symbol that was neutralized. -/
def SymbolRecord.removed (strategy : RemovalStrategy) (r : SymbolRecord) : SymbolRecord :=
  ⟨Editor.removedSymbolName.toList, 0, strategy.storedNumber, 0, classNull, r.auxCount⟩

theorem Editor.size_removedRecord (strategy : RemovalStrategy) :
    (removedRecord strategy).size = 17 := by
  cases strategy <;> rfl

/-- What is left of a record when everything before its last byte is replaced. -/
private theorem slice?_overwrite_record {new : Bytes} {last : UInt8} (hnew : new.size = 17)
    (hlast : b[offset + 17]? = some last) :
    (b.overwrite offset new).slice? offset symbolSize = some (new ++ #[last]) := by
  have hsize : offset + 17 < b.size := (Array.getElem?_eq_some_iff.mp hlast).1
  have hinside : offset + new.size ≤ b.size := by omega
  unfold slice? symbolSize
  rw [Bytes.size_overwrite hinside, if_pos (by omega)]
  congr 1
  apply Array.ext_getElem?
  intro i
  rw [Array.getElem?_extract, Bytes.size_overwrite hinside]
  rcases Nat.lt_trichotomy i 17 with hi | rfl | hi
  · rw [if_pos (by omega), getElem?_overwrite_of_inside hinside (by omega) (by omega),
      Array.getElem?_append_left (by omega)]
    congr 1
    omega
  · rw [if_pos (by omega), getElem?_overwrite_of_outside hinside (by omega), hlast,
      Array.getElem?_append_right (by omega), hnew]
    rfl
  · rw [if_neg (by omega), Array.getElem?_eq_none (by simp [hnew]; omega)]

/-- A number of one byte. -/
private theorem numberAt?_one {b : Bytes} {offset n : Nat} (h : b.numberAt? offset 1 = some n) :
    ∃ byte : UInt8, b[offset]? = some byte ∧ byte.toNat = n := by
  unfold numberAt? slice? at h
  split at h
  · next hle =>
    have hbyte : b.extract offset (offset + 1) = #[b[offset]] := by
      apply Array.ext
      · simp
        omega
      · intro i hi _
        rw [Array.size_extract] at hi
        have hzero : i = 0 := by omega
        simp [hzero]
    simp only [Option.map_some, hbyte, Option.some.injEq] at h
    exact ⟨b[offset], Array.getElem?_eq_getElem hle, by simpa [number] using h⟩
  · cases h

/-- The number of auxiliary records is the last byte of a record. -/
private theorem SymbolRecord.auxCount_eq {r : SymbolRecord} (h : read? b offset = some r) :
    ∃ last : UInt8, b[offset + 17]? = some last ∧ last.toNat = r.auxCount := by
  unfold read? at h
  obtain ⟨s, hs, h⟩ := Option.bind_eq_some_iff.mp h
  obtain ⟨_, -, h⟩ := Option.bind_eq_some_iff.mp h
  obtain ⟨_, -, h⟩ := Option.bind_eq_some_iff.mp h
  obtain ⟨_, -, h⟩ := Option.bind_eq_some_iff.mp h
  obtain ⟨_, -, h⟩ := Option.bind_eq_some_iff.mp h
  obtain ⟨_, -, h⟩ := Option.bind_eq_some_iff.mp h
  obtain ⟨count, hcount, h⟩ := Option.bind_eq_some_iff.mp h
  cases h
  obtain ⟨last, hlast, heq⟩ := numberAt?_one hcount
  refine ⟨last, ?_, heq⟩
  unfold slice? at hs
  split at hs
  · cases hs
    rw [Array.getElem?_extract] at hlast
    split at hlast
    · exact hlast
    · cases hlast
  · cases hs

/-- Neutralizing a symbol keeps the number of its auxiliary records, and nothing else. -/
theorem SymbolRecord.read?_removed {r : SymbolRecord} (h : read? b offset = some r)
    (strategy : RemovalStrategy) :
    read? (b.overwrite offset (Editor.removedRecord strategy)) offset
      = some (r.removed strategy) := by
  obtain ⟨last, hlast, haux⟩ := auxCount_eq h
  unfold read? removed
  rw [slice?_overwrite_record (Editor.size_removedRecord strategy) hlast, ← haux]
  have habsolute : Editor.removedRecord .absolute ++ #[last]
      = #[0x26, 0, 0, 0, 0, 0, 0, 0, 0, 0, 0, 0, 0xff, 0xff, 0, 0, 0, last] := rfl
  have hdebug : Editor.removedRecord .debugSection ++ #[last]
      = #[0x26, 0, 0, 0, 0, 0, 0, 0, 0, 0, 0, 0, 0xfe, 0xff, 0, 0, 0, last] := rfl
  cases strategy
  · rw [hdebug]
    simp [slice?, u32At?, u16At?, u8At?, numberAt?, number]
    decide
  · rw [habsolute]
    simp [slice?, u32At?, u16At?, u8At?, numberAt?, number]
    decide

end Coff
end LivePatch
