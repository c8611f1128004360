import LivePatch.Images.Image
import LivePatch.Proofs.Coff.Records
import LivePatch.Proofs.Outcome

/-!
# What headers depend on

The headers of an image are read from the tables at its start and from nothing else. A file with the
same tables but another base in them has the same headers but for the base.
-/

namespace LivePatch

namespace ImageFormat

open Bytes

/-- Sections depend on the table of them only. -/
theorem sectionsAt?_congr {data data' : Bytes} {offset count : Nat} (hsize : data.size = data'.size)
    (h : SameIn data data' ⟨offset, count * Coff.sectionHeaderSize⟩) :
    sectionsAt? data offset count = sectionsAt? data' offset count := by
  unfold sectionsAt?
  rw [hsize]
  split
  · refine Coff.mapM_congr fun i hi ↦ Coff.SectionHeader.read?_congr hsize (h.mono ?_)
    have hlast : i * Coff.sectionHeaderSize + Coff.sectionHeaderSize
        ≤ count * Coff.sectionHeaderSize := by
      rw [← Nat.succ_mul]
      exact Nat.mul_le_mul_right _ (List.mem_range.mp hi)
    rintro j ⟨hlo, hhi⟩
    unfold Window.Contains
    dsimp only at *
    omega
  · rfl

/-- Directories depend on the table of them only. -/
theorem directoriesAt?_congr {data data' : Bytes} {offset count room : Nat}
    (hsize : data.size = data'.size) (h : SameIn data data' ⟨offset, room⟩) :
    directoriesAt? data offset count room = directoriesAt? data' offset count room := by
  unfold directoriesAt?
  split
  · next hroom =>
    refine Coff.mapM_congr fun i hi ↦ ?_
    have hi := List.mem_range.mp hi
    have hinside : ∀ at', offset ≤ at' → at' + 4 ≤ offset + room →
        data.numberAt? at' 4 = data'.numberAt? at' 4 := fun at' hlo hhi ↦
      numberAt?_congr hsize (h.mono fun j hj ↦ by
        unfold Window.Contains at *
        dsimp only at *
        omega)
    rw [u32At?, u32At?, hinside (offset + 8 * i) (by omega) (by omega),
      hinside (offset + 8 * i + 4) (by omega) (by omega)]
  · rfl

/-- The headers of an image with wide addresses, field by field where they lie in the file. The
optional header has a size, and there are numbers of directories and of sections. -/
structure Headers.AreIn (h : Headers) (data : Bytes) (size count number : Nat) : Prop where
  dos : dosHeaderSize ≤ data.size
  nt : h.start + 136 ≤ data.size
  start : data.numberAt? 60 4 = some h.start
  dosMagic : data.numberAt? 0 2 = some 0x5a4d
  ntMagic : data.numberAt? h.start 4 = some 0x4550
  sectionCount : data.numberAt? (h.start + 6) 2 = some number
  symbolPointer : data.numberAt? (h.start + 12) 4 = some h.symbolPointer
  symbolCount : data.numberAt? (h.start + 16) 4 = some h.symbolCount
  optionalSize : data.numberAt? (h.start + 20) 2 = some size
  optionalMagic : data.numberAt? (h.start + 24) 2 = some 0x20b
  entryPoint : data.u32At? (h.start + 40) = some h.entryPoint
  base : data.u64At? (h.start + 48) = some h.base
  imageSize : data.u32At? (h.start + 80) = some h.imageSize
  headersSize : data.numberAt? (h.start + 84) 4 = some h.headersSize
  directoryCount : data.numberAt? (h.start + 132) 4 = some count
  isRoomy : 112 ≤ size
  inside : h.start + 24 + size ≤ data.size
  directories : directoriesAt? data (h.start + 136) count (size - 112) = some h.directories
  sections : sectionsAt? data (h.start + 24 + size) number = some h.sections

theorem Headers.read?_eq_some_iff {data : Bytes} {h : Headers} :
    read? .wide data = some h ↔ ∃ size count number, h.AreIn data size count number := by
  constructor
  · intro hread
    obtain ⟨dos, hdos, hread⟩ := Option.bind_eq_some_iff.mp hread
    obtain ⟨start, hstart, hread⟩ := Option.bind_eq_some_iff.mp hread
    obtain ⟨nt, hnt, hread⟩ := Option.bind_eq_some_iff.mp hread
    obtain ⟨size, hsize, hread⟩ := Option.bind_eq_some_iff.mp hread
    obtain ⟨dosMagic, hdosMagic, hread⟩ := Option.bind_eq_some_iff.mp hread
    obtain ⟨ntMagic, hntMagic, hread⟩ := Option.bind_eq_some_iff.mp hread
    obtain ⟨magic, hmagic, hread⟩ := Option.bind_eq_some_iff.mp hread
    split at hread
    · cases hread
    · next hgood =>
      obtain ⟨count, hcount, hread⟩ := Option.bind_eq_some_iff.mp hread
      obtain ⟨directories, hdirectories, hread⟩ := Option.bind_eq_some_iff.mp hread
      obtain ⟨number, hnumber, hread⟩ := Option.bind_eq_some_iff.mp hread
      obtain ⟨sections, hsections, hread⟩ := Option.bind_eq_some_iff.mp hread
      obtain ⟨symbolPointer, hsymbolPointer, hread⟩ := Option.bind_eq_some_iff.mp hread
      obtain ⟨symbolCount, hsymbolCount, hread⟩ := Option.bind_eq_some_iff.mp hread
      obtain ⟨entryPoint, hentryPoint, hread⟩ := Option.bind_eq_some_iff.mp hread
      obtain ⟨base, hbase, hread⟩ := Option.bind_eq_some_iff.mp hread
      obtain ⟨imageSize, himageSize, hread⟩ := Option.bind_eq_some_iff.mp hread
      obtain ⟨headersSize, hheadersSize, hread⟩ := Option.bind_eq_some_iff.mp hread
      cases hread
      have hslices : dosHeaderSize ≤ data.size ∧ start + 136 ≤ data.size :=
        ⟨by simpa using le_of_slice? hdos, le_of_slice? hnt⟩
      have hgood : dosMagic = 0x5a4d ∧ ntMagic = 0x4550 ∧ magic = 0x20b ∧ 112 ≤ size ∧
          start + 24 + size ≤ data.size := by
        have hmagic : Width.wide.magic = 0x20b := rfl
        have hsize : Width.wide.optionalSize = 112 := rfl
        omega
      obtain ⟨rfl, rfl, rfl, hroomy, hinside⟩ := hgood
      rw [numberAt?_of_slice? hdos (by decide)] at hstart hdosMagic
      rw [numberAt?_of_slice? hnt (by decide)] at hsize hntMagic hmagic hcount hnumber
      rw [numberAt?_of_slice? hnt (by decide)] at hsymbolPointer hsymbolCount hheadersSize
      rw [u32At?, numberAt?_of_slice? hnt (by decide)] at hentryPoint himageSize
      rw [u64At?, numberAt?_of_slice? hnt (by decide)] at hbase
      exact ⟨size, count, number, hslices.1, hslices.2, hstart, hdosMagic, hntMagic, hnumber,
        hsymbolPointer, hsymbolCount, hsize, hmagic, hentryPoint, hbase, himageSize, hheadersSize,
        hcount, hroomy, hinside, hdirectories, hsections⟩
  · rintro ⟨size, count, number, hin⟩
    obtain ⟨dos, hdos⟩ : ∃ dos, data.slice? 0 dosHeaderSize = some dos :=
      ⟨_, if_pos (by simpa using hin.dos)⟩
    obtain ⟨nt, hnt⟩ : ∃ nt, data.slice? h.start (24 + Width.wide.optionalSize) = some nt :=
      ⟨_, if_pos hin.nt⟩
    have hfirst : ∀ {i n r}, i + n ≤ 64 → data.numberAt? i n = some r →
        dos.numberAt? i n = some r := fun hi hr ↦ by
      rw [numberAt?_of_slice? hdos hi, Nat.zero_add, hr]
    have hsecond : ∀ {i n r}, i + n ≤ 136 → data.numberAt? (h.start + i) n = some r →
        nt.numberAt? i n = some r := fun hi hr ↦ (numberAt?_of_slice? hnt hi).trans hr
    have hword : ∀ {i r}, i + 4 ≤ 136 → data.u32At? (h.start + i) = some r →
        nt.u32At? i = some r := fun hi hr ↦ by rwa [u32At?, numberAt?_of_slice? hnt hi]
    have hbase : nt.u64At? 48 = some h.base := by
      rw [u64At?, numberAt?_of_slice? hnt (by decide)]
      exact hin.base
    have hgood : ¬(0x5a4d ≠ 0x5a4d ∨ 0x4550 ≠ 0x4550 ∨ 0x20b ≠ Width.wide.magic ∨
        size < Width.wide.optionalSize ∨ data.size < h.start + 24 + size) := by
      have hmagic : Width.wide.magic = 0x20b := rfl
      have hsize : Width.wide.optionalSize = 112 := rfl
      have hroomy := hin.isRoomy
      have hinside := hin.inside
      omega
    refine Option.bind_eq_some_iff.mpr ⟨dos, hdos, Option.bind_eq_some_iff.mpr
      ⟨h.start, hfirst (by decide) hin.start, Option.bind_eq_some_iff.mpr ⟨nt, hnt, ?_⟩⟩⟩
    refine Option.bind_eq_some_iff.mpr ⟨size, hsecond (by decide) hin.optionalSize,
      Option.bind_eq_some_iff.mpr ⟨_, hfirst (by decide) hin.dosMagic, Option.bind_eq_some_iff.mpr
        ⟨_, hsecond (by decide) hin.ntMagic, Option.bind_eq_some_iff.mpr
          ⟨_, hsecond (by decide) hin.optionalMagic, ?_⟩⟩⟩⟩
    rw [if_neg hgood]
    refine Option.bind_eq_some_iff.mpr ⟨count, hsecond (by decide) hin.directoryCount,
      Option.bind_eq_some_iff.mpr ⟨_, hin.directories, Option.bind_eq_some_iff.mpr
        ⟨number, hsecond (by decide) hin.sectionCount, Option.bind_eq_some_iff.mpr
          ⟨_, hin.sections, ?_⟩⟩⟩⟩
    refine Option.bind_eq_some_iff.mpr ⟨_, hsecond (by decide) hin.symbolPointer,
      Option.bind_eq_some_iff.mpr ⟨_, hsecond (by decide) hin.symbolCount,
        Option.bind_eq_some_iff.mpr ⟨_, hword (by decide) hin.entryPoint, ?_⟩⟩⟩
    exact Option.bind_eq_some_iff.mpr ⟨_, hbase, Option.bind_eq_some_iff.mpr
      ⟨_, hword (by decide) hin.imageSize, Option.bind_eq_some_iff.mpr
        ⟨_, hsecond (by decide) hin.headersSize, rfl⟩⟩⟩

/-- Where the tables that the headers are read from end. -/
def Headers.tablesEnd (h : Headers) (data : Bytes) : Nat :=
  h.start + 24 + (data.numberAt? (h.start + 20) 2).getD 0
    + h.sections.length * Coff.sectionHeaderSize

/-- There are as many sections as there should be. -/
theorem length_of_sectionsAt? {data : Bytes} {offset count : Nat} {sections : List Coff.SectionHeader}
    (h : sectionsAt? data offset count = some sections) : sections.length = count := by
  unfold sectionsAt? at h
  split at h
  · rw [← List.length_range (n := count)]
    generalize List.range count = indices at h
    induction indices generalizing sections with
    | nil =>
      cases h
      rfl
    | cons i indices ih =>
      rw [List.mapM_cons] at h
      obtain ⟨first, -, h⟩ := Option.bind_eq_some_iff.mp h
      obtain ⟨rest, hrest, h⟩ := Option.bind_eq_some_iff.mp h
      cases h
      rw [List.length_cons, List.length_cons, ih hrest]
  · cases h

theorem Headers.AreIn.tablesEnd_eq {h : Headers} {data : Bytes} {size count number : Nat}
    (hin : h.AreIn data size count number) :
    h.tablesEnd data = h.start + 24 + size + number * Coff.sectionHeaderSize := by
  rw [tablesEnd, hin.optionalSize, length_of_sectionsAt? hin.sections, Option.getD_some]

/-- The tables reach behind the fixed part of the second header. -/
theorem Headers.le_tablesEnd {h : Headers} {data : Bytes} {size count number : Nat}
    (hin : h.AreIn data size count number) : h.start + 136 ≤ h.tablesEnd data := by
  have hroomy := hin.isRoomy
  rw [hin.tablesEnd_eq]
  omega

/-- Bytes that the headers are read from: the first one, and the tables from the second one on. -/
def Headers.Occupies (h : Headers) (data : Bytes) (n : Nat) : Prop :=
  n < dosHeaderSize ∨ h.start ≤ n ∧ n < h.tablesEnd data

/-- A part of a file that shares no byte with the headers. -/
def Headers.Spares (h : Headers) (data : Bytes) (w : Window) : Prop :=
  ∀ n, w.Contains n → ¬h.Occupies data n

/-- What lies behind the tables shares no byte with the headers. -/
theorem Headers.spares_of_le {h : Headers} {data : Bytes} {w : Window}
    (hread : read? .wide data = some h) (hw : h.tablesEnd data ≤ w.start) : h.Spares data w := by
  obtain ⟨size, count, number, hin⟩ := read?_eq_some_iff.mp hread
  have hend := le_tablesEnd hin
  rintro n ⟨hlo, -⟩ (hfirst | ⟨-, hlt⟩)
  · unfold dosHeaderSize at hfirst
    omega
  · omega

/-- A file with the same headers but for the base reads as such, if the base does not overlap the
number that says where the second header starts. -/
theorem Headers.read?_of_same {data data' : Bytes} {h : Headers} {base : UInt64}
    (hread : read? .wide data = some h) (hclear : h.start ≤ 4 ∨ 16 ≤ h.start)
    (hsize : data'.size = data.size)
    (hsame : ∀ n, h.Occupies data n → n < h.start + 48 ∨ h.start + 56 ≤ n → data'[n]? = data[n]?)
    (hbase : data'.u64At? (h.start + 48) = some base) :
    read? .wide data' = some { h with base := base } := by
  obtain ⟨size, count, number, hin⟩ := read?_eq_some_iff.mp hread
  have hroomy := hin.isRoomy
  have hend := hin.tablesEnd_eq
  have hwindow : ∀ i n, i + n ≤ 64 ∨
      h.start ≤ i ∧ i + n ≤ h.start + 24 + size + number * Coff.sectionHeaderSize →
      i + n ≤ h.start + 48 ∨ h.start + 56 ≤ i → SameIn data' data ⟨i, n⟩ := by
    rintro i n hi hout j ⟨hlo, hhi⟩
    dsimp only at hlo hhi
    refine hsame j ?_ (by omega)
    unfold Occupies dosHeaderSize
    omega
  have hnumber : ∀ i {n r}, i + n ≤ 64 ∨
      h.start ≤ i ∧ i + n ≤ h.start + 24 + size + number * Coff.sectionHeaderSize →
      i + n ≤ h.start + 48 ∨ h.start + 56 ≤ i → data.numberAt? i n = some r →
      data'.numberAt? i n = some r := fun i _ _ hi hout hr ↦
    (numberAt?_congr hsize (hwindow _ _ hi hout)).trans hr
  have hword : ∀ i {r}, h.start ≤ i →
      i + 4 ≤ h.start + 24 + size + number * Coff.sectionHeaderSize →
      i + 4 ≤ h.start + 48 ∨ h.start + 56 ≤ i → data.u32At? i = some r → data'.u32At? i = some r :=
    fun i _ hlo hi hout hr ↦ by
      rwa [u32At?, numberAt?_congr hsize (hwindow _ _ (Or.inr ⟨hlo, hi⟩) hout)]
  refine read?_eq_some_iff.mpr ⟨size, count, number, ?_⟩
  exact {
    dos := hsize ▸ hin.dos
    nt := hsize ▸ hin.nt
    start := hnumber 60 (by omega) (by omega) hin.start
    dosMagic := hnumber 0 (by omega) (by omega) hin.dosMagic
    ntMagic := hnumber h.start (by omega) (by omega) hin.ntMagic
    sectionCount := hnumber (h.start + 6) (by omega) (by omega) hin.sectionCount
    symbolPointer := hnumber (h.start + 12) (by omega) (by omega) hin.symbolPointer
    symbolCount := hnumber (h.start + 16) (by omega) (by omega) hin.symbolCount
    optionalSize := hnumber (h.start + 20) (by omega) (by omega) hin.optionalSize
    optionalMagic := hnumber (h.start + 24) (by omega) (by omega) hin.optionalMagic
    entryPoint := hword (h.start + 40) (by omega) (by omega) (by omega) hin.entryPoint
    base := hbase
    imageSize := hword (h.start + 80) (by omega) (by omega) (by omega) hin.imageSize
    headersSize := hnumber (h.start + 84) (by omega) (by omega) hin.headersSize
    directoryCount := hnumber (h.start + 132) (by omega) (by omega) hin.directoryCount
    isRoomy := hroomy
    inside := hsize ▸ hin.inside
    directories := (directoriesAt?_congr hsize
      (hwindow (h.start + 136) (size - 112) (by omega) (by omega))).trans hin.directories
    sections := (sectionsAt?_congr hsize
      (hwindow (h.start + 24 + size) _ (by omega) (by omega))).trans hin.sections }

end ImageFormat
end LivePatch
