import LivePatch.Images.Image
import LivePatch.Proofs.Outcome
import Mathlib.Data.List.OfFn
import Mathlib.Tactic.Common

/-!
# Layout of images in memory

What an image looks like when it is mapped: its headers, the raw data of its sections at their
addresses, and zeros everywhere else. Reading the image from its file shows the same bytes, but only
where a whole window lies in the headers or in the file data of one section.
-/

namespace LivePatch

namespace ImageFormat

/-- Whether the raw data of a section is mapped at an address. -/
def covers (s : Coff.SectionHeader) (rva : Nat) : Bool :=
  s.virtualAddress.toNat ≤ rva && rva < s.virtualAddress.toNat + s.rawSize

namespace Headers

/-- The byte at an address of the mapped image. -/
def byteAt (h : Headers) (data : Bytes) (rva : Nat) : UInt8 :=
  if rva < h.headersSize then data[rva]?.getD 0
  else match h.sections.find? fun s ↦ covers s rva with
    | some s => data[s.rawPointer + (rva - s.virtualAddress.toNat)]?.getD 0
    | none => 0

/-- The bytes of the mapped image. -/
def layout (h : Headers) (data : Bytes) : Bytes :=
  ((List.range h.imageSize.toNat).map (h.byteAt data)).toArray

/-- No two sections have raw data at one address. -/
def IsApart (h : Headers) : Prop :=
  h.sections.Pairwise fun s t ↦ ∀ rva, covers s rva = true → covers t rva = false

/-- A window that lies in one piece in the file: in the headers, or in a section's part that is both
in memory and in the file. -/
inductive HasInFile (h : Headers) (data : Bytes) (rva : UInt32) (len : Nat) : Prop where
  | headers (inside : rva.toNat + len ≤ h.headersSize) (present : rva.toNat + len ≤ data.size)
  | body (s : Coff.SectionHeader) (mem : s ∈ h.sections) (behind : h.headersSize ≤ rva.toNat)
      (start : s.virtualAddress ≤ rva)
      (inside : rva.toNat + len
        ≤ s.virtualAddress.toNat + min s.virtualSize.toNat s.rawSize)
      (offset : s.rawPointer + (rva.toNat - s.virtualAddress.toNat) < 0x100000000)
      (present : s.rawPointer + (rva.toNat - s.virtualAddress.toNat) + len ≤ data.size)

variable {h : Headers} {data : Bytes} {rva : UInt32} {len : Nat}

@[simp] theorem size_layout (h : Headers) (data : Bytes) :
    (h.layout data).size = h.imageSize.toNat := by
  simp [layout]

theorem getElem?_layout {i : Nat} (hi : i < h.imageSize.toNat) :
    (h.layout data)[i]? = some (h.byteAt data i) := by
  simp [layout, hi]

/-- The section whose raw data is at an address is the only one. -/
theorem IsApart.find?_eq (hapart : h.IsApart) {s : Coff.SectionHeader} (hs : s ∈ h.sections)
    {i : Nat} (hcovers : covers s i = true) : h.sections.find? (fun s ↦ covers s i) = some s := by
  unfold IsApart at hapart
  generalize h.sections = sections at hapart hs
  induction sections with
  | nil => cases hs
  | cons t rest ih =>
    obtain ⟨hfirst, hrest⟩ := List.pairwise_cons.mp hapart
    rcases List.mem_cons.mp hs with rfl | hs
    · simp [hcovers]
    · have hnot : covers t i = false := by
        by_contra ht
        have := hfirst s hs i (by simpa using ht)
        simp [hcovers] at this
      rw [List.find?_cons, hnot]
      exact ih hrest hs

end Headers
end ImageFormat

open ImageFormat

/-- The part of a section that lies in the file behind an address. -/
theorem ImageFormat.sectionRange?_eq_some_iff {s : Coff.SectionHeader} {rva : UInt32}
    {offset available : Nat} : sectionRange? s rva = some (offset, available) ↔
      s.virtualAddress ≤ rva ∧
      rva.toNat < s.virtualAddress.toNat + min s.virtualSize.toNat s.rawSize ∧
      s.rawPointer + (rva.toNat - s.virtualAddress.toNat) < 0x100000000 ∧
      offset = s.rawPointer + (rva.toNat - s.virtualAddress.toNat) ∧
      available
        = s.virtualAddress.toNat + min s.virtualSize.toNat s.rawSize - rva.toNat := by
  unfold sectionRange?
  dsimp only
  by_cases hle : s.virtualAddress ≤ rva
  · have hnat : s.virtualAddress.toNat ≤ rva.toNat := UInt32.le_iff_toNat_le.mp hle
    have hsub : (rva - s.virtualAddress).toNat = rva.toNat - s.virtualAddress.toNat :=
      UInt32.toNat_sub_of_le _ _ hle
    rw [if_pos hle, hsub]
    split
    · next hin =>
      rw [Option.some.injEq, Prod.mk.injEq]
      constructor
      · rintro ⟨rfl, rfl⟩
        exact ⟨hle, by omega, hin.2, rfl, by omega⟩
      · rintro ⟨-, -, -, rfl, rfl⟩
        exact ⟨rfl, by omega⟩
    · next hout =>
      constructor
      · intro h
        cases h
      · rintro ⟨-, hlt, hoffset, -, -⟩
        exact (hout ⟨by omega, hoffset⟩).elim
  · rw [if_neg hle]
    constructor
    · intro h
      cases h
    · exact fun h ↦ (hle h.1).elim

/-- A section with file data behind an address has raw data there. -/
theorem ImageFormat.covers_of_sectionRange? {s : Coff.SectionHeader} {rva : UInt32}
    {range : Nat × Nat} (h : sectionRange? s rva = some range) : covers s rva.toNat = true := by
  obtain ⟨hle, hlt, -⟩ := sectionRange?_eq_some_iff.mp h
  have hnat : s.virtualAddress.toNat ≤ rva.toNat := UInt32.le_iff_toNat_le.mp hle
  simp only [covers, Bool.and_eq_true, decide_eq_true_eq]
  omega

/-- The file data behind an address is that of the one section which has some there. -/
theorem ImageFormat.Headers.range?_eq_some_iff {h : Headers} (hapart : h.IsApart) {rva : UInt32}
    {range : Nat × Nat} :
    h.range? rva = some range ↔ ∃ s ∈ h.sections, sectionRange? s rva = some range := by
  refine ⟨List.exists_of_findSome?_eq_some, fun ⟨s, hs, hrange⟩ ↦ ?_⟩
  have hsome : (h.range? rva).isSome := List.findSome?_isSome_iff.mpr ⟨s, hs, by rw [hrange]; rfl⟩
  obtain ⟨range', hrange'⟩ := Option.isSome_iff_exists.mp hsome
  obtain ⟨t, ht, htrange⟩ := List.exists_of_findSome?_eq_some hrange'
  have hfound := hapart.find?_eq hs (covers_of_sectionRange? hrange)
  rw [hapart.find?_eq ht (covers_of_sectionRange? htrange)] at hfound
  rw [hrange', ← htrange, ← hrange, Option.some.inj hfound]

namespace Image

variable {i : Image} {h : Headers} {rva : UInt32} {len : Nat}

/-- Where bytes lie in the file. -/
theorem fileOffset_eq_ok_iff (hheaders : i.headers = .ok h) {offset : Nat} :
    i.fileOffset rva len = .ok offset ↔
      (rva.toNat < h.headersSize ∧ rva.toNat + len < 0x10000000000000000 ∧
        rva.toNat + len ≤ h.headersSize ∧ offset = rva.toNat) ∨
      (h.headersSize ≤ rva.toNat ∧ ∃ available, h.range? rva = some (offset, available) ∧
        len ≤ available) := by
  unfold fileOffset
  rw [hheaders, Outcome.bind_eq_ok_iff]
  constructor
  · rintro ⟨h', heq, hread⟩
    cases heq
    split at hread
    · next hlt =>
      obtain ⟨stop, hstop, hread⟩ := Outcome.bind_eq_ok_iff.mp hread
      rw [Outcome.orFault_eq_ok_iff, Word.addSize?] at hstop
      split at hstop
      · next hsum =>
        cases hstop
        split at hread
        · cases hread
        · cases hread
          exact .inl ⟨hlt, hsum, by omega, rfl⟩
      · cases hstop
    · next hge =>
      obtain ⟨⟨offset', available⟩, hrange, hread⟩ := Outcome.bind_eq_ok_iff.mp hread
      rw [Outcome.orFail_eq_ok_iff] at hrange
      dsimp only at hread
      split at hread
      · cases hread
      · cases hread
        exact .inr ⟨by omega, available, hrange, by omega⟩
  · rintro (⟨hlt, hsum, hle, rfl⟩ | ⟨hge, available, hrange, hle⟩)
    · refine ⟨h, rfl, ?_⟩
      rw [if_pos hlt, Word.addSize?, if_pos hsum]
      simp only [orFault, bind, Except.bind, if_neg (Nat.not_lt.mpr hle)]
      rfl
    · refine ⟨h, rfl, ?_⟩
      rw [if_neg (Nat.not_lt.mpr hge), hrange]
      simp only [orFail, bind, Except.bind, if_neg (Nat.not_lt.mpr hle)]
      rfl

/-- Bytes are read from where they lie in the file. -/
theorem read_eq_ok_iff {bytes : Bytes} : i.read rva len = .ok bytes ↔
    ∃ offset, i.fileOffset rva len = .ok offset ∧ i.data.slice? offset len = some bytes := by
  unfold Image.read
  rw [Outcome.bind_eq_ok_iff]
  simp only [Outcome.orFail_eq_ok_iff]

/-- Bytes can be read from the file exactly where they lie in one piece, and they are those of the
mapped image. -/
theorem read_eq_ok_iff_hasInFile (hheaders : i.headers = .ok h) (hapart : h.IsApart)
    (hlen : 0 < len) (hinside : rva.toNat + len ≤ h.imageSize.toNat) {bytes : Bytes} :
    i.read rva len = .ok bytes ↔ h.HasInFile i.data rva len ∧
      bytes = (h.layout i.data).extract rva.toNat (rva.toNat + len) := by
  have hsize : h.imageSize.toNat < 0x100000000 := h.imageSize.toNat_lt
  have hlayout : ∀ offset, offset + len ≤ i.data.size →
      (∀ k < len, h.byteAt i.data (rva.toNat + k) = i.data[offset + k]?.getD 0) →
      (h.layout i.data).extract rva.toNat (rva.toNat + len)
        = i.data.extract offset (offset + len) := by
    intro offset hin hbytes
    refine Array.ext_getElem? fun k ↦ ?_
    rw [Array.getElem?_extract, Array.getElem?_extract, Headers.size_layout]
    by_cases hk : k < len
    · rw [if_pos (by omega), if_pos (by omega), Headers.getElem?_layout (by omega), hbytes k hk,
        Array.getElem?_eq_getElem (by omega)]
      rfl
    · rw [if_neg (by omega), if_neg (by omega)]
  rw [read_eq_ok_iff]
  simp only [fileOffset_eq_ok_iff hheaders, Headers.range?_eq_some_iff hapart]
  constructor
  · rintro ⟨offset, hoffset, hslice⟩
    unfold Bytes.slice? at hslice
    split at hslice
    · next hin =>
      cases hslice
      rcases hoffset with ⟨hlt, -, hle, rfl⟩ | ⟨hge, available, ⟨s, hs, hrange⟩, hle⟩
      · refine ⟨.headers hle hin, (hlayout _ hin fun k hk ↦ ?_).symm⟩
        rw [Headers.byteAt, if_pos (by omega)]
      · obtain ⟨hstart, hlt, hbelow, rfl, rfl⟩ := sectionRange?_eq_some_iff.mp hrange
        have hnat : s.virtualAddress.toNat ≤ rva.toNat := UInt32.le_iff_toNat_le.mp hstart
        refine ⟨.body s hs hge hstart (by omega) hbelow hin, (hlayout _ hin fun k hk ↦ ?_).symm⟩
        have hcovers : covers s (rva.toNat + k) = true := by
          simp only [covers, Bool.and_eq_true, decide_eq_true_eq]
          omega
        rw [Headers.byteAt, if_neg (by omega), hapart.find?_eq hs hcovers]
        dsimp only
        congr 2
        omega
    · cases hslice
  · rintro ⟨hfile, rfl⟩
    cases hfile with
    | headers hle hpresent =>
      refine ⟨rva.toNat, .inl ⟨by omega, by omega, hle, rfl⟩, ?_⟩
      rw [Bytes.slice?, if_pos hpresent, hlayout _ hpresent fun k hk ↦ ?_]
      rw [Headers.byteAt, if_pos (by omega)]
    | body s hs hge hstart hle hbelow hpresent =>
      have hnat : s.virtualAddress.toNat ≤ rva.toNat := UInt32.le_iff_toNat_le.mp hstart
      refine ⟨_, .inr ⟨hge, _, ⟨s, hs, sectionRange?_eq_some_iff.mpr
        ⟨hstart, by omega, hbelow, rfl, rfl⟩⟩, by omega⟩, ?_⟩
      rw [Bytes.slice?, if_pos hpresent, hlayout _ hpresent fun k hk ↦ ?_]
      have hcovers : covers s (rva.toNat + k) = true := by
        simp only [covers, Bool.and_eq_true, decide_eq_true_eq]
        omega
      rw [Headers.byteAt, if_neg (by omega), hapart.find?_eq hs hcovers]
      dsimp only
      congr 2
      omega

/-- Where bytes lie is an error or is known, as long as they end in the range of addresses. -/
theorem fileOffset_ne_fault (hsum : rva.toNat + len < 0x10000000000000000) :
    i.fileOffset rva len ≠ .error .fault := by
  unfold fileOffset
  refine Outcome.bind_ne_fault Outcome.orFail_ne_fault fun h _ ↦ ?_
  split
  · rw [Word.addSize?, if_pos hsum]
    refine Outcome.bind_ne_fault (fun heq ↦ by cases heq) fun stop _ ↦ ?_
    split <;> exact fun heq ↦ by cases heq
  · refine Outcome.bind_ne_fault Outcome.orFail_ne_fault fun range _ ↦ ?_
    dsimp only
    split <;> exact fun heq ↦ by cases heq

/-- Reading a window of addresses never leaves the range of addresses. -/
theorem read_ne_fault (hsum : rva.toNat + len < 0x10000000000000000) :
    i.read rva len ≠ .error .fault :=
  Outcome.bind_ne_fault (fileOffset_ne_fault hsum) fun _ _ ↦ Outcome.orFail_ne_fault

/-- Bytes that do not lie in one piece in the file cannot be read from it. -/
theorem read_eq_error (hheaders : i.headers = .ok h) (hapart : h.IsApart) (hlen : 0 < len)
    (hinside : rva.toNat + len ≤ h.imageSize.toNat) (hfile : ¬ h.HasInFile i.data rva len) :
    ∃ e, i.read rva len = .error (.error e) := by
  have hsize : h.imageSize.toNat < 0x100000000 := h.imageSize.toNat_lt
  have hfault : i.read rva len ≠ .error .fault := read_ne_fault (by omega)
  rcases hread : i.read rva len with (e | _) | bytes
  · exact ⟨e, rfl⟩
  · exact (hfault hread).elim
  · exact (hfile ((read_eq_ok_iff_hasInFile hheaders hapart hlen hinside).mp hread).1).elim

end Image
end LivePatch
