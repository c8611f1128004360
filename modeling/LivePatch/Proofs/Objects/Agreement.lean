import LivePatch.Proofs.Coff.Sparing
import LivePatch.Proofs.Objects.Recording

/-!
# Reading and editing the same object file

The tables of an object file and its edits are read by two parsers. They agree on which symbols there
are, on the sections that these lie in as long as the numbers are small, and on the relocations of
every section whose table is there. Where it is not, reading goes on without relocations and editing
stops.
-/

namespace LivePatch

namespace Bytes

theorem slice?_append_left {x y : Bytes} {offset len : Nat} (h : offset + len ≤ x.size) :
    (x ++ y).slice? offset len = x.slice? offset len := by
  unfold slice?
  rw [if_pos h, Array.size_append, if_pos (by omega), Array.extract_append]
  simp [Nat.sub_eq_zero_of_le h]

theorem slice?_append_right (x y : Bytes) (offset len : Nat) :
    (x ++ y).slice? (x.size + offset) len = y.slice? offset len := by
  unfold slice?
  rw [Array.size_append, Array.extract_append]
  by_cases h : offset + len ≤ y.size
  · rw [if_pos h, if_pos (by omega)]
    have hempty : x.extract (x.size + offset) (x.size + offset + len) = #[] :=
      Array.extract_empty_of_size_le_start (by omega)
    rw [hempty, Array.empty_append]
    congr 2 <;> omega
  · rw [if_neg h, if_neg (by omega)]

theorem slice?_fill {size offset len : Nat} (b : UInt8) (h : offset + len ≤ size) :
    (fill size b).slice? offset len = some (fill len b) := by
  unfold slice? fill
  rw [Array.size_replicate, if_pos h, Array.extract_replicate]
  congr 2
  omega

end Bytes
/-- Work on entries that all come to one result. -/
theorem mapM_eq_replicate {m : Type → Type} [Monad m] [LawfulMonad m] {α β : Type} {g : α → m β}
    {b : β} {l : List α} (h : ∀ a ∈ l, g a = pure b) :
    l.mapM g = pure (List.replicate l.length b) := by
  induction l with
  | nil => rfl
  | cons a l ih =>
    obtain ⟨hfirst, hrest⟩ := List.forall_mem_cons.mp h
    rw [List.mapM_cons, hfirst, ih hrest]
    simp [List.replicate_succ]

namespace Coff

variable {data : Bytes} {strategy : RemovalStrategy} {f : File} {e : Editor}

/-! ### What is there -/

/-- The symbols of a file that fits can be listed. -/
theorem Editor.Fits.exists_symbols (h : e.Fits) : ∃ listed, e.symbols = .ok listed := by
  have hfrom : ∀ fuel index, ∃ listed, e.symbolsFrom fuel index = .ok listed := by
    intro fuel
    induction fuel with
    | zero => exact fun _ ↦ ⟨[], rfl⟩
    | succ fuel ih =>
      intro index
      unfold Editor.symbolsFrom
      split
      · exact ⟨[], rfl⟩
      · next hlt =>
        have hinside : e.recordAt index + symbolSize ≤ e.data.size := by
          have hsymbols := h.symbols
          have hstrings := h.strings
          have hlast : (index + 1) * symbolSize ≤ e.symbolCount * symbolSize :=
            Nat.mul_le_mul_right _ (by omega)
          rw [Nat.succ_mul] at hlast
          unfold Editor.recordAt
          omega
        obtain ⟨r, hr⟩ := SymbolRecord.exists_read? hinside
        obtain ⟨rest, hrest⟩ := ih (index + 1 + r.auxCount)
        have hrecord : e.record index = .ok r := by
          rw [Editor.record, if_neg hlt, hr]
          rfl
        exact ⟨e.symbolOf index r :: rest, by rw [hrecord]; simp [hrest, bind, Except.bind]; rfl⟩
  exact hfrom _ _

/-! ### The same sections -/

/-- Where the headers of sections lie in a file that is edited. -/
theorem Editor.headers_of_parse (h : Editor.parse data strategy = .ok e) : e.data = data ∧
    ∃ header, Header.read? data = some header ∧ e.sectionsAt = headerSize + header.optionalSize ∧
      e.sectionCount = header.sectionCount := by
  obtain ⟨header, hheader, h⟩ := Outcome.bind_eq_ok_iff.mp h
  dsimp only at h
  split at h
  · cases h
  · split at h
    · cases h
    · cases h
      exact ⟨rfl, header, Outcome.orFail_eq_ok_iff.mp hheader, rfl, rfl⟩

/-- Sections are found by their numbers. -/
theorem File.section?_eq_some_iff (hf : File.parse? data = some f)
    (he : Editor.parse data strategy = .ok e) {number : Nat} {h : SectionHeader} :
    f.section? number = some h ↔ e.header number = .ok h := by
  obtain ⟨header, hheader, hf⟩ := Option.bind_eq_some_iff.mp hf
  obtain ⟨sections, hsections, hf⟩ := Option.bind_eq_some_iff.mp hf
  have hfound : f.sections = sections := by
    split at hf
    · cases hf
      rfl
    · obtain ⟨length, -, hf⟩ := Option.bind_eq_some_iff.mp hf
      cases hf
      rfl
  obtain ⟨rfl, header', hheader', hat, hcount⟩ := Editor.headers_of_parse he
  cases hheader.symm.trans hheader'
  unfold sectionsAt? at hsections
  split at hsections
  · have hlookup := getElem?_of_mapM hsections (number - 1)
    unfold section? Editor.header
    rw [hfound, hlookup, Outcome.bind_eq_ok_iff]
    by_cases hzero : number = 0
    · rw [if_pos hzero]
      refine ⟨fun h ↦ (by cases h), fun ⟨_, hat', _⟩ ↦ ?_⟩
      exact absurd hzero (Nat.ne_of_gt (Editor.headerAt_eq_ok_iff.mp hat').1)
    · rw [if_neg hzero]
      simp only [Editor.headerAt_eq_ok_iff, Outcome.orFail_eq_ok_iff, hat, hcount]
      by_cases hlt : number - 1 < header.sectionCount
      · rw [List.getElem?_range hlt, Option.bind_some]
        refine ⟨fun h ↦ ⟨_, ⟨by omega, by omega, rfl⟩, h⟩, fun ⟨_, ⟨_, _, heq⟩, h⟩ ↦ heq ▸ h⟩
      · rw [List.getElem?_eq_none (by simpa using hlt), Option.bind_none]
        exact ⟨fun h ↦ (by cases h), fun ⟨_, ⟨_, hle, _⟩, _⟩ ↦ absurd hle (by omega)⟩
  · cases hsections

/-! ### The same relocations -/

/-- The overflow flag of a section stands for a count that did not fit and is stored in front of the
relocations. -/
def IsCounted (data : Bytes) (h : SectionHeader) : Prop :=
  hasFlag h.characteristics flagOverflow = true → h.relocationCount = 0xffff ∧
    ∃ first, RawRelocation.read? data h.relocationPointer = some first ∧ first.rva ≠ 0

/-- Where relocations start and how many they are. The count of too many of them is in the first
record, which counts itself. -/
def IsTable (data : Bytes) (h : SectionHeader) (offset count : Nat) : Prop :=
  if hasFlag h.characteristics flagOverflow then
    ∃ first, RawRelocation.read? data h.relocationPointer = some first ∧
      offset = h.relocationPointer + relocationSize ∧ count = first.rva.toNat - 1
  else offset = h.relocationPointer ∧ count = h.relocationCount

theorem data_eq (hf : File.parse? data = some f) : f.data = data := by
  obtain ⟨header, -, hf⟩ := Option.bind_eq_some_iff.mp hf
  obtain ⟨sections, -, hf⟩ := Option.bind_eq_some_iff.mp hf
  split at hf
  · cases hf
    rfl
  · obtain ⟨length, -, hf⟩ := Option.bind_eq_some_iff.mp hf
    cases hf
    rfl

/-- What is read of a section's relocations. -/
theorem IsTable.relocations {h : SectionHeader} {offset count : Nat} (ht : IsTable f.data h offset count)
    (hcounted : IsCounted f.data h) :
    f.relocations h = (relocationsAt? f.data offset count).getD [] := by
  unfold File.relocations
  unfold IsTable at ht
  by_cases hflag : hasFlag h.characteristics flagOverflow = true
  · obtain ⟨hfull, first, hfirst, hsome⟩ := hcounted hflag
    rw [if_pos hflag] at ht
    obtain ⟨first', hfirst', rfl, rfl⟩ := ht
    cases hfirst.symm.trans hfirst'
    rw [if_pos ⟨hfull, hflag⟩, hfirst]
    simp [hsome]
  · rw [if_neg hflag] at ht
    obtain ⟨rfl, rfl⟩ := ht
    rw [if_neg (fun hboth ↦ hflag hboth.2)]

/-- What edits see of a section's relocations. -/
theorem IsTable.relocationTable {h : SectionHeader} {offset count number : Nat}
    (ht : IsTable e.data h offset count) (hh : e.header number = .ok h) :
    e.relocationTable number = .ok (offset, count) := by
  unfold IsTable at ht
  unfold Editor.relocationTable
  by_cases hflag : hasFlag h.characteristics flagOverflow = true
  · rw [if_pos hflag] at ht
    obtain ⟨first, hfirst, rfl, rfl⟩ := ht
    simp only [hh, hfirst, orFail, bind, Except.bind, if_pos hflag]
    rfl
  · rw [if_neg hflag] at ht
    obtain ⟨rfl, rfl⟩ := ht
    simp only [hh, bind, Except.bind, if_neg hflag]
    rfl

/-- Sections of which the count is known have one table. -/
theorem IsCounted.exists_table {h : SectionHeader} (hcounted : IsCounted data h) :
    ∃ offset count, IsTable data h offset count := by
  unfold IsTable
  by_cases hflag : hasFlag h.characteristics flagOverflow = true
  · obtain ⟨-, first, hfirst, -⟩ := hcounted hflag
    exact ⟨_, _, by rw [if_pos hflag]; exact ⟨first, hfirst, rfl, rfl⟩⟩
  · exact ⟨_, _, by rw [if_neg hflag]; exact ⟨rfl, rfl⟩⟩

end Coff

namespace ObjectTable

open Coff

variable {path : Path} {data : Bytes} {strategy : RemovalStrategy} {t : ObjectTable} {e : Editor}

/-- The section of a symbol is that of its record. -/
theorem place_of_entry {f : File} {unique : UInt32} {index : Nat} {r : SymbolRecord}
    {s : ObjectSymbol} (h : entry? f unique index r = .ok (some (.symbol s))) :
    (r.place = .outside ∧ s.place = none) ∨
      ∃ number, r.place = .inSection number ∧ s.place = some number := by
  obtain ⟨-, name, place, offset, hplace, rfl⟩ := eq_of_entry h
  exact hplace

/-- A symbol of the tables and one that edits see are the same one, in the same section. Numbers of
sections that do not fit 15 bits are left out. -/
structure IsSame (s : ObjectSymbol) (raw : EditorSymbol) : Prop where
  index : raw.index = s.index
  outside : s.place = none → raw.sectionNumber = 0
  inside : ∀ number, s.place = some number → 0 < number ∧
    (number < 0x8000 → raw.sectionNumber = number)

/-- Every symbol of the tables is one that edits see. -/
theorem exists_isSame {listed : List EditorSymbol} (ht : parse path data = .ok t)
    (he : Editor.parse data strategy = .ok e) (hlisted : e.symbols = .ok listed)
    {s : ObjectSymbol} (hs : s ∈ t.symbols) : ∃ raw ∈ listed, IsSame s raw := by
  rw [Parts.parse_eq] at ht
  obtain ⟨p, hp, ht⟩ := Outcome.bind_eq_ok_iff.mp ht
  cases ht
  obtain ⟨r, bare, -, hmem, hentry, hrefs⟩ := Parts.exists_entry hp he hlisted hs
  cases hrefs
  refine ⟨_, hmem, rfl, fun hnone ↦ ?_, fun number hnumber ↦ ?_⟩
  · rcases place_of_entry hentry with ⟨hplace, -⟩ | ⟨number, -, hnumber⟩
    · obtain ⟨hzero, -⟩ := SymbolRecord.place_eq_outside hplace
      rw [SymbolRecord.sectionNumber_symbolOf e _ (by omega) (by omega), hzero]
    · cases hnumber.symm.trans hnone
  · rcases place_of_entry hentry with ⟨-, hnone⟩ | ⟨number', hplace, hnumber'⟩
    · cases hnone.symm.trans hnumber
    · cases hnumber'.symm.trans hnumber
      obtain ⟨hequal, hpos⟩ := SymbolRecord.place_eq_inSection hplace
      refine ⟨hpos, fun hlt ↦ ?_⟩
      rw [SymbolRecord.sectionNumber_symbolOf e _ (by omega) (by omega), hequal]

/-- The relocations of a section are the same when their table is there. Where it reaches past the
end of the file, none are read and edits of them fail. -/
theorem relocations_spec {f : File} {number : Nat} {h : SectionHeader}
    (hf : File.parse? data = some f) (he : Editor.parse data strategy = .ok e)
    (hh : e.header number = .ok h) (hcounted : IsCounted data h) :
    ∃ offset count, IsTable data h offset count ∧
      if count = 0 ∨ offset + count * relocationSize ≤ data.size then
        e.relocations number = .ok (f.relocations h)
      else f.relocations h = [] ∧ e.relocations number
        = .error (.error (Cause.truncatedRelocationsOf number).toError) := by
  obtain ⟨offset, count, htable⟩ := hcounted.exists_table
  refine ⟨offset, count, htable, ?_⟩
  obtain rfl := (Editor.headers_of_parse he).1
  have hdata := data_eq hf
  have hseen : e.relocations number = if count = 0 then .ok [] else
      orFail (.truncatedRelocationsOf number) (relocationsAt? e.data offset count) := by
    simp only [Editor.relocations, htable.relocationTable hh, bind, Except.bind]
    rfl
  have hread : f.relocations h = (relocationsAt? e.data offset count).getD [] := by
    rw [← hdata] at htable hcounted ⊢
    exact htable.relocations hcounted
  rw [hseen, hread]
  by_cases hthere : offset + count * relocationSize ≤ e.data.size
  · obtain ⟨listed, hlisted⟩ := Option.isSome_iff_exists.mp (isSome_relocationsAt?_iff.mpr hthere)
    rw [if_pos (.inr hthere), hlisted, Option.getD_some]
    split
    · next hzero =>
      have hnil : listed = [] := by
        rw [hzero, relocationsAt?, Nat.zero_mul] at hlisted
        split at hlisted
        · cases hlisted
          rfl
        · cases hlisted
      rw [hnil]
    · rfl
  · have hnone : relocationsAt? e.data offset count = none := if_neg hthere
    rw [hnone]
    by_cases hzero : count = 0
    · rw [if_pos (.inl hzero), if_pos hzero]
      rfl
    · rw [if_neg (by tauto), if_neg hzero]
      exact ⟨rfl, rfl⟩

/-- Reading an object file and editing it see the same symbols, each once, in the same sections; and
the same relocations, at the same positions, of every section whose relocations are there. Where a
table of relocations reaches past the end of the file, none of them are read and edits of them
fail. -/
theorem reading_agrees_with_editing (ht : parse path data = .ok t)
    (he : Editor.parse data strategy = .ok e) :
    (t.symbols.map ObjectSymbol.index).Nodup ∧
    (∃ listed, e.symbols = .ok listed ∧ ∀ s ∈ t.symbols, ∃ raw ∈ listed, IsSame s raw) ∧
    ∃ f, File.parse? data = some f ∧ ∀ number h, (f.section? number = some h ↔ e.header number = .ok h) ∧
      (e.header number = .ok h → IsCounted data h →
        ∃ offset count, IsTable data h offset count ∧
          if count = 0 ∨ offset + count * relocationSize ≤ data.size then
            e.relocations number = .ok (f.relocations h)
          else f.relocations h = [] ∧ e.relocations number
            = .error (.error (Cause.truncatedRelocationsOf number).toError)) := by
  obtain ⟨listed, hlisted⟩ := (Editor.fits_of_parse he).exists_symbols
  have hnodup : (t.symbols.map ObjectSymbol.index).Nodup := by
    rw [Parts.parse_eq] at ht
    obtain ⟨p, hp, ht⟩ := Outcome.bind_eq_ok_iff.mp ht
    cases ht
    exact ((Parts.lists hp).withReferences p.references).nodup
  obtain ⟨f, hf, -⟩ := Outcome.bind_eq_ok_iff.mp ht
  replace hf := Outcome.orFail_eq_ok_iff.mp hf
  exact ⟨hnodup, ⟨listed, hlisted, fun s hs ↦ exists_isSame ht he hlisted hs⟩, f, hf,
    fun number h ↦ ⟨File.section?_eq_some_iff hf he, relocations_spec hf he⟩⟩

/-- A file with two relocations. -/
theorem placed_file_is_read_as_it_is_edited : ∃ e f h,
    parse ⟨"/p.obj"⟩ Placed.file = .ok Placed.table ∧
    Editor.parse Placed.file .absolute = .ok e ∧ File.parse? Placed.file = some f ∧
    (∃ listed, e.symbols = .ok listed ∧ ∀ s ∈ Placed.table.symbols, ∃ raw ∈ listed, IsSame s raw) ∧
    e.header 1 = .ok h ∧ f.section? 1 = some h ∧ e.relocations 1 = .ok (f.relocations h) := by
  have hparse : parse ⟨"/p.obj"⟩ Placed.file = .ok Placed.table := by decide +kernel
  have he : Editor.parse Placed.file .absolute
      = .ok ⟨Placed.file, .absolute, 20, 2, 140, 5, 230⟩ := Editor.parse_eq_ok (by decide +kernel)
  obtain ⟨-, hsymbols, f, hf, hsections⟩ := reading_agrees_with_editing hparse he
  obtain ⟨h, hh⟩ := (Editor.fits_of_parse he).exists_header (show 0 < 1 by decide)
    (show 1 ≤ 2 by decide)
  have hfields : (Editor.header ⟨Placed.file, .absolute, 20, 2, 140, 5, 230⟩ 1).map (fun h ↦
      (h.characteristics, h.relocationPointer, h.relocationCount)) = .ok (0x60500020, 112, 2) := by
    decide +kernel
  rw [hh] at hfields
  obtain ⟨hflags, hpointer, hcount⟩ : h.characteristics = 0x60500020 ∧ h.relocationPointer = 112 ∧
      h.relocationCount = 2 := by simpa using Except.ok.inj hfields
  have hplain : ¬hasFlag h.characteristics flagOverflow = true := by
    rw [hflags]
    decide
  obtain ⟨hiff, hrelocations⟩ := hsections 1 h
  obtain ⟨offset, count, htable, hsame⟩ := hrelocations hh fun hflag ↦ absurd hflag hplain
  rw [IsTable, if_neg hplain, hpointer, hcount] at htable
  obtain ⟨rfl, rfl⟩ := htable
  have hsize : Placed.file.size = 234 := by decide +kernel
  rw [if_pos (.inr (by rw [hsize]; decide))] at hsame
  exact ⟨_, f, h, hparse, he, hf, hsymbols, hh, hiff.mpr hh, hsame⟩

/-! A file with so many sections that the number of the last one has its highest bit set. That section
holds a symbol, and the first one claims a relocation far behind the end of the file. -/

namespace Wide

/-- Headers of the file and of its first section. -/
def front : Bytes :=
  ([0x64, 0x86, 0x00, 0x80, 0x00, 0x00, 0x00, 0x00, 0x14, 0x00, 0x14, 0x00, 0x01, 0x00, 0x00, 0x00,
    0x00, 0x00, 0x00, 0x00]
  ++ [0x61, 0x00, 0x00, 0x00, 0x00, 0x00, 0x00, 0x00, 0x00, 0x00, 0x00, 0x00, 0x00, 0x00, 0x00, 0x00,
    0x00, 0x00, 0x00, 0x00, 0x00, 0x00, 0x00, 0x00, 0xff, 0xff, 0xff, 0xff, 0x00, 0x00, 0x00, 0x00,
    0x01, 0x00, 0x00, 0x00, 0x00, 0x00, 0x00, 0x00] : List UInt8).toArray

/-- The symbol and an empty string table. -/
def back : Bytes :=
  ([0x78, 0x00, 0x00, 0x00, 0x00, 0x00, 0x00, 0x00, 0x00, 0x00, 0x00, 0x00, 0x00, 0x80, 0x00, 0x00,
    0x02, 0x00] ++ [0x04, 0x00, 0x00, 0x00] : List UInt8).toArray

/-- The file, with a number of sections that hold nothing behind the first one. -/
def bytes (n : Nat) : Bytes := front ++ (Bytes.fill (n * sectionHeaderSize) 0 ++ back)

theorem size_bytes (n : Nat) : (bytes n).size = n * 40 + 82 := by
  have hfront : front.size = 60 := by decide
  have hback : back.size = 22 := by decide
  simp [bytes, Bytes.fill, sectionHeaderSize, hfront, hback]
  omega

theorem slice?_front (n : Nat) {offset len : Nat} (h : offset + len ≤ 60) :
    (bytes n).slice? offset len = front.slice? offset len := Bytes.slice?_append_left h

theorem slice?_middle {n i : Nat} (h : i < n) : (bytes n).slice? (60 + i * sectionHeaderSize)
    sectionHeaderSize = some (Bytes.fill sectionHeaderSize 0) := by
  have hlast : (i + 1) * sectionHeaderSize ≤ n * sectionHeaderSize := Nat.mul_le_mul_right _ h
  rw [Nat.succ_mul] at hlast
  rw [bytes, show 60 = front.size from by decide, Bytes.slice?_append_right,
    Bytes.slice?_append_left (by simpa [Bytes.fill] using hlast), Bytes.slice?_fill 0 hlast]

theorem slice?_back (n offset len : Nat) :
    (bytes n).slice? (60 + (n * sectionHeaderSize + offset)) len = back.slice? offset len := by
  have hfill : n * sectionHeaderSize = (Bytes.fill (n * sectionHeaderSize) 0).size := by
    simp [Bytes.fill]
  have hright := Bytes.slice?_append_right (Bytes.fill (n * sectionHeaderSize) 0) back offset len
  rw [← hfill] at hright
  rw [bytes, show 60 = front.size from by decide, Bytes.slice?_append_right, hright]

def first : SectionHeader := ⟨[0x61, 0, 0, 0, 0, 0, 0, 0], 0, 0, 0, 0, 0xffffffff, 1, 0⟩

def blank : SectionHeader := ⟨[0, 0, 0, 0, 0, 0, 0, 0], 0, 0, 0, 0, 0, 0, 0⟩

def record : SymbolRecord := ⟨[0x78, 0, 0, 0, 0, 0, 0, 0], 0, 0x8000, 0, 2, 0⟩

theorem read?_header (n : Nat) :
    Header.read? (bytes n) = some ⟨machineAmd64, 0x8000, 0x140014, 1, 0⟩ := by
  rw [Header.read?, slice?_front n (by decide)]
  rfl

theorem read?_first (n : Nat) : SectionHeader.read? (bytes n) 20 = some first := by
  rw [SectionHeader.read?, slice?_front n (by decide)]
  rfl

theorem read?_blank {n i : Nat} (h : i < n) :
    SectionHeader.read? (bytes n) (60 + i * sectionHeaderSize) = some blank := by
  rw [SectionHeader.read?, slice?_middle h]
  rfl

theorem read?_record (n : Nat) :
    SymbolRecord.read? (bytes n) (60 + n * sectionHeaderSize) = some record := by
  rw [SymbolRecord.read?, ← Nat.add_zero (n * sectionHeaderSize), slice?_back]
  rfl

theorem numberAt?_strings (n : Nat) :
    (bytes n).numberAt? (60 + (n * sectionHeaderSize + symbolSize)) 4 = some 4 := by
  rw [Bytes.numberAt?, slice?_back]
  rfl

def sections : List SectionHeader := first :: List.replicate 0x7fff blank

theorem sectionsAt?_eq : File.sectionsAt? (bytes 0x7fff) 20 0x8000 = some sections := by
  have hsize := size_bytes 0x7fff
  have hblanks : ((List.range 0x7fff).map Nat.succ).mapM
      (fun i ↦ SectionHeader.read? (bytes 0x7fff) (20 + i * sectionHeaderSize))
      = some (List.replicate 0x7fff blank) := by
    refine (mapM_eq_replicate (b := blank) fun i hi ↦ ?_).trans ?_
    · obtain ⟨j, hj, rfl⟩ := List.mem_map.mp hi
      have hat : 20 + (j + 1) * sectionHeaderSize = 60 + j * sectionHeaderSize := by
        unfold sectionHeaderSize
        omega
      rw [hat]
      exact read?_blank (List.mem_range.mp hj)
    · rw [List.length_map, List.length_range]
      rfl
  rw [File.sectionsAt?, if_pos (by rw [hsize]; decide), sections, show 0x8000 = 0x7fff + 1 from rfl,
    List.range_succ_eq_map, List.mapM_cons, hblanks, Nat.zero_mul, Nat.add_zero, read?_first]
  rfl

/-- What the file is read from. -/
structure IsRead (d : Bytes) (l : List SectionHeader) : Prop where
  header : Header.read? d = some ⟨machineAmd64, 0x8000, 0x140014, 1, 0⟩
  sections : File.sectionsAt? d 20 0x8000 = some l
  first : SectionHeader.read? d 20 = some first
  last : l[0x7fff]? = some blank
  others : ∀ h ∈ l, h = Wide.first ∨ h = blank
  record : SymbolRecord.read? d 0x140014 = some record
  strings : d.numberAt? 0x140026 4 = some 4
  size : d.size = 0x14002a

theorem getElem?_last (n : Nat) :
    (first :: List.replicate (n + 1) blank)[n + 1]? = some blank := by simp

theorem isRead : IsRead (bytes 0x7fff) sections where
  header := read?_header _
  sections := sectionsAt?_eq
  first := read?_first _
  last := getElem?_last 0x7ffe
  others := by
    intro h hmem
    rcases List.mem_cons.mp hmem with heq | hmem
    · exact .inl heq
    · exact .inr (List.eq_of_mem_replicate hmem)
  record := by
    have h := read?_record 0x7fff
    rwa [show 60 + 0x7fff * sectionHeaderSize = 0x140014 from by decide] at h
  strings := by
    have h := numberAt?_strings 0x7fff
    rwa [show 60 + (0x7fff * sectionHeaderSize + symbolSize) = 0x140026 from by decide] at h
  size := size_bytes _

variable {d : Bytes} {l : List SectionHeader}

/-- The file as it is read. -/
def file (d : Bytes) (l : List SectionHeader) : File :=
  ⟨d, l, 0x140014, 1, some ⟨0x140026, 0x14002a⟩⟩

/-- The file as it is edited. -/
def editor (d : Bytes) : Editor := ⟨d, .absolute, 20, 0x8000, 0x140014, 1, 0x140026⟩

/-- The symbol in the last section. -/
def symbol : ObjectSymbol := ⟨0, "x", some 0x8000, 0, false, true, false, false, []⟩

theorem IsRead.file (h : IsRead d l) : File.parse? d = some (file d l) := by
  rw [File.parse?, h.header]
  simp only [Option.bind_eq_bind, Option.bind_some]
  rw [show headerSize + 0 = 20 from rfl, h.sections]
  simp only [Option.bind_some]
  rw [if_neg (by decide), show 0x140014 + 1 * symbolSize = 0x140026 from rfl, h.strings]
  rfl

theorem IsRead.editor (h : IsRead d l) : Editor.parse d .absolute = .ok (editor d) := by
  rw [Editor.parse, h.header]
  simp only [orFail, bind, Except.bind]
  rw [if_neg (by decide), if_neg (by rw [h.size]; decide)]
  rfl

theorem IsRead.symbols (h : IsRead d l) : (Wide.file d l).symbols = [(0, Wide.record)] := by
  have hrecord : (Wide.file d l).record? 0 = some Wide.record :=
    (if_pos Nat.zero_lt_one).trans h.record
  rw [File.symbols, show (Wide.file d l).symbolCount = 1 from rfl, File.symbolsFrom, hrecord]
  rfl

theorem IsRead.edited (h : IsRead d l) :
    (Wide.editor d).symbols = .ok [⟨0, "x", 0, -0x8000, classExternal, 0⟩] := by
  have hrecord : (Wide.editor d).record 0 = .ok Wide.record := by
    rw [Editor.record, if_neg (by exact Nat.not_succ_le_zero 0)]
    exact congrArg (orFail _) h.record
  have hname : (Wide.editor d).symbolName Wide.record = "x" := by
    rw [Editor.symbolName, if_neg (by decide)]
    decide +kernel
  have hsymbol : (Wide.editor d).symbolOf 0 Wide.record = ⟨0, "x", 0, -0x8000, classExternal, 0⟩ := by
    rw [Editor.symbolOf, hname]
    rfl
  rw [Editor.symbols, show (Wide.editor d).symbolCount = 1 from rfl, Editor.symbolsFrom, hrecord]
  simp only [bind, Except.bind, hsymbol]
  rfl

theorem IsRead.entry (h : IsRead d l) (unique : UInt32) :
    entry? (Wide.file d l) unique 0 Wide.record = .ok (some (.symbol symbol)) := by
  have hname : (Wide.file d l).symbolName? 0 Wide.record = some "x" := by
    have hbytes : (Wide.file d l).nameBytes? 0 Wide.record = some [0x78] := by
      rw [File.nameBytes?, if_neg (by decide), if_neg (by decide)]
      decide
    rw [File.symbolName?, hbytes]
    decide +kernel
  have hplace : placeOffset (Wide.file d l) Wide.record (some 0x8000) = .ok 0 := by
    have hsection : (Wide.file d l).section? 0x8000 = some blank := h.last
    rw [placeOffset, hsection]
    rfl
  have hinside : Wide.record.place = .inSection 0x8000 := by decide
  have hkind : Wide.record.kind = .data := by decide
  simp only [ entry?, hname, orFail, hinside, hkind, hplace, bind, Except.bind]
  rfl

/-- Neither kind of section contributes anything. -/
theorem IsRead.yield (h : IsRead d l) {header : SectionHeader} (hmem : header ∈ l)
    (symbols : List ObjectSymbol) (sectionSymbols : List (Nat × Nat)) (number : Nat) :
    sectionYield (Wide.file d l) symbols sectionSymbols number header = .ok ⟨[], []⟩ := by
  have hempty : d.slice? 0 0 = some #[] := by
    rw [Bytes.slice?, if_pos (Nat.zero_le _)]
    simp
  rcases h.others header hmem with rfl | rfl
  · have hname : (Wide.file d l).sectionName Wide.first = "a" := by
      have hbytes : (Wide.file d l).sectionNameBytes? Wide.first = some [0x61] := rfl
      rw [File.sectionName, hbytes]
      decide +kernel
    have hdata : (Wide.file d l).sectionData? Wide.first = some #[] := hempty
    have hnone : (Wide.file d l).relocations Wide.first = [] := by
      have hfar : relocationsAt? d 0xffffffff 1 = none :=
        if_neg (by rw [h.size]; decide)
      exact congrArg (·.getD []) hfar
    rw [sectionYield, hname, if_neg (by decide), if_neg (by decide), hdata, hnone]
    rfl
  · have hname : (Wide.file d l).sectionName blank = "" := by
      have hbytes : (Wide.file d l).sectionNameBytes? blank = some [] := rfl
      rw [File.sectionName, hbytes]
      decide +kernel
    have hdata : (Wide.file d l).sectionData? blank = some #[] := hempty
    have hnone : (Wide.file d l).relocations blank = [] := by
      have hfar : relocationsAt? d 0 0 = some [] := if_pos (Nat.zero_le _)
      exact congrArg (·.getD []) hfar
    rw [sectionYield, hname, if_neg (by decide), if_neg (by decide), hdata, hnone]
    rfl

theorem IsRead.parse (h : IsRead d l) (path : Path) :
    ∃ t, ObjectTable.parse path d = .ok t ∧ t.symbols = [symbol] := by
  have hyields := mapM_eq_replicate (m := Outcome) (b := (⟨[], []⟩ : SectionYield))
    (l := l.zipIdx 1) (g := fun numbered ↦
      sectionYield (Wide.file d l) [symbol] [] numbered.2 numbered.1)
    fun numbered hmem ↦ h.yield (List.fst_mem_of_mem_zipIdx hmem) _ _ _
  have hentries : (Wide.file d l).symbols.mapM (fun entry ↦
      entry? (Wide.file d l) (Fingerprint.ofPath path) entry.1 entry.2)
      = .ok [some (.symbol symbol)] := by
    rw [h.symbols, List.mapM_cons]
    dsimp only
    rw [h.entry]
    rfl
  have hread : Parts.read path d
      = .ok ⟨Wide.file d l, [symbol], [], List.replicate (l.zipIdx 1).length ⟨[], []⟩⟩ := by
    refine Outcome.bind_eq_ok_iff.mpr ⟨_, Outcome.orFail_eq_ok_iff.mpr h.file, ?_⟩
    refine Outcome.bind_eq_ok_iff.mpr ⟨_, hentries, ?_⟩
    exact Outcome.bind_eq_ok_iff.mpr ⟨_, hyields, rfl⟩
  refine ⟨_, (Parts.parse_eq path d).trans (Outcome.bind_eq_ok_iff.mpr ⟨_, hread, rfl⟩), ?_⟩
  have hnone : (List.replicate (l.zipIdx 1).length (⟨[], []⟩ : SectionYield)).flatMap
      SectionYield.references = [] := by
    refine List.flatMap_eq_nil_iff.mpr fun y hy ↦ ?_
    rw [List.eq_of_mem_replicate hy]
  rw [Parts.table, Parts.references, hnone]
  rfl

/-- What is read and what is edited differ. -/
structure Differs (d : Bytes) (t : ObjectTable) (f : File) (e : Editor) : Prop where
  parse : ObjectTable.parse ⟨"/w.obj"⟩ d = .ok t
  editor : Editor.parse d .absolute = .ok e
  file : File.parse? d = some f
  number : ∃ s ∈ t.symbols, s.place = some 0x8000 ∧
    ∃ listed, e.symbols = .ok listed ∧ ∀ raw ∈ listed, raw.index = s.index → raw.sectionNumber < 0
  relocations : ∃ h, f.section? 1 = some h ∧ e.header 1 = .ok h ∧ IsCounted d h ∧
    f.relocations h = [] ∧
    e.relocations 1 = .error (.error (Cause.truncatedRelocationsOf 1).toError)

theorem IsRead.differs (h : IsRead d l) : ∃ t f e, Differs d t f e := by
  obtain ⟨t, ht, hsymbols⟩ := h.parse ⟨"/w.obj"⟩
  have hheader : (Wide.editor d).header 1 = .ok Wide.first :=
    Outcome.bind_eq_ok_iff.mpr ⟨20, rfl, Outcome.orFail_eq_ok_iff.mpr h.first⟩
  have hcounted : IsCounted d Wide.first := fun hflag ↦ absurd hflag (by decide)
  have hsection := (File.section?_eq_some_iff h.file h.editor).mpr hheader
  obtain ⟨offset, count, htable, hfar⟩ := relocations_spec h.file h.editor hheader hcounted
  obtain ⟨rfl, rfl⟩ : offset = 0xffffffff ∧ count = 1 := htable
  rw [if_neg (by rw [h.size]; decide)] at hfar
  refine ⟨t, _, _, ht, h.editor, h.file, ?_, Wide.first, hsection, hheader, hcounted, hfar⟩
  exact ⟨symbol, by rw [hsymbols]; exact List.mem_singleton_self _, rfl, _, h.edited,
    fun raw hraw _ ↦ by rw [List.mem_singleton.mp hraw]; decide⟩

end Wide

/-- A file with very many sections, of which the last one holds a symbol and the first one claims a
relocation far behind the end of the file. -/
theorem reading_differs_from_editing : ∃ t f e, Wide.Differs (Wide.bytes 0x7fff) t f e :=
  Wide.isRead.differs

end ObjectTable
end LivePatch
