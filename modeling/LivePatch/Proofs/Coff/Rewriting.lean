import LivePatch.Proofs.Coff.Separation
import LivePatch.Proofs.Coff.Sparing
import LivePatch.Proofs.Coff.Stamps

/-!
# What rewriting keeps

An object file whose parts are separate, after symbols were neutralized, sections dropped, types of
relocations set and directives blanked out, in any order. Every record that is looked at later is
either what it was or what the last edit of it made of it, and every record lies where it lay.
-/

namespace LivePatch.Coff

open Bytes

variable {b b' : Bytes} {offset : Nat}

/-! ### Records after an edit of them -/

/-- A word of 16 bits is read back from its bytes. -/
theorem u16At?_zero_ofU16 (w : UInt16) : (ofU16 w).u16At? 0 = some w := by
  rw [u16At?, ofU16, numberAt?_ofNumber, Option.map_some]
  congr 1
  apply UInt16.toNat_inj.mp
  rw [UInt16.toNat_ofNat']
  exact (Nat.mod_mod _ _).trans (Nat.mod_eq_of_lt w.toNat_lt)

/-- The fields of a relocation follow each other. -/
theorem RawRelocation.read?_eq_some_iff {r : RawRelocation} :
    read? b offset = some r ↔ offset + relocationSize ≤ b.size ∧ b.u32At? offset = some r.rva ∧
      b.numberAt? (offset + 4) 4 = some r.symbol ∧ b.u16At? (offset + 8) = some r.typ := by
  by_cases hinside : offset + relocationSize ≤ b.size
  · obtain ⟨s, hs⟩ : ∃ s, b.slice? offset relocationSize = some s := ⟨_, if_pos hinside⟩
    have hnumber : ∀ {i n}, i + n ≤ relocationSize →
        s.numberAt? i n = b.numberAt? (offset + i) n := numberAt?_of_slice? hs
    cases r
    simp only [read?, hs, u32At?, u16At?, hnumber (show 0 + 4 ≤ relocationSize by decide),
      hnumber (show 4 + 4 ≤ relocationSize by decide),
      hnumber (show 8 + 2 ≤ relocationSize by decide), Option.bind_eq_bind, Option.bind_some,
      Option.bind_eq_some_iff, Option.pure_def, Option.some.injEq, mk.injEq, Nat.add_zero,
      hinside, true_and]
    constructor
    · rintro ⟨_, hrva, _, hsymbol, _, htyp, rfl, rfl, rfl⟩
      exact ⟨hrva, hsymbol, htyp⟩
    · rintro ⟨hrva, hsymbol, htyp⟩
      exact ⟨_, hrva, _, hsymbol, _, htyp, rfl, rfl, rfl⟩
  · rw [read?, slice?, if_neg hinside]
    exact iff_of_false (Option.some_ne_none r).symm fun h ↦ hinside h.1

/-- The fields of the header of a section follow each other. -/
theorem SectionHeader.read?_eq_some_iff {h : SectionHeader} :
    read? b offset = some h ↔ offset + sectionHeaderSize ≤ b.size ∧
      (b.slice? offset 8).map Array.toList = some h.name ∧
      b.u32At? (offset + 8) = some h.virtualSize ∧ b.u32At? (offset + 12) = some h.virtualAddress ∧
      b.numberAt? (offset + 16) 4 = some h.rawSize ∧
      b.numberAt? (offset + 20) 4 = some h.rawPointer ∧
      b.numberAt? (offset + 24) 4 = some h.relocationPointer ∧
      b.numberAt? (offset + 32) 2 = some h.relocationCount ∧
      b.u32At? (offset + 36) = some h.characteristics := by
  by_cases hinside : offset + sectionHeaderSize ≤ b.size
  · obtain ⟨s, hs⟩ : ∃ s, b.slice? offset sectionHeaderSize = some s := ⟨_, if_pos hinside⟩
    have hnumber : ∀ {i n}, i + n ≤ sectionHeaderSize →
        s.numberAt? i n = b.numberAt? (offset + i) n := numberAt?_of_slice? hs
    have hname : s.slice? 0 8 = b.slice? offset 8 := slice?_of_slice? hs (by decide)
    have hword : ∀ {i}, i + 4 ≤ sectionHeaderSize → s.u32At? i = b.u32At? (offset + i) :=
      fun hi ↦ by rw [u32At?, u32At?, hnumber hi]
    cases h
    simp only [read?, hs, hname, hword (show 8 + 4 ≤ sectionHeaderSize by decide),
      hword (show 12 + 4 ≤ sectionHeaderSize by decide),
      hword (show 36 + 4 ≤ sectionHeaderSize by decide),
      hnumber (show 16 + 4 ≤ sectionHeaderSize by decide),
      hnumber (show 20 + 4 ≤ sectionHeaderSize by decide),
      hnumber (show 24 + 4 ≤ sectionHeaderSize by decide),
      hnumber (show 32 + 2 ≤ sectionHeaderSize by decide), Option.bind_eq_bind, Option.bind_some,
      Option.bind_eq_some_iff, Option.pure_def, Option.some.injEq, mk.injEq, Option.map_eq_some_iff,
      hinside, true_and]
    constructor
    · rintro ⟨_, hbytes, _, hsize, _, haddress, _, hraw, _, hpointer, _, htable, _, hcount, _, hflags,
        rfl, rfl, rfl, rfl, rfl, rfl, rfl, rfl⟩
      exact ⟨⟨_, hbytes, rfl⟩, hsize, haddress, hraw, hpointer, htable, hcount, hflags⟩
    · rintro ⟨⟨_, hbytes, rfl⟩, hsize, haddress, hraw, hpointer, htable, hcount, hflags⟩
      exact ⟨_, hbytes, _, hsize, _, haddress, _, hraw, _, hpointer, _, htable, _, hcount, _, hflags,
        rfl, rfl, rfl, rfl, rfl, rfl, rfl, rfl⟩
  · rw [read?, slice?, if_neg hinside]
    exact iff_of_false (Option.some_ne_none h).symm fun h' ↦ hinside h'.1

/-- A relocation is read exactly if its bytes are there. -/
theorem RawRelocation.isSome_read?_iff :
    (read? b offset).isSome = true ↔ offset + relocationSize ≤ b.size := by
  refine ⟨fun h ↦ ?_, fun h ↦ Option.isSome_iff_exists.mpr (exists_read? h)⟩
  obtain ⟨r, hr⟩ := Option.isSome_iff_exists.mp h
  exact (read?_eq_some_iff.mp hr).1

/-- A relocation of which the type was set. -/
def RawRelocation.retyped (typ : Option UInt16) (r : RawRelocation) : RawRelocation :=
  { r with typ := typ.getD r.typ }

/-- Setting the type of a relocation changes nothing else of it. -/
theorem RawRelocation.read?_retyped {r : RawRelocation} (h : read? b offset = some r)
    (typ : UInt16) : read? (b.overwrite (offset + 8) (ofU16 typ)) offset
      = some (r.retyped (some typ)) := by
  obtain ⟨hinside, hrva, hsymbol, -⟩ := read?_eq_some_iff.mp h
  unfold relocationSize at hinside
  have htwo : (ofU16 typ).size = 2 := by simp [ofU16, length_ofNumber]
  have hlast : offset + 8 + (ofU16 typ).size ≤ b.size := by omega
  have hsize := size_overwrite hlast
  have hother : ∀ {i n}, i + n ≤ 8 →
      (b.overwrite (offset + 8) (ofU16 typ)).numberAt? (offset + i) n
        = b.numberAt? (offset + i) n := fun hi ↦
    numberAt?_congr hsize (sameIn_overwrite hlast (.inr (.inr (.inr (by dsimp only; omega)))))
  refine read?_eq_some_iff.mpr ⟨by rw [hsize]; exact hinside, ?_, ?_, ?_⟩
  · have hfirst : (b.overwrite (offset + 8) (ofU16 typ)).numberAt? offset 4
        = b.numberAt? offset 4 := hother (i := 0) (by omega)
    rw [u32At?, hfirst, ← u32At?, hrva]
    rfl
  · rw [hother (by omega), hsymbol]
    rfl
  · have hown := slice?_overwrite hlast
    have htyp := u16At?_zero_ofU16 typ
    rw [u16At?, numberAt?, ← htwo, slice?_self] at htyp
    rw [u16At?, numberAt?, ← htwo, hown, htyp]
    rfl

/-- The header of a section that was dropped. -/
def SectionHeader.dropped (h : SectionHeader) : SectionHeader :=
  ⟨Editor.removedSectionName.toList, h.virtualSize, h.virtualAddress, 0, 0, 0, 0,
    flagRemove ||| flagDiscardable⟩

/-- What is written over the header of a section that is dropped. -/
def Editor.headerStamps (at' : Nat) : List Stamp :=
  [⟨at', removedSectionName⟩, ⟨at' + 16, Bytes.fill 20 0⟩,
    ⟨at' + 36, ofU32 (flagRemove ||| flagDiscardable)⟩]

theorem Editor.size_flags : (ofU32 (flagRemove ||| flagDiscardable)).size = 4 := by decide

/-- Everything that is written over a header lies in it. -/
theorem Editor.le_of_mem_headerStamps {at' : Nat} {s : Stamp} (hs : s ∈ headerStamps at') :
    at' ≤ s.offset ∧ s.offset + s.bytes.size ≤ at' + sectionHeaderSize := by
  simp only [headerStamps, List.mem_cons, List.not_mem_nil, or_false] at hs
  rcases hs with rfl | rfl | rfl
  · exact ⟨Nat.le_refl _, Nat.add_le_add_left (show 8 ≤ 40 by decide) at'⟩
  · exact ⟨Nat.le_add_right _ _, Nat.add_le_add_left (show 36 ≤ 40 by decide) at'⟩
  · refine ⟨Nat.le_add_right _ _, ?_⟩
    dsimp only
    rw [size_flags]
    exact Nat.le_refl _

theorem Editor.pairwise_headerStamps (at' : Nat) :
    (headerStamps at').Pairwise fun s s' ↦ s.window.IsClear s'.window := by
  refine .cons (List.forall_mem_cons.mpr ⟨?_, List.forall_mem_singleton.mpr ?_⟩)
    (.cons (List.forall_mem_singleton.mpr ?_) (List.pairwise_singleton _ _))
  · exact .inr (.inr (.inl (Nat.add_le_add_left (show 8 ≤ 16 by decide) at')))
  · exact .inr (.inr (.inl (Nat.add_le_add_left (show 8 ≤ 36 by decide) at')))
  · exact .inr (.inr (.inl (Nat.le_refl (at' + 36))))

/-- Dropping a section keeps nothing of its header but where it would have been in memory. -/
theorem SectionHeader.read?_stamped {h : SectionHeader} (hread : read? b offset = some h) :
    read? (b.stamped (Editor.headerStamps offset)) offset = some h.dropped := by
  obtain ⟨hinside, -, hsize, haddress, -⟩ := read?_eq_some_iff.mp hread
  have hstamps : ∀ s ∈ Editor.headerStamps offset, s.IsInside b.size := fun s hs ↦
    Nat.le_trans (Editor.le_of_mem_headerStamps hs).2 hinside
  have hown : ∀ s ∈ Editor.headerStamps offset,
      (b.stamped (Editor.headerStamps offset)).slice? s.offset s.bytes.size = some s.bytes :=
    fun s hs ↦ slice?_stamped hstamps
      (fun _ hs _ hs' ↦ agrees_of_pairwise (Editor.pairwise_headerStamps offset) hs hs') hs
  have hname := hown ⟨offset, Editor.removedSectionName⟩ (by simp [Editor.headerStamps])
  have hzeros := hown ⟨offset + 16, Bytes.fill 20 0⟩ (by simp [Editor.headerStamps])
  have hflags := hown ⟨offset + 36, ofU32 (flagRemove ||| flagDiscardable)⟩
    (by simp [Editor.headerStamps])
  have hkept : ∀ {i}, 8 ≤ i → i ≤ 12 →
      (b.stamped (Editor.headerStamps offset)).u32At? (offset + i) = b.u32At? (offset + i) := by
    intro i hlo hhi
    rw [u32At?, u32At?, numberAt?_congr (size_stamped hstamps)
      (sameIn_stamped hstamps fun s hs ↦ ?_)]
    simp only [Editor.headerStamps, List.mem_cons, List.not_mem_nil, or_false] at hs
    rcases hs with rfl | rfl | rfl
    · exact .inr (.inr (.inl (Nat.add_le_add_left hlo offset)))
    · exact .inr (.inr (.inr (by unfold Stamp.window; dsimp only; omega)))
    · exact .inr (.inr (.inr (by unfold Stamp.window; dsimp only; omega)))
  have hzero : ∀ {i n}, i + n ≤ 20 → (Bytes.fill 20 0).numberAt? i n = some 0 →
      (b.stamped (Editor.headerStamps offset)).numberAt? (offset + 16 + i) n = some 0 :=
    fun hi h ↦ (numberAt?_of_slice? hzeros hi).symm.trans h
  refine read?_eq_some_iff.mpr ⟨(size_stamped hstamps).symm ▸ hinside, ?_,
    (hkept (by decide) (by decide)).trans hsize, (hkept (by decide) (by decide)).trans haddress,
    hzero (i := 0) (by decide) rfl, hzero (i := 4) (by decide) rfl, hzero (i := 8) (by decide) rfl,
    hzero (i := 16) (by decide) rfl, ?_⟩
  · exact congrArg _ hname
  · have hword := u32At?_zero_ofU32 (flagRemove ||| flagDiscardable)
    rw [u32At?, numberAt?, ← Editor.size_flags, slice?_self] at hword
    rw [u32At?, numberAt?, ← Editor.size_flags, hflags, hword]
    rfl

theorem SectionDefinition.le_of_read? {d : SectionDefinition} (h : read? b offset = some d) :
    offset + symbolSize ≤ b.size := by
  obtain ⟨_, hslice, -⟩ := Option.bind_eq_some_iff.mp h
  exact le_of_slice? hslice

/-- A definition is read wherever its bytes are there. -/
theorem SectionDefinition.exists_read? (h : offset + symbolSize ≤ b.size) :
    ∃ d, read? b offset = some d := by
  unfold symbolSize at h
  have hsize : (b.extract offset (offset + 18)).size = 18 := by
    rw [Array.size_extract]
    omega
  simp [read?, slice?, u8At?, numberAt?, symbolSize, h, hsize]

/-- Relocations read one after the other, each with its own type set. -/
theorem relocationsAt?_retyped {count : Nat} {typ : Nat → Option UInt16} {rs : List RawRelocation}
    (hsize : b'.size = b.size)
    (h : ∀ i < count, ∀ r, RawRelocation.read? b (offset + i * relocationSize) = some r →
      RawRelocation.read? b' (offset + i * relocationSize) = some (r.retyped (typ i)))
    (hrs : relocationsAt? b offset count = some rs) :
    relocationsAt? b' offset count = some (rs.mapIdx fun i r ↦ r.retyped (typ i)) := by
  have hinside := isSome_relocationsAt?_iff.mp (Option.isSome_of_eq_some hrs)
  obtain ⟨rs', hrs'⟩ := Option.isSome_iff_exists.mp
    (isSome_relocationsAt?_iff.mpr (hsize.symm ▸ hinside))
  rw [hrs']
  unfold relocationsAt? at hrs hrs'
  rw [if_pos hinside] at hrs
  rw [if_pos (hsize.symm ▸ hinside)] at hrs'
  congr 1
  apply List.ext_getElem?
  intro i
  rw [List.getElem?_mapIdx, getElem?_of_mapM hrs, getElem?_of_mapM hrs']
  by_cases hi : i < count
  · rw [List.getElem?_range hi]
    have hlast : (i + 1) * relocationSize ≤ count * relocationSize := Nat.mul_le_mul_right _ hi
    rw [Nat.succ_mul] at hlast
    have hinside : offset + i * relocationSize + relocationSize ≤ b.size := by omega
    obtain ⟨r, hr⟩ := RawRelocation.exists_read? hinside
    rw [Option.bind_some, Option.bind_some, h i hi r hr, hr]
    rfl
  · rw [List.getElem?_eq_none (by simpa using hi)]
    rfl

/-- What a list starts with depends on that and on what ends it. -/
theorem takeWhile_congr {α : Type} {p : α → Bool} {l r : List α}
    (h : ∀ i ≤ (r.takeWhile p).length, l[i]? = r[i]?) : l.takeWhile p = r.takeWhile p := by
  induction r generalizing l with
  | nil =>
    have hnone := h 0 (Nat.zero_le _)
    rw [List.getElem?_nil, List.getElem?_eq_none_iff, Nat.le_zero, List.length_eq_zero_iff] at hnone
    rw [hnone]
  | cons a r ih =>
    have hfirst := h 0 (Nat.zero_le _)
    cases l with
    | nil => cases hfirst
    | cons b l =>
      cases hfirst
      rw [List.takeWhile_cons, List.takeWhile_cons]
      rw [List.takeWhile_cons] at h
      split
      · next hp =>
        rw [if_pos hp] at h
        rw [ih fun i hi ↦ h (i + 1) (Nat.succ_le_succ hi)]
      · rfl

namespace Editor

variable {e e₀ : Editor} {listed : List EditorSymbol} {number : Nat} {h : SectionHeader}

/-! ### The invariant -/

/-- What edits did to a file: the symbols they neutralized, the sections they dropped and the types
of relocations they set, the last one first. -/
structure Changes where
  gone : List Nat
  dropped : List Nat
  types : List ((Nat × Nat) × UInt16)

/-- Relocations with the types that were set. -/
def retyped (types : List ((Nat × Nat) × UInt16)) (number : Nat) (rs : List RawRelocation) :
    List RawRelocation :=
  rs.mapIdx fun i r ↦ r.retyped (types.lookup (number, i))

/-- A file after edits. What they looked at is what it was, but for what they changed. -/
structure Rewritten (e₀ : Editor) (listed : List EditorSymbol) (c : Changes) (e : Editor) : Prop where
  tables : e = { e₀ with data := e.data }
  size : e.data.size = e₀.data.size
  fixed : ∀ w ∈ ⟨0, headerSize⟩ :: e₀.texts listed, SameIn e.data e₀.data w
  headers : ∀ number h, e₀.header number = .ok h →
    e.header number = .ok (if number ∈ c.dropped then h.dropped else h)
  counts : ∀ number h first, e₀.header number = .ok h →
    hasFlag h.characteristics flagOverflow = true →
    RawRelocation.read? e₀.data h.relocationPointer = some first →
    RawRelocation.read? e.data h.relocationPointer = some first
  relocations : ∀ number offset count, e₀.relocationTable number = .ok (offset, count) →
    ∀ i < count, ∀ r, RawRelocation.read? e₀.data (offset + i * relocationSize) = some r →
      RawRelocation.read? e.data (offset + i * relocationSize)
        = some (r.retyped (c.types.lookup (number, i)))
  records : ∀ raw ∈ listed, ∀ r, e₀.record raw.index = .ok r →
    e.record raw.index = .ok (if raw.index ∈ c.gone then r.removed e₀.strategy else r)
  /-- No symbol that carries a definition was neutralized. -/
  plain : ∀ raw ∈ listed, raw.index ∈ c.gone → raw.isSectionDefinition = false
  /-- The sections that were dropped are there. -/
  present : ∀ number ∈ c.dropped, ∃ h, e₀.header number = .ok h

theorem Rewritten.refl : Rewritten e₀ listed ⟨[], [], []⟩ e₀ where
  tables := rfl
  size := rfl
  fixed _ _ _ _ := rfl
  headers _ _ hh := by simpa using hh
  counts _ _ _ _ _ hfirst := hfirst
  relocations _ _ _ _ _ _ _ hr := hr
  records _ _ _ hr := by simpa using hr
  plain _ _ hgone := by cases hgone
  present _ hdropped := by cases hdropped

namespace Rewritten

variable {c : Changes} (hs : e₀.Separation listed) (he : Rewritten e₀ listed c e)

/-! ### Reading an edited file -/

include he in
theorem recordAt_eq (index : Nat) : e.recordAt index = e₀.recordAt index := by rw [he.tables]; rfl

include he in
theorem headerAt_eq (number : Nat) : e.headerAt number = e₀.headerAt number := by
  rw [he.tables]
  rfl

include he in
/-- A text whose bytes are what they were is what it was. -/
theorem stringAt_eq {offset : Nat} (h : SameIn e.data e₀.data (e₀.textWindow offset)) :
    e.stringAt offset = e₀.stringAt offset := by
  have hstrings : e.stringsAt = e₀.stringsAt := by rw [he.tables]
  unfold stringAt beforeNul
  rw [hstrings, takeWhile_congr (r := (e₀.data.suffix (e₀.stringsAt + offset)).toList) fun i hi ↦ ?_]
  unfold textWindow beforeNul at h
  rw [Array.getElem?_toList, Array.getElem?_toList]
  unfold suffix at *
  have hlength : (e₀.data.extract (e₀.stringsAt + offset)).toList.length
      = min e₀.data.size e₀.data.size - (e₀.stringsAt + offset) := by
    rw [Array.length_toList, Array.size_extract]
  rw [Array.getElem?_extract, Array.getElem?_extract, he.size]
  split
  · refine h _ ⟨Nat.le_add_right _ _, ?_⟩
    dsimp only
    omega
  · rfl

include he in
/-- Names of symbols are what they were. -/
theorem symbolOf_eq {raw : EditorSymbol} (hraw : raw ∈ listed) {r : SymbolRecord}
    (hr : e₀.record raw.index = .ok r) : e.symbolOf raw.index r = e₀.symbolOf raw.index r := by
  unfold symbolOf symbolName
  split
  · next hlong =>
    rw [he.stringAt_eq (he.fixed _ (List.mem_cons_of_mem _ (List.mem_append_left _ ?_)))]
    refine List.mem_flatMap.mpr ⟨raw, hraw, ?_⟩
    rw [hr]
    change _ ∈ e₀.symbolTexts r
    unfold symbolTexts
    rw [if_pos hlong]
    exact List.mem_singleton_self _
  · rfl

include he in
/-- Names of sections are what they were. -/
theorem sectionName_eq (hh : e₀.header number = .ok h) : e.sectionName h = e₀.sectionName h := by
  have htexts : ∀ w ∈ e₀.sectionTexts h, SameIn e.data e₀.data w := fun w hw ↦
    he.fixed w (List.mem_cons_of_mem _ (List.mem_append_right _ (List.mem_flatMap.mpr
      ⟨number, mem_numbers_iff.mpr (range_of_header hh), by rw [hh]; exact hw⟩)))
  unfold sectionName
  unfold sectionTexts at htexts
  dsimp only
  split
  · next digits hname =>
    rw [hname] at htexts
    simp only at htexts
    split
    · next offset hdigits =>
      rw [hdigits] at htexts
      exact he.stringAt_eq (htexts _ (List.mem_singleton_self _))
    · rfl
  · rfl

include hs he in
/-- An edited file lists the symbols that the file listed, some of them neutralized. -/
theorem symbols_eq : e.symbols = .ok (listed.map (EditorSymbol.after e₀.strategy c.gone)) := by
  refine symbols_eq_map hs.listing (by rw [he.tables]) fun raw hraw r hr ↦
    ⟨_, he.records raw hraw r hr, auxCount_removed_or_same .., ?_⟩
  have hindex : (e₀.symbolOf raw.index r).index = raw.index := rfl
  rw [EditorSymbol.after, hindex]
  split
  · rw [symbolOf_removed, he.symbolOf_eq hraw hr]
  · exact he.symbolOf_eq hraw hr

include he in
/-- A section that was dropped does not reach the image; another has the name and the flags that it
had. -/
theorem exists_sectionOf {definitions : List (Nat × Comdat)} (found : List (Nat × Comdat))
    {a : EditorSection} (ha : e₀.sectionOf definitions number = .ok a) :
    ∃ b, e.sectionOf found number = .ok b ∧ b.number = a.number ∧
      if a.number ∈ c.dropped then b.isPartOfImage = false
      else b.name = a.name ∧ b.characteristics = a.characteristics := by
  obtain ⟨h, hh, ha⟩ := Outcome.bind_eq_ok_iff.mp ha
  cases ha
  refine ⟨_, Outcome.bind_eq_ok_iff.mpr ⟨_, he.headers number h hh, rfl⟩, rfl, ?_⟩
  by_cases hdropped : number ∈ c.dropped
  · rw [if_pos hdropped, if_pos hdropped]
    have hflag : hasFlag (flagRemove ||| flagDiscardable) (flagInfo ||| flagRemove) = true := by
      decide
    exact congrArg not hflag
  · rw [if_neg hdropped, if_neg hdropped]
    exact ⟨he.sectionName_eq hh, rfl⟩

include hs he in
/-- An edited file lists the sections that the file listed. Those that were dropped do not reach the
image; the others have the name and the flags that they had. -/
theorem exists_sections {sections : List EditorSection} (h : e₀.sections = .ok sections) :
    ∃ found, e.sections = .ok found ∧ List.Forall₂ (fun a b ↦ b.number = a.number ∧
      if a.number ∈ c.dropped then b.isPartOfImage = false
      else b.name = a.name ∧ b.characteristics = a.characteristics) sections found := by
  obtain ⟨symbols, hsymbols, h⟩ := Outcome.bind_eq_ok_iff.mp h
  cases hs.listing.symm.trans hsymbols
  obtain ⟨definitions, hdefinitions, h⟩ := Outcome.bind_eq_ok_iff.mp h
  obtain ⟨found, hfound, -⟩ : ∃ found, e.definitions
      (listed.map (EditorSymbol.after e₀.strategy c.gone)) = .ok found ∧
        List.Forall₂ (fun _ _ ↦ True) definitions found := by
    unfold Editor.definitions at *
    rw [filter_after _ he.plain]
    refine Outcome.exists_mapM_of_mapM hdefinitions fun s _ d hd ↦ ?_
    obtain ⟨definition, hread, -⟩ := Outcome.bind_eq_ok_iff.mp hd
    have hinside : e.recordAt (s.index + 1) + symbolSize ≤ e.data.size := by
      rw [he.recordAt_eq, he.size]
      exact SectionDefinition.le_of_read? (Outcome.orFail_eq_ok_iff.mp hread)
    obtain ⟨definition', hread'⟩ := SectionDefinition.exists_read? hinside
    exact ⟨_, Outcome.bind_eq_ok_iff.mpr ⟨definition', by rw [hread']; rfl, rfl⟩, trivial⟩
  have hcount : e.sectionCount = e₀.sectionCount := by rw [he.tables]
  obtain ⟨sections', hsections', hall⟩ := Outcome.exists_mapM_of_mapM h fun number _ a ha ↦
    he.exists_sectionOf found ha
  refine ⟨sections', Outcome.bind_eq_ok_iff.mpr ⟨_, he.symbols_eq hs,
    Outcome.bind_eq_ok_iff.mpr ⟨found, hfound, hcount ▸ hsections'⟩⟩, hall⟩

include he in
/-- A section that was dropped has no relocations. -/
theorem relocationTable_dropped (hdropped : number ∈ c.dropped) :
    e.relocationTable number = .ok (0, 0) := by
  obtain ⟨h, hh⟩ := he.present number hdropped
  have hheader := he.headers number h hh
  rw [if_pos hdropped] at hheader
  have hflag : ¬hasFlag (flagRemove ||| flagDiscardable) flagOverflow = true := by decide
  exact Outcome.bind_eq_ok_iff.mpr ⟨_, hheader, if_neg hflag⟩

include he in
/-- The relocations of a section that was not dropped lie where they lay. -/
theorem relocationTable_eq (hh : e₀.header number = .ok h) (hkept : number ∉ c.dropped) :
    e.relocationTable number = e₀.relocationTable number := by
  have hheader := he.headers number h hh
  rw [if_neg hkept] at hheader
  unfold relocationTable
  rw [hheader, hh]
  change (if hasFlag h.characteristics flagOverflow = true then _ else _) = ite _ _ _
  split
  · next hflag =>
    cases hfirst : RawRelocation.read? e₀.data h.relocationPointer with
    | some first => rw [he.counts number h first hh hflag hfirst]
    | none =>
      have hnone : RawRelocation.read? e.data h.relocationPointer = none := by
        rw [← Option.not_isSome_iff_eq_none, RawRelocation.isSome_read?_iff] at hfirst ⊢
        rwa [he.size]
      rw [hnone]
  · rfl

include hs he in
/-- A section that was dropped has no relocations; another has those that it had, with the types that
were set. -/
theorem relocations_eq (number : Nat) :
    e.relocations number = if number ∈ c.dropped then .ok []
      else (e₀.relocations number).map (retyped c.types number) := by
  by_cases hdropped : number ∈ c.dropped
  · rw [if_pos hdropped]
    exact Outcome.bind_eq_ok_iff.mpr ⟨_, he.relocationTable_dropped hdropped, rfl⟩
  · rw [if_neg hdropped]
    cases hh : e₀.header number with
    | error stop =>
      have hat : ∃ stop, e₀.headerAt number = .error stop := by
        cases hat : e₀.headerAt number with
        | error stop => exact ⟨stop, rfl⟩
        | ok at' =>
          obtain ⟨hpos, hle, -⟩ := headerAt_eq_ok_iff.mp hat
          obtain ⟨h, hh'⟩ := hs.fits.exists_header hpos hle
          cases hh.symm.trans hh'
      obtain ⟨stop', hat⟩ := hat
      have hheader : e.header number = e₀.header number := by
        unfold header
        rw [he.headerAt_eq, hat]
        rfl
      unfold Editor.relocations relocationTable
      rw [hheader, hh]
      rfl
    | ok h =>
      unfold Editor.relocations
      rw [he.relocationTable_eq hh hdropped]
      cases htable : e₀.relocationTable number with
      | error stop => rfl
      | ok table =>
        obtain ⟨offset, count⟩ := table
        change (if count = 0 then _ else _) = Except.map _ (if count = 0 then _ else _)
        split
        · rfl
        · cases hrs : relocationsAt? e₀.data offset count with
          | some rs =>
            rw [relocationsAt?_retyped he.size (he.relocations number offset count htable) hrs]
            rfl
          | none =>
            have hnone : relocationsAt? e.data offset count = none := by
              rw [← Option.not_isSome_iff_eq_none, isSome_relocationsAt?_iff] at hrs ⊢
              rwa [he.size]
            rw [hnone]
            rfl

include he in
/-- An edited file is read as what it is. -/
theorem parse (hparse : parse e₀.data e₀.strategy = .ok e₀) :
    Editor.parse e.data e₀.strategy = .ok e := by
  have hstart := he.fixed _ (List.mem_cons_self ..)
  rw [he.tables]
  exact parse_withData hparse he.size hstart

/-! ### What changing a part leaves alone -/

section Changing

variable {data : Bytes} {w : Window}

include he in
/-- Bytes outside the headers leave them alone. -/
theorem header_of_isClear (hdiffers : DiffersIn e.data data w) (hclear : w.IsClear e₀.headersWindow)
    (number : Nat) : (e.withData data).header number = e.header number := by
  refine header_withData hdiffers fun at' hat ↦ ?_
  rw [he.headerAt_eq] at hat
  exact hclear.mono (fun _ hi ↦ hi) fun _ hi ↦ contains_headers hat hi

include hs he in
/-- Bytes outside the records leave them alone. -/
theorem record_of_isClear (hdiffers : DiffersIn e.data data w) (hclear : w.IsClear e₀.recordsWindow)
    {raw : EditorSymbol} (hraw : raw ∈ listed) :
    (e.withData data).record raw.index = e.record raw.index := by
  refine record_withData hdiffers ?_
  rw [he.recordAt_eq]
  exact hclear.mono (fun _ hi ↦ hi) fun _ hi ↦
    contains_records (index_lt_of_mem_symbols hs.listing hraw) hi

/-- Bytes clear of all texts and all counts are changed; what became of headers, relocations and
records is to be said. -/
theorem of_differsIn (c' : Changes) (he : Rewritten e₀ listed c e)
    (hdiffers : DiffersIn e.data data w)
    (hfixed : ∀ v ∈ ⟨0, headerSize⟩ :: e₀.texts listed, w.IsClear v)
    (hheaders : ∀ number h, e₀.header number = .ok h →
      (e.withData data).header number = .ok (if number ∈ c'.dropped then h.dropped else h))
    (hcounts : ∀ number h first, e₀.header number = .ok h →
      hasFlag h.characteristics flagOverflow = true →
      RawRelocation.read? e₀.data h.relocationPointer = some first →
      w.IsClear ⟨h.relocationPointer, relocationSize⟩)
    (hrelocations : ∀ number offset count, e₀.relocationTable number = .ok (offset, count) →
      ∀ i < count, ∀ r, RawRelocation.read? e₀.data (offset + i * relocationSize) = some r →
        RawRelocation.read? data (offset + i * relocationSize)
          = some (r.retyped (c'.types.lookup (number, i))))
    (hrecords : ∀ raw ∈ listed, ∀ r, e₀.record raw.index = .ok r →
      (e.withData data).record raw.index
        = .ok (if raw.index ∈ c'.gone then r.removed e₀.strategy else r))
    (hplain : ∀ raw ∈ listed, raw.index ∈ c'.gone → raw.isSectionDefinition = false)
    (hpresent : ∀ number ∈ c'.dropped, ∃ h, e₀.header number = .ok h) :
    Rewritten e₀ listed c' (e.withData data) where
  tables := by rw [he.tables]
  size := hdiffers.size.trans he.size
  fixed v hv := (hdiffers.same _ (hfixed v hv)).trans (he.fixed v hv)
  headers := hheaders
  counts number h first hh hflag hfirst := by
    rw [← he.counts number h first hh hflag hfirst]
    exact RawRelocation.read?_congr hdiffers.size
      (hdiffers.same _ (hcounts number h first hh hflag hfirst))
  relocations := hrelocations
  records := hrecords
  plain := hplain
  present := hpresent

include he in
/-- Bytes outside the relocations leave them and their counts alone. -/
theorem relocations_of_isClear (hdiffers : DiffersIn e.data data w)
    (hclear : ∀ number v, e₀.relocationWindow number = .ok v → w.IsClear v) {offset count : Nat}
    (htable : e₀.relocationTable number = .ok (offset, count)) {i : Nat} (hi : i < count)
    {r : RawRelocation} (hr : RawRelocation.read? e₀.data (offset + i * relocationSize) = some r) :
    RawRelocation.read? data (offset + i * relocationSize)
      = some (r.retyped (c.types.lookup (number, i))) := by
  obtain ⟨v, hv, hcontains⟩ := contains_relocation htable hi
  rw [← he.relocations number offset count htable i hi r hr]
  exact RawRelocation.read?_congr hdiffers.size
    (hdiffers.same _ ((hclear number v hv).mono (fun _ hi ↦ hi) hcontains))

/-- Counts of relocations lie among these. -/
theorem isClear_count (hclear : ∀ number v, e₀.relocationWindow number = .ok v → w.IsClear v)
    {first : RawRelocation} (hh : e₀.header number = .ok h)
    (hflag : hasFlag h.characteristics flagOverflow = true)
    (hfirst : RawRelocation.read? e₀.data h.relocationPointer = some first) :
    w.IsClear ⟨h.relocationPointer, relocationSize⟩ := by
  obtain ⟨v, hv, hcontains⟩ := exists_window_of_count hh hflag hfirst
  exact (hclear number v hv).mono (fun _ hi ↦ hi) hcontains

include hs in
/-- Bytes of records of the symbol table are changed. -/
theorem of_differsIn_records (gone : List Nat) (he : Rewritten e₀ listed c e)
    (hdiffers : DiffersIn e.data data w) (hw : ∀ i, w.Contains i → e₀.recordsWindow.Contains i)
    (hrecords : ∀ raw ∈ listed, ∀ r, e₀.record raw.index = .ok r →
      (e.withData data).record raw.index
        = .ok (if raw.index ∈ gone then r.removed e₀.strategy else r))
    (hplain : ∀ raw ∈ listed, raw.index ∈ gone → raw.isSectionDefinition = false) :
    Rewritten e₀ listed { c with gone := gone } (e.withData data) := by
  have hclear : ∀ {v}, e₀.recordsWindow.IsClear v → w.IsClear v :=
    fun h ↦ h.mono hw fun _ hi ↦ hi
  have hrelocations : ∀ number v, e₀.relocationWindow number = .ok v → w.IsClear v :=
    fun number v hv ↦ hclear (hs.relocation number v hv _ (by simp)).symm
  refine he.of_differsIn { c with gone := gone } hdiffers
    (List.forall_mem_cons.mpr ⟨hclear (hs.start _ (by simp)).symm,
      fun v hv ↦ hclear (isClear_texts hs.fits hv)⟩)
    (fun number h hh ↦ ?_) (fun _ _ _ ↦ isClear_count hrelocations)
    (fun _ _ _ htable _ hi _ ↦ he.relocations_of_isClear hdiffers hrelocations htable hi) hrecords
    hplain he.present
  rw [he.header_of_isClear hdiffers (hclear (hs.headers _ (by simp)).symm)]
  exact he.headers number h hh

include hs in
/-- Bytes of headers of sections are changed. -/
theorem of_differsIn_headers (dropped : List Nat) (he : Rewritten e₀ listed c e)
    (hdiffers : DiffersIn e.data data w) (hw : ∀ i, w.Contains i → e₀.headersWindow.Contains i)
    (hheaders : ∀ number h, e₀.header number = .ok h →
      (e.withData data).header number = .ok (if number ∈ dropped then h.dropped else h))
    (hpresent : ∀ number ∈ dropped, ∃ h, e₀.header number = .ok h) :
    Rewritten e₀ listed { c with dropped := dropped } (e.withData data) := by
  have hclear : ∀ {v}, e₀.headersWindow.IsClear v → w.IsClear v :=
    fun h ↦ h.mono hw fun _ hi ↦ hi
  have hrelocations : ∀ number v, e₀.relocationWindow number = .ok v → w.IsClear v :=
    fun number v hv ↦ hclear (hs.relocation number v hv _ (by simp)).symm
  refine he.of_differsIn { c with dropped := dropped } hdiffers
    (List.forall_mem_cons.mpr ⟨hclear (hs.start _ (by simp)).symm,
      fun v hv ↦ hclear (hs.headers v (by simp [hv]))⟩)
    hheaders (fun _ _ _ ↦ isClear_count hrelocations)
    (fun _ _ _ htable _ hi _ ↦ he.relocations_of_isClear hdiffers hrelocations htable hi)
    (fun raw hraw r hr ↦ ?_) he.plain hpresent
  rw [he.record_of_isClear hs hdiffers (hclear (hs.headers _ (by simp)))  hraw]
  exact he.records raw hraw r hr

include hs in
/-- Bytes that are neither of headers nor of records are changed, and counts of relocations stay. -/
theorem of_differsIn_body (types : List ((Nat × Nat) × UInt16)) (he : Rewritten e₀ listed c e)
    (hdiffers : DiffersIn e.data data w)
    (hclear : ∀ v ∈ ⟨0, headerSize⟩ :: e₀.headersWindow :: e₀.recordsWindow :: e₀.texts listed,
      w.IsClear v)
    (hcounts : ∀ number h first, e₀.header number = .ok h →
      hasFlag h.characteristics flagOverflow = true →
      RawRelocation.read? e₀.data h.relocationPointer = some first →
      w.IsClear ⟨h.relocationPointer, relocationSize⟩)
    (hrelocations : ∀ number offset count, e₀.relocationTable number = .ok (offset, count) →
      ∀ i < count, ∀ r, RawRelocation.read? e₀.data (offset + i * relocationSize) = some r →
        RawRelocation.read? data (offset + i * relocationSize)
          = some (r.retyped (types.lookup (number, i)))) :
    Rewritten e₀ listed { c with types := types } (e.withData data) := by
  obtain ⟨hstart, hclear⟩ := List.forall_mem_cons.mp hclear
  obtain ⟨hheaders, hclear⟩ := List.forall_mem_cons.mp hclear
  obtain ⟨hrecords, htexts⟩ := List.forall_mem_cons.mp hclear
  refine he.of_differsIn { c with types := types } hdiffers
    (List.forall_mem_cons.mpr ⟨hstart, htexts⟩) (fun number h hh ↦ ?_) hcounts hrelocations
    (fun raw hraw r hr ↦ ?_) he.plain he.present
  · rw [he.header_of_isClear hdiffers hheaders]
    exact he.headers number h hh
  · rw [he.record_of_isClear hs hdiffers hrecords hraw]
    exact he.records raw hraw r hr

end Changing

end Rewritten

end Editor

end LivePatch.Coff
