import LivePatch.Proofs.Coff.Edits

/-!
# What dropping sections spares

Neutralizing symbols and dropping sections touches neither relocations nor what the definitions of
sections say about going along with others. So the sections that are kept are read from the edited
file as they were, with the same relocations.
-/

namespace LivePatch.Coff

open Bytes

/-- What a definition says about going along lies behind its first eight bytes. -/
theorem SectionDefinition.read?_congr {b b' : Bytes} {offset : Nat} (hsize : b.size = b'.size)
    (h : SameIn b b' ⟨offset + 8, 10⟩) : read? b offset = read? b' offset := by
  unfold read?
  by_cases hinside : offset + symbolSize ≤ b.size
  · obtain ⟨r, hr⟩ : ∃ r, b.slice? offset symbolSize = some r := ⟨_, if_pos hinside⟩
    obtain ⟨r', hr'⟩ : ∃ r, b'.slice? offset symbolSize = some r := ⟨_, if_pos (hsize ▸ hinside)⟩
    have hassociated : r.numberAt? 12 2 = r'.numberAt? 12 2 := by
      rw [numberAt?, numberAt?, slice?_of_slice? hr (by decide), slice?_of_slice? hr' (by decide)]
      refine congrArg _ (slice?_congr hsize (h.mono fun i hi ↦ ?_))
      unfold Window.Contains at *
      dsimp only at *
      omega
    have hselection : r.u8At? 14 = r'.u8At? 14 := by
      have hbyte : ∀ {b r : Bytes}, b.slice? offset symbolSize = some r →
          r.u8At? 14 = b[offset + 14]? := by
        intro b r hr
        unfold slice? at hr
        split at hr
        · cases hr
          rw [u8At?, Array.getElem?_extract, if_pos (by unfold symbolSize at *; omega)]
        · cases hr
      rw [hbyte hr, hbyte hr']
      exact h _ ⟨by dsimp only; omega, by dsimp only; omega⟩
    rw [hr, hr']
    change (r.numberAt? 12 2).bind _ = (r'.numberAt? 12 2).bind _
    rw [hassociated]
    refine congrArg _ (funext fun _ ↦ ?_)
    change (r.u8At? 14).bind _ = (r'.u8At? 14).bind _
    rw [hselection]
  · rw [slice?, if_neg hinside, slice?, if_neg (hsize ▸ hinside)]

/-- Entries of a list that all have results have them together. -/
theorem exists_mapM {α β : Type} {f : α → Outcome β} {l : List α}
    (h : ∀ a ∈ l, ∃ b, f a = .ok b) : ∃ bs, l.mapM f = .ok bs := by
  induction l with
  | nil => exact ⟨[], rfl⟩
  | cons a l ih =>
    obtain ⟨⟨b, hb⟩, hrest⟩ := List.forall_mem_cons.mp h
    obtain ⟨bs, hbs⟩ := ih hrest
    exact ⟨b :: bs, by rw [List.mapM_cons, hb, hbs]; rfl⟩

/-- Relocations depend on their own bytes only. -/
theorem relocationsAt?_congr {b b' : Bytes} {offset count : Nat} (hsize : b.size = b'.size)
    (h : SameIn b b' ⟨offset, count * relocationSize⟩) :
    relocationsAt? b offset count = relocationsAt? b' offset count := by
  unfold relocationsAt?
  rw [hsize]
  split
  · refine mapM_congr fun i hi ↦ RawRelocation.read?_congr hsize (h.mono ?_)
    have hlast : i * relocationSize + relocationSize ≤ count * relocationSize := by
      rw [← Nat.succ_mul]
      exact Nat.mul_le_mul_right _ (List.mem_range.mp hi)
    rintro j ⟨hlo, hhi⟩
    unfold Window.Contains
    dsimp only at *
    omega
  · rfl

/-- Neutralized symbols carry no definitions. -/
theorem EditorSymbol.isSectionDefinition_removed (raw : EditorSymbol)
    (strategy : RemovalStrategy) : (raw.removed strategy).isSectionDefinition = false := by
  simp [isSectionDefinition, removed, classNull, classStatic]

/-- Symbols that carry definitions did so before others were neutralized. -/
theorem EditorSymbol.isSectionDefinition_of_after {raw : EditorSymbol} {strategy : RemovalStrategy}
    {gone : List Nat} (h : (raw.after strategy gone).isSectionDefinition = true) :
    raw.isSectionDefinition = true := by
  unfold after at h
  split at h
  · rw [isSectionDefinition_removed] at h
    cases h
  · exact h

namespace Editor

variable {e e₀ : Editor} {listed : List EditorSymbol} {number : Nat}

/-- A file after edits that spared all relocations, and what definitions of sections say about going
along. -/
structure Spared (e₀ : Editor) (listed : List EditorSymbol) (e : Editor) : Prop where
  tables : e = { e₀ with data := e.data }
  size : e.data.size = e₀.data.size
  relocations : ∀ number w, e₀.relocationWindow number = .ok w → SameIn e.data e₀.data w
  definitions : ∀ raw ∈ listed, 0 < raw.auxCount →
    SameIn e.data e₀.data ⟨e₀.recordAt (raw.index + 1) + 8, 10⟩

theorem Spared.refl : Spared e₀ listed e₀ :=
  ⟨rfl, rfl, fun _ _ _ _ _ ↦ rfl, fun _ _ _ _ _ ↦ rfl⟩

/-- Bytes are changed that belong to neither. -/
theorem Spared.of_differsIn (h : Spared e₀ listed e) {data : Bytes} {w : Window}
    (hdiffers : DiffersIn e.data data w)
    (hrelocations : ∀ number v, e₀.relocationWindow number = .ok v → w.IsClear v)
    (hdefinitions : ∀ raw ∈ listed, 0 < raw.auxCount →
      w.IsClear ⟨e₀.recordAt (raw.index + 1) + 8, 10⟩) : Spared e₀ listed (e.withData data) where
  tables := by rw [h.tables]
  size := hdiffers.size.trans h.size
  relocations number v hv :=
    (hdiffers.same v (hrelocations number v hv)).trans (h.relocations number v hv)
  definitions raw hraw haux :=
    (hdiffers.same _ (hdefinitions raw hraw haux)).trans (h.definitions raw hraw haux)

theorem Spared.recordAt_eq (h : Spared e₀ listed e) (index : Nat) :
    e.recordAt index = e₀.recordAt index := by
  rw [recordAt, recordAt, h.tables]

section Edits

variable (ho : Outline e₀ listed) {raw : EditorSymbol}

include ho in
/-- Bytes of a header are changed. -/
theorem Spared.of_differsIn_header (h : Spared e₀ listed e) {data : Bytes} {w : Window}
    (hdiffers : DiffersIn e.data data w)
    (hheader : ∀ i, w.Contains i → e₀.headerWindow.Contains i) :
    Spared e₀ listed (e.withData data) := by
  refine h.of_differsIn hdiffers (fun number v hv ↦
    (ho.clearances.relocation number v hv).2.symm.mono hheader fun _ hi ↦ hi) fun raw _ _ ↦ ?_
  have htable := ho.clearances.header
  obtain ⟨hstart, hheaders, hsymbols, hstrings⟩ := ho.fits
  have hfirst := hheader w.start
  have hlast := hheader (w.start + w.size - 1)
  unfold headerWindow Window.Contains at *
  unfold tableWindow headerSize at *
  unfold Window.IsClear at *
  unfold recordAt
  dsimp only at *
  omega

include ho in
/-- Bytes of the symbol table are changed that are neither names nor what definitions say about
going along. -/
theorem Spared.of_differsIn_table (h : Spared e₀ listed e) {data : Bytes} {index size : Nat}
    (hindex : index < e₀.symbolCount) (hsize : size ≤ symbolSize)
    (hdiffers : DiffersIn e.data data ⟨e₀.recordAt index, size⟩)
    (hdefinitions : ∀ raw ∈ listed, 0 < raw.auxCount → raw.index + 1 ≠ index ∨ size ≤ 8) :
    Spared e₀ listed (e.withData data) := by
  refine h.of_differsIn hdiffers (fun number v hv ↦
    (ho.clearances.relocation number v hv).1.symm.mono (fun i hi ↦
      (contains_record_start ho.fits hindex hsize hi).1) fun _ hi ↦ hi) fun raw hraw haux ↦ ?_
  have := hdefinitions raw hraw haux
  unfold symbolSize at hsize
  unfold Window.IsClear recordAt symbolSize
  dsimp only
  omega

include ho in
/-- Neutralizing a symbol. -/
theorem spared_removeSymbol (hraw : raw ∈ listed) :
    Triple (Spared e₀ listed) (removeSymbol raw.index) (fun _ ↦ Spared e₀ listed)
      fun _ ↦ True := by
  refine Triple.bind_get fun e he ↦ Triple.bind_lift (fun _ _ ↦ triple_put ?_) fun _ _ ↦ trivial
  have hlt := ho.index_lt hraw
  have hinside := ho.recordAt_le hlt
  have hat := he.recordAt_eq raw.index
  have hsize : (removedRecord e.strategy).size = 17 := size_removedRecord e.strategy
  have hpart : 17 ≤ symbolSize := by decide
  have hdiffers := differsIn_overwrite (b := e.data) (e.recordAt raw.index)
    (removedRecord e.strategy) (.inr (by rw [he.size]; omega))
  rw [hsize, hat] at hdiffers
  rw [hat]
  refine Spared.of_differsIn_table ho he hlt hpart hdiffers fun other hother haux ↦ .inl ?_
  rcases ho.apart hother hraw with rfl | hapart <;> omega

include ho in
/-- Emptying the definition of a section. -/
theorem spared_clearDefinition (index : Nat) :
    Triple (Spared e₀ listed) (clearDefinition index) (fun _ ↦ Spared e₀ listed)
      fun _ ↦ True := by
  refine Triple.bind_get fun e he ↦ ?_
  split
  · exact Triple.fail fun _ _ ↦ trivial
  · next hlt =>
    have hcount : e.symbolCount = e₀.symbolCount := by rw [he.tables]
    rw [hcount, Nat.not_le] at hlt
    refine triple_put ?_
    have hinside := ho.recordAt_le hlt
    have hpart : 8 ≤ symbolSize := by decide
    have hdiffers : DiffersIn e.data _ ⟨e₀.recordAt index, 8⟩ :=
      differsIn_overwrite _ (Bytes.fill 8 0) (.inr (by
        rw [he.size, show (Bytes.fill 8 0).size = 8 from rfl]
        omega))
    rw [he.recordAt_eq]
    exact Spared.of_differsIn_table ho he hlt hpart hdiffers fun _ _ _ ↦ .inr (Nat.le_refl 8)

include ho in
/-- Marking the header of a section for removal. -/
theorem spared_dropHeader {at' : Nat} (hat : e₀.headerAt number = .ok at') :
    Triple (Spared e₀ listed)
      (do
        put at' removedSectionName
        put (at' + 16) (Bytes.fill 20 0)
        put (at' + 36) (Bytes.ofU32 (flagRemove ||| flagDiscardable)))
      (fun _ ↦ Spared e₀ listed) fun _ ↦ True := by
  have hput : ∀ (offset : Nat) (bytes : Bytes), offset + bytes.size ≤ sectionHeaderSize →
      Triple (Spared e₀ listed) (put (at' + offset) bytes) (fun _ ↦ Spared e₀ listed)
        fun _ ↦ True := by
    intro offset bytes hbytes
    refine Triple.of_pre fun e he ↦ triple_put ?_
    have hpart : ∀ i, (Window.mk (at' + offset) bytes.size).Contains i →
        e₀.headerWindow.Contains i := fun i hi ↦ contains_header hat (by
      unfold Window.Contains at *
      dsimp only at *
      omega)
    have hinside : at' + sectionHeaderSize ≤ e.data.size := by
      obtain ⟨hpos, hle, rfl⟩ := headerAt_eq_ok_iff.mp hat
      have := ho.fits.headers
      rw [he.size]
      unfold sectionHeaderSize at *
      omega
    exact Spared.of_differsIn_header ho he (differsIn_overwrite _ _ (.inr (by omega))) hpart
  exact (hput 0 _ (by decide)).bind fun _ ↦ (hput 16 _ (by decide)).bind fun _ ↦
    hput 36 _ (by decide)

variable {gone dropped : List Nat}

include ho in
/-- Dropping a section. -/
theorem spared_removeSection :
    Triple (fun e ↦ Edited e₀ listed gone dropped e ∧ Spared e₀ listed e) (removeSection number)
      (fun _ e ↦ Edited e₀ listed gone (number :: dropped) e ∧ Spared e₀ listed e)
      fun _ ↦ True := by
  have hspared : Triple (fun e ↦ Edited e₀ listed gone dropped e ∧ Spared e₀ listed e)
      (removeSection number) (fun _ ↦ Spared e₀ listed) fun _ ↦ True := by
    refine Triple.bind_get fun e he ↦ Triple.bind_lift (fun at' hat ↦ ?_) fun _ _ ↦ trivial
    rw [he.1.headerAt_eq] at hat
    have hboth := (spared_dropHeader ho hat).bind (f := fun _ ↦ do
      let symbols ← (← get).symbols
      (symbols.filter fun s ↦ s.isSectionDefinition && s.sectionNumber == (number : Int)).forM
        fun s ↦ clearDefinition (s.index + 1)) fun _ ↦ Keeps.get.bind_any fun _ ↦
          (Keeps.lift _).bind_any fun _ ↦
            Triple.forM_keeps fun s _ ↦ spared_clearDefinition ho (s.index + 1)
    have hstart : Triple (· = e) _ _ _ :=
      hboth.mono (fun _ h ↦ h ▸ he.2) (fun _ _ h ↦ h) fun _ h ↦ h
    simpa only [bind_assoc] using hstart
  exact (Triple.and (triple_removeSection ho) hspared).mono (fun _ h ↦ ⟨h.1, h⟩) (fun _ _ h ↦ h)
    fun _ _ ↦ trivial

/-- Changing bytes never fails. -/
theorem total_put {offset : Nat} {bytes : Bytes} :
    Triple (fun _ ↦ True) (put offset bytes) (fun _ _ ↦ True) fun _ ↦ False :=
  Triple.modify fun _ _ ↦ trivial

include ho in
/-- Neutralizing a listed symbol does not fail. -/
theorem total_removeSymbol (hraw : raw ∈ listed) :
    Triple (Edited e₀ listed gone dropped) (removeSymbol raw.index)
      (fun _ ↦ Edited e₀ listed (raw.index :: gone) dropped) fun _ ↦ False := by
  have hreturns : Triple (Edited e₀ listed gone dropped) (removeSymbol raw.index) (fun _ _ ↦ True)
      fun _ ↦ False := by
    refine Triple.bind_get fun e he ↦ ?_
    obtain ⟨r, hr, -⟩ := ho.record hraw
    exact Triple.bind_ok (he.records raw hraw r hr)
      (total_put.mono (fun _ _ ↦ trivial) (fun _ _ h ↦ h) fun _ h ↦ h)
  exact (Triple.and (triple_removeSymbol ho hraw) hreturns).mono (fun _ h ↦ ⟨h, h⟩)
    (fun _ _ h ↦ h.1) fun _ h ↦ h.2

include ho in
/-- Dropping a section of the file does not fail when the definitions of sections are there. -/
theorem total_removeSection (hpos : 0 < number) (hle : number ≤ e₀.sectionCount)
    (hdefinitions : ∀ raw ∈ listed, raw.isSectionDefinition = true →
      raw.index + 1 < e₀.symbolCount) :
    Triple (Edited e₀ listed gone dropped) (removeSection number)
      (fun _ ↦ Edited e₀ listed gone (number :: dropped)) fun _ ↦ False := by
  obtain ⟨at', hat⟩ : ∃ at', e₀.headerAt number = .ok at' :=
    ⟨_, headerAt_eq_ok_iff.mpr ⟨hpos, hle, rfl⟩⟩
  have hdrop : Triple (Edited e₀ listed gone dropped)
      (do
        put at' removedSectionName
        put (at' + 16) (Bytes.fill 20 0)
        put (at' + 36) (Bytes.ofU32 (flagRemove ||| flagDiscardable)))
      (fun _ ↦ Edited e₀ listed gone (number :: dropped)) fun _ ↦ False :=
    (Triple.and (triple_dropHeader ho hat)
      (total_put.bind fun _ ↦ total_put.bind fun _ ↦ total_put)).mono (fun _ h ↦ ⟨h, trivial⟩)
      (fun _ _ h ↦ h.1) fun _ h ↦ h.2
  have hclear : ∀ raw ∈ listed, raw.isSectionDefinition = true →
      Triple (Edited e₀ listed gone (number :: dropped)) (clearDefinition (raw.index + 1))
        (fun _ ↦ Edited e₀ listed gone (number :: dropped)) fun _ ↦ False := by
    intro raw hraw hkind
    have haux : 0 < raw.auxCount := by
      simp only [EditorSymbol.isSectionDefinition, Bool.and_eq_true, decide_eq_true_eq] at hkind
      exact hkind.1.1.2
    have hreturns : Triple (Edited e₀ listed gone (number :: dropped))
        (clearDefinition (raw.index + 1)) (fun _ _ ↦ True) fun _ ↦ False := by
      refine Triple.bind_get fun e he ↦ ?_
      rw [if_neg (by rw [he.symbolCount_eq]; exact Nat.not_le.mpr (hdefinitions raw hraw hkind))]
      exact total_put.mono (fun _ _ ↦ trivial) (fun _ _ h ↦ h) fun _ h ↦ h
    exact (Triple.and (triple_clearDefinition ho hraw haux) hreturns).mono (fun _ h ↦ ⟨h, h⟩)
      (fun _ _ h ↦ h.1) fun _ h ↦ h.2
  have hdefined : Triple (Edited e₀ listed gone (number :: dropped))
      (do
        let symbols ← (← get).symbols
        (symbols.filter fun s ↦ s.isSectionDefinition && s.sectionNumber == (number : Int)).forM
          fun s ↦ clearDefinition (s.index + 1))
      (fun _ ↦ Edited e₀ listed gone (number :: dropped)) fun _ ↦ False := by
    refine Triple.bind_get fun e he ↦ Triple.bind_ok (he.symbols_eq ho) ?_
    refine (Triple.forM_keeps fun s hs ↦ ?_).mono (fun e' h ↦ h ▸ he) (fun _ _ h ↦ h) fun _ h ↦ h
    obtain ⟨hs, hdefinition⟩ := List.mem_filter.mp hs
    obtain ⟨raw, hraw, rfl⟩ := List.mem_map.mp hs
    rw [EditorSymbol.index_after]
    exact hclear raw hraw
      (EditorSymbol.isSectionDefinition_of_after (Bool.and_eq_true_iff.mp hdefinition).1)
  refine Triple.bind_get fun e he ↦ Triple.bind_ok ((he.headerAt_eq number).trans hat) ?_
  have hboth : Triple (· = e) _ _ _ := (hdrop.bind fun _ ↦ hdefined).mono (fun _ h ↦ h ▸ he)
    (fun _ _ h ↦ h) fun _ h ↦ h
  simpa only [bind_assoc] using hboth

end Edits

/-! ### Reading the edited file -/

/-- Sections with a number have a header. -/
theorem Fits.exists_header (hfits : e.Fits) (hpos : 0 < number) (hle : number ≤ e.sectionCount) :
    ∃ h, e.header number = .ok h := by
  have hat := headerAt_eq_ok_iff.mpr ⟨hpos, hle, rfl⟩
  obtain ⟨h, hh⟩ := SectionHeader.exists_read? (hfits.headerAt_le hat)
  exact ⟨h, Outcome.bind_eq_ok_iff.mpr ⟨_, hat, Outcome.orFail_eq_ok_iff.mpr hh⟩⟩

section Reading

variable {gone dropped : List Nat} (ho : Outline e₀ listed)
  (he : Edited e₀ listed gone dropped e) (hs : Spared e₀ listed e)

include ho he in
/-- The tables of an edited file lie inside. -/
theorem Edited.fits : e.Fits where
  header := he.sectionsAt_eq ▸ ho.fits.header
  headers := by
    rw [he.sectionsAt_eq, he.sectionCount_eq, he.size]
    exact ho.fits.headers
  symbols := by
    rw [he.stringsAt_eq, he.symbolsAt_eq, he.symbolCount_eq]
    exact ho.fits.symbols
  strings := by
    rw [he.stringsAt_eq, he.size]
    exact ho.fits.strings

include ho he in
/-- Headers of sections that were not dropped are what they were. -/
theorem Edited.header_eq (hkept : number ∉ dropped) : e.header number = e₀.header number := by
  cases hat : e₀.headerAt number with
  | error stop =>
    unfold header
    rw [he.headerAt_eq, hat]
    rfl
  | ok at' =>
    obtain ⟨hpos, hle, -⟩ := headerAt_eq_ok_iff.mp hat
    obtain ⟨h, hh⟩ := (he.fits ho).exists_header hpos (he.sectionCount_eq ▸ hle)
    have hsame := he.headers number h hh
    rw [if_neg hkept] at hsame
    exact hh.trans hsame.symm

include ho he hs in
/-- Relocations of sections that were not dropped are what they were. -/
theorem Edited.relocations_eq (hkept : number ∉ dropped) :
    e.relocations number = e₀.relocations number := by
  cases hh : e₀.header number with
  | error stop =>
    unfold relocations relocationTable
    rw [he.header_eq ho hkept, hh]
    rfl
  | ok h =>
    obtain ⟨w, hw⟩ := ho.clearances.isRelocated number h hh
    have hsame := hs.relocations number w hw
    obtain ⟨h', hh', hw⟩ := Outcome.bind_eq_ok_iff.mp hw
    cases hh.symm.trans hh'
    obtain ⟨⟨offset, count⟩, htable, hw⟩ := Outcome.bind_eq_ok_iff.mp hw
    cases hw
    have htable' : e.relocationTable number = .ok (offset, count) := by
      rw [← htable]
      unfold relocationTable
      rw [he.header_eq ho hkept, hh]
      change (if hasFlag h.characteristics flagOverflow = true then _ else _) = ite _ _ _
      split
      · next hflag => rw [RawRelocation.read?_congr he.size (he.counts number h hh hflag)]
      · rfl
    have hoffset : h.relocationPointer ≤ offset := by
      obtain ⟨h', hh', htable⟩ := Outcome.bind_eq_ok_iff.mp htable
      cases hh.symm.trans hh'
      split at htable
      · obtain ⟨first, -, htable⟩ := Outcome.bind_eq_ok_iff.mp htable
        cases htable
        exact Nat.le_add_right _ _
      · cases htable
        exact Nat.le_refl _
    unfold relocations
    rw [htable, htable']
    change ite _ _ _ = ite _ _ _
    rw [relocationsAt?_congr he.size (hsame.mono fun i hi ↦ ?_)]
    unfold Window.Contains at *
    dsimp only at *
    omega

/-- Neutralizing symbols that carry no definitions leaves the definitions alone. -/
theorem filter_after (strategy : RemovalStrategy) {q : EditorSymbol → Bool}
    (hgone : ∀ raw ∈ listed, raw.index ∈ gone → raw.isSectionDefinition = false) :
    (listed.map (EditorSymbol.after strategy gone)).filter (fun s ↦ s.isSectionDefinition && q s)
      = listed.filter fun s ↦ s.isSectionDefinition && q s := by
  induction listed with
  | nil => rfl
  | cons raw listed ih =>
    obtain ⟨hfirst, hrest⟩ := List.forall_mem_cons.mp hgone
    have hremoved := raw.isSectionDefinition_removed strategy
    rw [List.map_cons, List.filter_cons, List.filter_cons, ih hrest, EditorSymbol.after]
    split
    · next hindex => simp [hremoved, hfirst hindex]
    · rfl

include he hs in
/-- The definitions of sections are read from the edited file as they were. -/
theorem Edited.definitions_eq
    (hgone : ∀ raw ∈ listed, raw.index ∈ gone → raw.isSectionDefinition = false) :
    e.definitions (listed.map (EditorSymbol.after e₀.strategy gone)) = e₀.definitions listed := by
  unfold definitions
  rw [filter_after _ hgone]
  refine mapM_congr fun s hmem ↦ ?_
  obtain ⟨hmem, hdefines⟩ := List.mem_filter.mp hmem
  have haux : 0 < s.auxCount := by
    have := (Bool.and_eq_true_iff.mp hdefines).1
    simp only [EditorSymbol.isSectionDefinition, Bool.and_eq_true, decide_eq_true_eq] at this
    exact this.1.1.2
  rw [SectionDefinition.read?_congr he.size, he.recordAt_eq]
  rw [he.recordAt_eq]
  exact hs.definitions s hmem haux

include ho he in
/-- A section that was not dropped is what it was. -/
theorem Edited.sectionOf_eq (definitions : List (Nat × Comdat)) (hkept : number ∉ dropped) :
    e.sectionOf definitions number = e₀.sectionOf definitions number := by
  unfold Editor.sectionOf
  rw [he.header_eq ho hkept]
  refine bind_congr fun h ↦ ?_
  rw [he.sectionName_eq]

include ho he hs in
/-- The edited file lists the sections that were not dropped as they were, and the others as not
belonging to the image. -/
theorem Edited.exists_sections {sections : List EditorSection} (h : e₀.sections = .ok sections)
    (hgone : ∀ raw ∈ listed, raw.index ∈ gone → raw.isSectionDefinition = false) :
    ∃ sections', e.sections = .ok sections' ∧
      (∀ a ∈ sections', a.isPartOfImage = true → a ∈ sections ∧ a.number ∉ dropped) ∧
      ∀ a ∈ sections, a.number ∉ dropped → a ∈ sections' := by
  obtain ⟨symbols, hsymbols, h⟩ := Outcome.bind_eq_ok_iff.mp h
  cases ho.listing.symm.trans hsymbols
  obtain ⟨definitions, hdefinitions, h⟩ := Outcome.bind_eq_ok_iff.mp h
  have hread : ∀ number ∈ (List.range e₀.sectionCount).map (· + 1),
      ∃ a, e.sectionOf definitions number = .ok a := by
    intro number hnumber
    obtain ⟨hpos, hle⟩ := mem_numbers_iff.mp hnumber
    obtain ⟨h, hh⟩ := (he.fits ho).exists_header hpos (he.sectionCount_eq ▸ hle)
    exact ⟨_, Outcome.bind_eq_ok_iff.mpr ⟨h, hh, rfl⟩⟩
  have hnumber : ∀ {e : Editor} {number a}, e.sectionOf definitions number = .ok a →
      a.number = number := by
    intro e number a ha
    obtain ⟨_, -, ha⟩ := Outcome.bind_eq_ok_iff.mp ha
    cases ha
    rfl
  obtain ⟨sections', hsections'⟩ := exists_mapM hread
  refine ⟨sections', ?_, fun a ha himage ↦ ?_, fun a ha hkept ↦ ?_⟩
  · refine Outcome.bind_eq_ok_iff.mpr ⟨_, he.symbols_eq ho, Outcome.bind_eq_ok_iff.mpr
      ⟨definitions, (he.definitions_eq hs hgone).trans hdefinitions, ?_⟩⟩
    rw [he.sectionCount_eq]
    exact hsections'
  · obtain ⟨number, hmem, ha⟩ := (Outcome.mem_mapM_iff hsections').mp ha
    cases hnumber ha
    have hkept : a.number ∉ dropped := by
      intro hdropped
      obtain ⟨h, hh, ha⟩ := Outcome.bind_eq_ok_iff.mp ha
      have hflags := he.headers _ h hh
      rw [if_pos hdropped] at hflags
      have hflagged :
          hasFlag (flagRemove ||| flagDiscardable) (flagInfo ||| flagRemove) = true := by decide
      rw [EditorSection.isPartOfImage, ← Except.ok.inj ha, hflags, hflagged] at himage
      cases himage
    exact ⟨(Outcome.mem_mapM_iff h).mpr ⟨_, hmem, he.sectionOf_eq ho definitions hkept ▸ ha⟩, hkept⟩
  · obtain ⟨number, hmem, ha⟩ := (Outcome.mem_mapM_iff h).mp ha
    cases hnumber ha
    exact (Outcome.mem_mapM_iff hsections').mpr
      ⟨_, hmem, (he.sectionOf_eq ho definitions hkept).trans ha⟩

end Reading

end Editor

end LivePatch.Coff
