import LivePatch.Build.Strip
import LivePatch.Proofs.Coff.Parts
import LivePatch.Proofs.Triple

/-!
# Edits of object files

The layout of an object file never changes while it is edited. As long as its parts share no byte,
every edit leaves all records of symbols alone but those that it neutralizes, and headers of
sections but those that it drops. So the edited file lists the same symbols, some of them
neutralized.
-/

namespace LivePatch.Coff

/-- What neutralizing leaves of a symbol. -/
def EditorSymbol.removed (strategy : RemovalStrategy) (s : EditorSymbol) : EditorSymbol :=
  ⟨s.index, removedName, 0, strategy.sectionNumber, classNull, s.auxCount⟩

/-- What is left of a symbol of a file, some of whose symbols were neutralized. -/
def EditorSymbol.after (strategy : RemovalStrategy) (gone : List Nat) (s : EditorSymbol) :
    EditorSymbol :=
  if s.index ∈ gone then s.removed strategy else s

@[simp] theorem EditorSymbol.isRemoved_removed (strategy : RemovalStrategy) (s : EditorSymbol) :
    (s.removed strategy).isRemoved = true := by
  simp [removed, isRemoved]

@[simp] theorem EditorSymbol.index_after (strategy : RemovalStrategy) (gone : List Nat)
    (s : EditorSymbol) : (s.after strategy gone).index = s.index := by
  unfold after
  split <;> rfl

@[simp] theorem EditorSymbol.auxCount_after (strategy : RemovalStrategy) (gone : List Nat)
    (s : EditorSymbol) : (s.after strategy gone).auxCount = s.auxCount := by
  unfold after
  split <;> rfl

/-- A symbol that is not neutralized is what it was. -/
theorem EditorSymbol.after_eq_self {strategy : RemovalStrategy} {gone : List Nat}
    {s : EditorSymbol} (h : (s.after strategy gone).isRemoved = false) :
    s.index ∉ gone ∧ s.after strategy gone = s := by
  unfold after at *
  split at h
  · simp at h
  · next hnot => exact ⟨hnot, if_neg hnot⟩

namespace Editor

open Bytes

variable {e e₀ : Editor} {number : Nat} {h : SectionHeader}

/-- A file after edits that neutralized the symbols with certain indices, of those that are listed,
and dropped certain sections. -/
structure Edited (e₀ : Editor) (listed : List EditorSymbol) (gone dropped : List Nat)
    (e : Editor) : Prop where
  tables : e = { e₀ with data := e.data }
  size : e.data.size = e₀.data.size
  start : SameIn e.data e₀.data ⟨0, headerSize⟩
  names : SameIn e.data e₀.data e₀.namesWindow
  headers : ∀ number h, e.header number = .ok h →
    if number ∈ dropped then h.characteristics = flagRemove ||| flagDiscardable
    else e₀.header number = .ok h
  counts : ∀ number h, e₀.header number = .ok h → hasFlag h.characteristics flagOverflow = true →
    SameIn e.data e₀.data ⟨h.relocationPointer, relocationSize⟩
  records : ∀ raw ∈ listed, ∀ r, e₀.record raw.index = .ok r →
    e.record raw.index = .ok (if raw.index ∈ gone then r.removed e₀.strategy else r)

variable {listed : List EditorSymbol} {gone dropped : List Nat}

theorem Edited.refl : Edited e₀ listed [] [] e₀ where
  tables := rfl
  size := rfl
  start _ _ := rfl
  names _ _ := rfl
  headers _ _ hh := by simpa using hh
  counts _ _ _ _ _ _ := rfl
  records _ _ _ hr := by simpa using hr

/-- A file with other bytes. -/
abbrev withData (e : Editor) (data : Bytes) : Editor := { e with data := data }

/-- Headers depend on their own bytes only. -/
theorem header_withData {data : Bytes} {w : Window} (hdiffers : DiffersIn e.data data w)
    (hclear : ∀ at', e.headerAt number = .ok at' → w.IsClear ⟨at', sectionHeaderSize⟩) :
    (e.withData data).header number = e.header number := by
  unfold header
  have hat : (e.withData data).headerAt number = e.headerAt number := rfl
  rw [hat]
  cases hoffset : e.headerAt number with
  | error _ => rfl
  | ok at' =>
    change orFail _ _ = orFail _ _
    rw [SectionHeader.read?_congr hdiffers.size (hdiffers.same _ (hclear at' hoffset))]

/-- Records of symbols depend on their own bytes only. -/
theorem record_congr {data : Bytes} {index : Nat} (hsize : data.size = e.data.size)
    (hsame : SameIn data e.data ⟨e.recordAt index, symbolSize⟩) :
    (e.withData data).record index = e.record index := by
  unfold record
  have hat : (e.withData data).recordAt index = e.recordAt index := rfl
  rw [hat, SymbolRecord.read?_congr hsize hsame]

/-- Records of symbols outside of what is changed stay. -/
theorem record_withData {data : Bytes} {w : Window} {index : Nat}
    (hdiffers : DiffersIn e.data data w) (hclear : w.IsClear ⟨e.recordAt index, symbolSize⟩) :
    (e.withData data).record index = e.record index :=
  record_congr hdiffers.size (hdiffers.same _ hclear)

/-- Where a header lies. -/
theorem headerAt_eq_ok_iff {at' : Nat} :
    e.headerAt number = .ok at' ↔ 0 < number ∧ number ≤ e.sectionCount ∧
      at' = e.sectionsAt + (number - 1) * sectionHeaderSize := by
  unfold headerAt
  split
  · simp [fail, throwThe, MonadExceptOf.throw]
    omega
  · simp only [Except.ok.injEq, eq_comm]
    omega

/-- A record lies inside the file. -/
theorem Fits.recordAt_le {index : Nat} (hfits : e.Fits) (hindex : index < e.symbolCount) :
    e.recordAt index + symbolSize ≤ e.data.size := by
  obtain ⟨-, -, hsymbols, hstrings⟩ := hfits
  unfold recordAt
  unfold symbolSize at *
  omega

/-- A header lies inside the file. -/
theorem Fits.headerAt_le {at' : Nat} (hfits : e.Fits) (hat : e.headerAt number = .ok at') :
    at' + sectionHeaderSize ≤ e.data.size := by
  obtain ⟨hpos, hle, rfl⟩ := headerAt_eq_ok_iff.mp hat
  have hheaders := hfits.headers
  unfold sectionHeaderSize at *
  omega

/-- A header lies among the headers. -/
theorem contains_header {at' i : Nat} (hat : e.headerAt number = .ok at')
    (hi : (Window.mk at' sectionHeaderSize).Contains i) : e.headerWindow.Contains i := by
  obtain ⟨hpos, hle, rfl⟩ := headerAt_eq_ok_iff.mp hat
  obtain ⟨hlo, hhi⟩ := hi
  unfold headerWindow Window.Contains
  unfold sectionHeaderSize at *
  dsimp only at *
  omega

/-- A record lies in the symbol table. -/
theorem contains_record (hfits : e.Fits) {index i : Nat} (hindex : index < e.symbolCount)
    (hi : (Window.mk (e.recordAt index) symbolSize).Contains i) :
    e.tableWindow.Contains i ∧ i < e.stringsAt := by
  obtain ⟨hlo, hhi⟩ := hi
  obtain ⟨-, -, hsymbols, hstrings⟩ := hfits
  unfold tableWindow Window.Contains
  unfold recordAt symbolSize at *
  dsimp only at *
  omega

/-- Names lie behind the symbol table. -/
theorem contains_names (hfits : e.Fits) {i : Nat} (hi : e.namesWindow.Contains i) :
    e.tableWindow.Contains i := by
  obtain ⟨hlo, hhi⟩ := hi
  obtain ⟨-, -, hsymbols, hstrings⟩ := hfits
  unfold tableWindow Window.Contains
  unfold namesWindow at *
  dsimp only at *
  omega

/-- The record that may count the relocations of a section lies in front of them. -/
theorem contains_count {w : Window} {i : Nat} (hh : e.header number = .ok h)
    (hflag : hasFlag h.characteristics flagOverflow = true)
    (hw : e.relocationWindow number = .ok w)
    (hi : (Window.mk h.relocationPointer relocationSize).Contains i) : w.Contains i := by
  obtain ⟨h', hh', hw⟩ := Outcome.bind_eq_ok_iff.mp hw
  cases hh.symm.trans hh'
  obtain ⟨⟨offset, count⟩, htable, hw⟩ := Outcome.bind_eq_ok_iff.mp hw
  cases hw
  obtain ⟨h', hh', htable⟩ := Outcome.bind_eq_ok_iff.mp htable
  cases hh.symm.trans hh'
  rw [if_pos hflag] at htable
  obtain ⟨first, -, htable⟩ := Outcome.bind_eq_ok_iff.mp htable
  cases htable
  obtain ⟨hlo, hhi⟩ := hi
  unfold Window.Contains
  dsimp only at *
  omega

namespace Edited

variable (he : Edited e₀ listed gone dropped e)

include he in
theorem sectionsAt_eq : e.sectionsAt = e₀.sectionsAt := by rw [he.tables]

include he in
theorem sectionCount_eq : e.sectionCount = e₀.sectionCount := by rw [he.tables]

include he in
theorem symbolsAt_eq : e.symbolsAt = e₀.symbolsAt := by rw [he.tables]

include he in
theorem symbolCount_eq : e.symbolCount = e₀.symbolCount := by rw [he.tables]

include he in
theorem stringsAt_eq : e.stringsAt = e₀.stringsAt := by rw [he.tables]

include he in
theorem strategy_eq : e.strategy = e₀.strategy := by rw [he.tables]

include he in
theorem recordAt_eq (index : Nat) : e.recordAt index = e₀.recordAt index := by
  unfold recordAt
  rw [he.symbolsAt_eq]

include he in
theorem headerAt_eq (number : Nat) : e.headerAt number = e₀.headerAt number := by
  unfold headerAt
  rw [he.sectionsAt_eq, he.sectionCount_eq]

include he in
/-- Texts behind the symbol table are what they were. -/
theorem stringAt_eq (offset : Nat) : e.stringAt offset = e₀.stringAt offset := by
  have hsuffix : e.data.suffix (e₀.stringsAt + offset) = e₀.data.suffix (e₀.stringsAt + offset) := by
    unfold Bytes.suffix
    apply Array.ext_getElem?
    intro i
    rw [Array.getElem?_extract, Array.getElem?_extract, he.size]
    split
    · next hi =>
      refine he.names _ ⟨?_, ?_⟩ <;> unfold namesWindow <;> dsimp only <;> omega
    · rfl
  unfold stringAt
  rw [he.stringsAt_eq, hsuffix]

include he in
theorem symbolOf_eq (index : Nat) (r : SymbolRecord) : e.symbolOf index r = e₀.symbolOf index r := by
  unfold symbolOf symbolName
  rw [he.stringAt_eq]

include he in
theorem sectionName_eq (h : SectionHeader) : e.sectionName h = e₀.sectionName h := by
  unfold sectionName
  dsimp only
  split
  · split
    · rw [he.stringAt_eq]
    · rfl
  · rfl

end Edited

/-- What the record of a neutralized symbol stands for. -/
theorem symbolOf_removed (strategy : RemovalStrategy) (index : Nat) (r : SymbolRecord) :
    e.symbolOf index (r.removed strategy) = (e.symbolOf index r).removed strategy := by
  cases strategy <;> rfl

theorem auxCount_removed_or_same (strategy : RemovalStrategy) (p : Prop) [Decidable p]
    (r : SymbolRecord) : (if p then r.removed strategy else r).auxCount = r.auxCount := by
  split <;> rfl

/-- A file whose records stand for other symbols, with as many auxiliary records behind them, lists
these symbols instead. -/
theorem symbols_eq_map {f : EditorSymbol → EditorSymbol} (hlisted : e₀.symbols = .ok listed)
    (hcount : e.symbolCount = e₀.symbolCount)
    (hrecords : ∀ raw ∈ listed, ∀ r, e₀.record raw.index = .ok r → ∃ r', e.record raw.index = .ok r' ∧
      r'.auxCount = r.auxCount ∧ e.symbolOf raw.index r' = f (e₀.symbolOf raw.index r)) :
    e.symbols = .ok (listed.map f) := by
  have hfrom : ∀ fuel index rest, e₀.symbolsFrom fuel index = .ok rest → rest ⊆ listed →
      e.symbolsFrom fuel index = .ok (rest.map f) := by
    intro fuel
    induction fuel with
    | zero =>
      intro index rest hrest _
      cases hrest
      rfl
    | succ fuel ih =>
      intro index rest hrest hsub
      unfold symbolsFrom at hrest ⊢
      rw [hcount]
      split at hrest
      · cases hrest
        rw [if_pos ‹_›]
        rfl
      · rw [if_neg ‹_›]
        obtain ⟨r, hr, hrest⟩ := Outcome.bind_eq_ok_iff.mp hrest
        obtain ⟨others, hothers, hrest⟩ := Outcome.bind_eq_ok_iff.mp hrest
        cases hrest
        obtain ⟨hfirst, hsub⟩ := List.cons_subset.mp hsub
        obtain ⟨r', hr', haux, hsymbol⟩ := hrecords _ hfirst r hr
        refine Outcome.bind_eq_ok_iff.mpr ⟨r', hr', Outcome.bind_eq_ok_iff.mpr
          ⟨others.map f, ?_, ?_⟩⟩
        · rw [haux]
          exact ih _ _ hothers hsub
        · exact congrArg (fun s ↦ Except.ok (s :: others.map f)) hsymbol
  unfold symbols
  rw [hcount]
  exact hfrom _ _ _ hlisted fun _ h ↦ h

namespace Edited

/-- What a record stands for that was neutralized or not. -/
theorem symbolOf_removed_or_same (he : Edited e₀ listed gone dropped e) (index : Nat)
    (r : SymbolRecord) :
    e.symbolOf index (if index ∈ gone then r.removed e₀.strategy else r)
      = (e₀.symbolOf index r).after e₀.strategy gone := by
  have hindex : (e₀.symbolOf index r).index = index := rfl
  rw [he.symbolOf_eq, EditorSymbol.after, hindex]
  split
  · exact symbolOf_removed ..
  · rfl

/-- An edited file lists the symbols that the file listed, some of them neutralized. -/
theorem symbols_eq (ho : Outline e₀ listed) (he : Edited e₀ listed gone dropped e) :
    e.symbols = .ok (listed.map (EditorSymbol.after e₀.strategy gone)) :=
  symbols_eq_map ho.listing he.symbolCount_eq fun raw hraw r hr ↦
    ⟨_, he.records raw hraw r hr, auxCount_removed_or_same .., he.symbolOf_removed_or_same ..⟩

/-- Bytes that hold neither names nor counts are changed. -/
theorem of_differsIn (he : Edited e₀ listed gone dropped e) {data : Bytes} {w : Window}
    {gone' dropped' : List Nat} (hdiffers : DiffersIn e.data data w)
    (hstart : w.IsClear ⟨0, headerSize⟩) (hnames : w.IsClear e₀.namesWindow)
    (hcounts : ∀ number h, e₀.header number = .ok h →
      hasFlag h.characteristics flagOverflow = true → w.IsClear ⟨h.relocationPointer, relocationSize⟩)
    (hheaders : ∀ number h, (e.withData data).header number = .ok h →
      if number ∈ dropped' then h.characteristics = flagRemove ||| flagDiscardable
      else e₀.header number = .ok h)
    (hrecords : ∀ raw ∈ listed, ∀ r, e₀.record raw.index = .ok r → (e.withData data).record raw.index
      = .ok (if raw.index ∈ gone' then r.removed e₀.strategy else r)) :
    Edited e₀ listed gone' dropped' (e.withData data) where
  tables := by
    rw [he.tables]
  size := hdiffers.size.trans he.size
  start := (hdiffers.same _ hstart).trans he.start
  names := (hdiffers.same _ hnames).trans he.names
  headers := hheaders
  counts number h hh hflag := (hdiffers.same _ (hcounts number h hh hflag)).trans
    (he.counts number h hh hflag)
  records := hrecords

/-- Bytes outside the headers leave them alone. -/
theorem headers_withData (he : Edited e₀ listed gone dropped e) {data : Bytes} {w : Window}
    (hdiffers : DiffersIn e.data data w) (hclear : w.IsClear e₀.headerWindow) (number : Nat) :
    (e.withData data).header number = e.header number := by
  refine header_withData hdiffers fun at' hat ↦ ?_
  rw [he.headerAt_eq] at hat
  exact hclear.mono (fun _ hi ↦ hi) fun _ hi ↦ contains_header hat hi

/-- The start of a file lies in front of the headers of its sections. -/
theorem contains_start (hfits : e₀.Fits) {i : Nat} (hi : (Window.mk 0 headerSize).Contains i) :
    e₀.headerWindow.Contains i := by
  obtain ⟨hlo, hhi⟩ := hi
  have := hfits.header
  unfold headerWindow Window.Contains
  dsimp only at *
  omega

/-- Counts of relocations lie clear of the symbol table and the headers. -/
theorem isClear_count (ho : Outline e₀ listed) {w : Window}
    (hw : (∀ i, w.Contains i → e₀.tableWindow.Contains i) ∨
      ∀ i, w.Contains i → e₀.headerWindow.Contains i)
    {number : Nat} {h : SectionHeader} (hh : e₀.header number = .ok h)
    (hflag : hasFlag h.characteristics flagOverflow = true) :
    w.IsClear ⟨h.relocationPointer, relocationSize⟩ := by
  obtain ⟨v, hv⟩ := ho.clearances.isRelocated number h hh
  obtain ⟨htable, hheader⟩ := ho.clearances.relocation number v hv
  rcases hw with hw | hw
  · exact htable.symm.mono hw fun _ hi ↦ contains_count hh hflag hv hi
  · exact hheader.symm.mono hw fun _ hi ↦ contains_count hh hflag hv hi

/-- Bytes of the symbol table that are no names lie clear of headers, counts and names. -/
theorem of_differsIn_table (ho : Outline e₀ listed) (he : Edited e₀ listed gone dropped e)
    {data : Bytes} {w : Window} {gone' : List Nat} (hdiffers : DiffersIn e.data data w)
    (htable : ∀ i, w.Contains i → e₀.tableWindow.Contains i ∧ i < e₀.stringsAt)
    (hrecords : ∀ raw ∈ listed, ∀ r, e₀.record raw.index = .ok r → (e.withData data).record raw.index
      = .ok (if raw.index ∈ gone' then r.removed e₀.strategy else r)) :
    Edited e₀ listed gone' dropped (e.withData data) := by
  have hheader : w.IsClear e₀.headerWindow :=
    ho.clearances.header.mono (fun i hi ↦ (htable i hi).1) fun _ hi ↦ hi
  refine he.of_differsIn hdiffers (hheader.mono (fun _ hi ↦ hi) fun _ hi ↦
    contains_start ho.fits hi) ?_ (fun number h hh hflag ↦
      isClear_count ho (.inl fun i hi ↦ (htable i hi).1) hh hflag) ?_ hrecords
  · by_cases hempty : w.size = 0
    · exact .inl hempty
    · have hlast := (htable (w.start + w.size - 1) ⟨by omega, by omega⟩).2
      exact .inr (.inr (.inl (by unfold namesWindow; dsimp only; omega)))
  · intro number h hh
    rw [he.headers_withData hdiffers hheader] at hh
    exact he.headers number h hh

/-- Bytes that are neither of the tables nor of the headers are changed. -/
theorem of_differsIn_body (ho : Outline e₀ listed) (he : Edited e₀ listed gone dropped e)
    {data : Bytes} {w : Window} (hdiffers : DiffersIn e.data data w)
    (htable : w.IsClear e₀.tableWindow) (hheader : w.IsClear e₀.headerWindow)
    (hcounts : ∀ number h, e₀.header number = .ok h →
      hasFlag h.characteristics flagOverflow = true →
        w.IsClear ⟨h.relocationPointer, relocationSize⟩) :
    Edited e₀ listed gone dropped (e.withData data) := by
  refine he.of_differsIn hdiffers (hheader.mono (fun _ hi ↦ hi) fun _ hi ↦
    contains_start ho.fits hi) (htable.mono (fun _ hi ↦ hi) fun _ hi ↦ contains_names ho.fits hi)
      hcounts ?_ ?_
  · intro number h hh
    rw [he.headers_withData hdiffers hheader] at hh
    exact he.headers number h hh
  · intro raw hraw r hr
    rw [record_withData hdiffers, he.records raw hraw r hr]
    rw [he.recordAt_eq]
    exact htable.mono (fun _ hi ↦ hi) fun _ hi ↦ (contains_record ho.fits (ho.index_lt hraw) hi).1

end Edited

section Edits

variable (ho : Outline e₀ listed) {raw : EditorSymbol}

/-- A record lies inside the file. -/
theorem Outline.recordAt_le {index : Nat} (ho : Outline e₀ listed) (hindex : index < e₀.symbolCount) :
    e₀.recordAt index + symbolSize ≤ e₀.data.size :=
  ho.fits.recordAt_le hindex

/-- Replacing bytes of a file. -/
theorem triple_put {Q : Editor → Prop} {offset : Nat} {bytes : Bytes}
    (h : Q (e.withData (e.data.overwrite offset bytes))) :
    Triple (· = e) (put offset bytes) (fun _ ↦ Q) fun _ ↦ True :=
  Triple.modify fun _ hs ↦ hs ▸ h

/-- The start of a record lies in it. -/
theorem contains_record_start (hfits : e.Fits) {index size i : Nat} (hindex : index < e.symbolCount)
    (hsize : size ≤ symbolSize) (hi : (Window.mk (e.recordAt index) size).Contains i) :
    e.tableWindow.Contains i ∧ i < e.stringsAt :=
  contains_record hfits hindex ⟨hi.1, Nat.lt_of_lt_of_le hi.2 (Nat.add_le_add_left hsize _)⟩

/-- Records of different indices share no byte. -/
theorem isClear_record {index other size : Nat} (hsize : size ≤ symbolSize) (hne : index ≠ other) :
    (Window.mk (e.recordAt index) size).IsClear ⟨e.recordAt other, symbolSize⟩ := by
  unfold symbolSize at hsize
  unfold Window.IsClear recordAt symbolSize
  dsimp only
  omega

/-- The record of a symbol that was neutralized is read as such. -/
theorem record_removed {index : Nat} {r : SymbolRecord} (hr : e.record index = .ok r)
    (strategy : RemovalStrategy) :
    (e.withData (e.data.overwrite (e.recordAt index) (removedRecord strategy))).record index
      = .ok (r.removed strategy) := by
  unfold Editor.record at hr
  split at hr
  · cases hr
  · next hindex =>
    have hread := SymbolRecord.read?_removed (Outcome.orFail_eq_ok_iff.mp hr) strategy
    generalize e.data.overwrite (e.recordAt index) (removedRecord strategy) = data at hread ⊢
    unfold Editor.record
    rw [if_neg hindex]
    exact Outcome.orFail_eq_ok_iff.mpr hread

include ho in
/-- Neutralizing a listed symbol neutralizes it, and nothing else. -/
theorem triple_removeSymbol (hraw : raw ∈ listed) :
    Triple (Edited e₀ listed gone dropped) (removeSymbol raw.index)
      (fun _ ↦ Edited e₀ listed (raw.index :: gone) dropped) fun _ ↦ True := by
  refine Triple.bind_get fun e he ↦ Triple.bind_lift (fun found hfound ↦ triple_put ?_)
    fun _ _ ↦ trivial
  have hlt := ho.index_lt hraw
  have hinside := ho.recordAt_le hlt
  have hat := he.recordAt_eq raw.index
  have hsize : (removedRecord e.strategy).size = 17 := size_removedRecord e.strategy
  have hpart : 17 ≤ symbolSize := by decide
  have hdiffers := differsIn_overwrite (b := e.data) (e.recordAt raw.index)
    (removedRecord e.strategy) (.inr (by rw [he.size]; omega))
  rw [hsize] at hdiffers
  refine Edited.of_differsIn_table ho he hdiffers (fun i hi ↦ ?_) fun other hother r hr ↦ ?_
  · rw [hat] at hi
    exact contains_record_start ho.fits hlt hpart hi
  · have hread := he.records other hother r hr
    by_cases hsame : other.index = raw.index
    · rw [hsame] at hread ⊢
      rw [if_pos (List.mem_cons_self ..), record_removed hread, he.strategy_eq,
        SymbolRecord.removed, auxCount_removed_or_same]
      rfl
    · rw [record_withData hdiffers (isClear_record hpart (Ne.symm hsame)), hread]
      simp only [List.mem_cons, hsame, false_or]

include ho in
/-- Emptying the definition of a section that a symbol carries changes none of the symbols. -/
theorem triple_clearDefinition (hraw : raw ∈ listed) (haux : 0 < raw.auxCount) :
    Triple (Edited e₀ listed gone dropped) (clearDefinition (raw.index + 1))
      (fun _ ↦ Edited e₀ listed gone dropped) fun _ ↦ True := by
  refine Triple.bind_get fun e he ↦ ?_
  split
  · exact Triple.fail fun _ _ ↦ trivial
  · next hlt =>
    rw [he.symbolCount_eq, Nat.not_le] at hlt
    refine triple_put ?_
    have hinside := ho.recordAt_le hlt
    have hpart : 8 ≤ symbolSize := by decide
    have hdiffers : DiffersIn e.data _ ⟨e₀.recordAt (raw.index + 1), 8⟩ :=
      differsIn_overwrite _ (Bytes.fill 8 0) (.inr (by
        rw [he.size, show (Bytes.fill 8 0).size = 8 from rfl]
        omega))
    rw [he.recordAt_eq]
    refine Edited.of_differsIn_table ho he hdiffers
      (fun i hi ↦ contains_record_start ho.fits hlt hpart hi) fun other hother r hr ↦ ?_
    rw [record_withData hdiffers, he.records other hother r hr]
    rw [he.recordAt_eq]
    refine isClear_record hpart ?_
    rcases ho.apart hraw hother with rfl | hapart <;> omega

include ho in
/-- Marking the header of a section for removal drops the section, and changes nothing else. -/
theorem triple_dropHeader {at' : Nat} (hat : e₀.headerAt number = .ok at') :
    Triple (Edited e₀ listed gone dropped)
      (do
        put at' removedSectionName
        put (at' + 16) (Bytes.fill 20 0)
        put (at' + 36) (Bytes.ofU32 (flagRemove ||| flagDiscardable)))
      (fun _ ↦ Edited e₀ listed gone (number :: dropped)) fun _ ↦ True := by
  have hheader := fun i ↦ contains_header (i := i) hat
  obtain ⟨hpos, hle, heq⟩ := headerAt_eq_ok_iff.mp hat
  have hinside := ho.fits.headerAt_le hat
  have hpart : ∀ (data : Bytes) (offset : Nat) (bytes : Bytes), data.size = e₀.data.size →
      offset + bytes.size ≤ sectionHeaderSize → DiffersIn data
        (data.overwrite (at' + offset) bytes) ⟨at', sectionHeaderSize⟩ := by
    intro data offset bytes hsize hbytes
    refine (differsIn_overwrite _ _ (.inr (by omega))).mono ?_
    rintro i ⟨hlo, hhi⟩
    unfold Window.Contains
    dsimp only at *
    omega
  have hword : (Bytes.ofU32 (flagRemove ||| flagDiscardable)).size = 4 := by decide
  refine Triple.of_pre fun e he ↦ ?_
  -- The header is changed in three steps; only what the last one leaves matters.
  refine Triple.bind (R := fun _ e' ↦ ∃ data, e' = e.withData data ∧
      DiffersIn e.data data ⟨at', sectionHeaderSize⟩)
    (triple_put ⟨_, rfl, hpart e.data 0 _ he.size (by decide)⟩) fun _ ↦ Triple.of_pre ?_
  rintro _ ⟨data, rfl, hfirst⟩
  refine Triple.bind (R := fun _ e' ↦ ∃ data, e' = e.withData data ∧
      DiffersIn e.data data ⟨at', sectionHeaderSize⟩)
    (triple_put ⟨_, rfl, hfirst.trans (hpart data 16 _ (hfirst.size.trans he.size)
      (by decide))⟩) fun _ ↦ Triple.of_pre ?_
  rintro _ ⟨data, rfl, hsecond⟩
  refine triple_put ?_
  have hsize : data.size = e₀.data.size := hsecond.size.trans he.size
  have hdiffers := hsecond.trans (hpart data 36 (Bytes.ofU32 (flagRemove ||| flagDiscardable))
    hsize (by rw [hword]; decide))
  refine he.of_differsIn hdiffers (.inr (.inr (.inr ?_))) (ho.clearances.header.symm.mono hheader
      fun _ hi ↦ contains_names ho.fits hi) (fun other h hh hflag ↦
      Edited.isClear_count ho (.inr hheader) hh hflag) (fun other h hh ↦ ?_) fun raw hraw r hr ↦ ?_
  · have := ho.fits.header
    dsimp only
    omega
  · by_cases hsame : other = number
    · subst hsame
      rw [if_pos (List.mem_cons_self ..)]
      obtain ⟨at'', hat', hh⟩ := Outcome.bind_eq_ok_iff.mp hh
      have hat' : e.headerAt other = .ok at'' := hat'
      rw [he.headerAt_eq] at hat'
      cases hat.symm.trans hat'
      exact SectionHeader.characteristics_overwrite (by rw [hsize]; exact hinside)
        (Outcome.orFail_eq_ok_iff.mp hh)
    · simp only [List.mem_cons, hsame, false_or]
      have hother : (e.withData _).header other = e.header other :=
        header_withData hdiffers fun at'' hat'' ↦ by
          rw [he.headerAt_eq] at hat''
          obtain ⟨hpos', hle', heq'⟩ := headerAt_eq_ok_iff.mp hat''
          refine .inr (.inr ?_)
          unfold sectionHeaderSize at *
          dsimp only
          omega
      exact he.headers other h (hother ▸ hh)
  · rw [show (e.withData _).record raw.index = e.record raw.index from
      record_withData hdiffers ?_, he.records raw hraw r hr]
    rw [he.recordAt_eq]
    exact ho.clearances.header.symm.mono hheader fun _ hi ↦
      (contains_record ho.fits (ho.index_lt hraw) hi).1

include ho in
/-- Dropping a section neutralizes no symbol. -/
theorem triple_removeSection :
    Triple (Edited e₀ listed gone dropped) (removeSection number)
      (fun _ ↦ Edited e₀ listed gone (number :: dropped)) fun _ ↦ True := by
  refine Triple.bind_get fun e he ↦ Triple.bind_lift (fun at' hat ↦ ?_) fun _ _ ↦ trivial
  rw [he.headerAt_eq] at hat
  have hdrop : Triple (Edited e₀ listed gone dropped) _ _ _ := triple_dropHeader ho hat
  have hclear : Triple (Edited e₀ listed gone (number :: dropped))
      (do
        let symbols ← (← get).symbols
        (symbols.filter fun s ↦ s.isSectionDefinition && s.sectionNumber == (number : Int)).forM
          fun s ↦ clearDefinition (s.index + 1))
      (fun _ ↦ Edited e₀ listed gone (number :: dropped)) fun _ ↦ True := by
    refine Triple.bind_get fun e he ↦ Triple.bind_lift (fun symbols hsymbols ↦ ?_)
      fun _ _ ↦ trivial
    cases (he.symbols_eq ho).symm.trans hsymbols
    refine (Triple.forM_keeps fun s hs ↦ ?_).mono (fun e' h ↦ h ▸ he) (fun _ _ h ↦ h) fun _ h ↦ h
    obtain ⟨hs, hdefinition⟩ := List.mem_filter.mp hs
    obtain ⟨raw, hraw, rfl⟩ := List.mem_map.mp hs
    have haux : 0 < raw.auxCount := by
      have := (Bool.and_eq_true_iff.mp hdefinition).1
      simp only [EditorSymbol.isSectionDefinition, EditorSymbol.auxCount_after, Bool.and_eq_true,
        decide_eq_true_eq] at this
      exact this.1.1.2
    rw [EditorSymbol.index_after]
    exact triple_clearDefinition ho hraw haux
  have hboth : Triple (· = e) _ _ _ := (hdrop.bind fun _ ↦ hclear).mono (fun _ h ↦ h ▸ he)
    (fun _ _ h ↦ h) fun _ h ↦ h
  simpa only [bind_assoc] using hboth

/-- What a section of an edited file was found to be. -/
theorem Edited.sectionOf (he : Edited e₀ listed gone dropped e) {sections : List EditorSection}
    (hsections : e.sections = .ok sections) {s : EditorSection} (hs : s ∈ sections) :
    ∃ h, e.header s.number = .ok h ∧ s.name = e₀.sectionName h ∧
      s.characteristics = h.characteristics := by
  obtain ⟨symbols, -, hsections⟩ := Outcome.bind_eq_ok_iff.mp hsections
  obtain ⟨definitions, -, hsections⟩ := Outcome.bind_eq_ok_iff.mp hsections
  obtain ⟨number, -, hs⟩ := (Outcome.mem_mapM_iff hsections).mp hs
  obtain ⟨h, hh, hs⟩ := Outcome.bind_eq_ok_iff.mp hs
  cases hs
  exact ⟨h, hh, he.sectionName_eq h, rfl⟩

/-- Blanking out directives changes nothing but the data of the first section that holds some. -/
theorem triple_filterDirectives_of {Q : Editor → Prop} (keep : String → Bool) (hsame : Q e)
    (hput : ∀ sections s h data, e.sections = .ok sections → s ∈ sections → s.name = ".drectve" →
      e.header s.number = .ok h → DiffersIn e.data data ⟨h.rawPointer, h.rawSize⟩ →
        Q (e.withData data)) :
    Triple (· = e) (filterDirectives keep) (fun _ ↦ Q) fun _ ↦ True := by
  have hstart : ∀ e', e' = e → Q e' := fun _ h ↦ h ▸ hsame
  refine Triple.bind_get fun e' he' ↦ ?_
  subst he'
  refine Triple.bind_lift (fun sections hsections ↦ ?_) fun _ _ ↦ trivial
  split
  · exact Triple.pure hstart
  · next s hfound =>
    have hname : s.name = ".drectve" := by simpa using List.find?_some hfound
    refine Triple.bind_lift (fun h hh ↦ Triple.bind_lift (fun raw hraw ↦ ?_) fun _ _ ↦ trivial)
      fun _ _ ↦ trivial
    split
    · exact Triple.pure hstart
    · next text _ =>
      generalize splitMarks text = split
      obtain ⟨marks, body⟩ := split
      dsimp only
      split
      · exact Triple.pure hstart
      · refine Triple.bind (R := fun _ ↦ Q) (triple_put (hput sections s h _ hsections
          (List.mem_of_find?_eq_some hfound) hname hh ?_)) fun _ ↦ Triple.pure fun _ h ↦ h
        generalize Text.Utf8.size (String.ofList marks) = skipped
        generalize hbytes : Bytes.resize _ (h.rawSize - skipped) _ = bytes
        have hsize : bytes.size = h.rawSize - skipped := by rw [← hbytes, Bytes.size_resize]
        have hinside := le_of_slice? (Outcome.orFail_eq_ok_iff.mp hraw)
        refine (differsIn_overwrite (h.rawPointer + skipped) bytes (by omega)).mono fun i hi ↦ ?_
        obtain ⟨hlo, hhi⟩ := hi
        unfold Window.Contains
        dsimp only at *
        omega

/-- Setting the type of a relocation changes nothing else. -/
theorem triple_setRelocationType_of {Q : Editor → Prop} (relocation : Nat) (typ : UInt16)
    (hput : ∀ offset count, e.relocationTable number = .ok (offset, count) → relocation < count →
      offset + count * relocationSize ≤ e.data.size → Q (e.withData
        (e.data.overwrite (offset + relocation * relocationSize + 8) (Bytes.ofU16 typ)))) :
    Triple (· = e) (setRelocationType number relocation typ) (fun _ ↦ Q) fun _ ↦ True := by
  refine Triple.bind_get fun e' he' ↦ ?_
  subst he'
  refine Triple.bind_lift (fun table htable ↦ ?_) fun _ _ ↦ trivial
  obtain ⟨offset, count⟩ := table
  dsimp only
  split
  · exact Triple.throw fun _ _ ↦ trivial
  · split
    · exact Triple.fail fun _ _ ↦ trivial
    · split
      · exact Triple.fail fun _ _ ↦ trivial
      · exact triple_put (hput offset count htable (by omega) (by omega))

include ho in
/-- Blanking out directives changes neither symbols nor headers. -/
theorem triple_filterDirectives (keep : String → Bool) :
    Triple (Edited e₀ listed gone []) (filterDirectives keep)
      (fun _ ↦ Edited e₀ listed gone []) fun _ ↦ True := by
  refine Triple.of_pre fun e he ↦ triple_filterDirectives_of keep he
    fun sections s h data hsections hs hname hh hdiffers ↦ ?_
  obtain ⟨h', hh', hname', -⟩ := he.sectionOf hsections hs
  cases hh.symm.trans hh'
  have hheader : e₀.header s.number = .ok h := by simpa using he.headers _ _ hh
  obtain ⟨htable, hheaders, hrelocations⟩ :=
    ho.clearances.directive s.number h hheader (hname' ▸ hname)
  refine he.of_differsIn_body ho hdiffers htable hheaders fun number h' hh' hflag ↦ ?_
  obtain ⟨w, hw⟩ := ho.clearances.isRelocated number h' hh'
  exact (hrelocations number w hw).mono (fun _ hi ↦ hi) fun _ hi ↦ contains_count hh' hflag hw hi

include ho in
/-- Other types of the relocations of a section that was not dropped. -/
theorem triple_setRelocationType (relocation : Nat) (typ : UInt16)
    (hh : e₀.header number = .ok h) (hkept : number ∉ dropped) :
    Triple (Edited e₀ listed gone dropped) (setRelocationType number relocation typ)
      (fun _ ↦ Edited e₀ listed gone dropped) fun _ ↦ True := by
  refine Triple.of_pre fun e he ↦ triple_setRelocationType_of relocation typ
    fun offset count htable hrange hinside ↦ ?_
  obtain ⟨w, hw⟩ := ho.clearances.isRelocated number h hh
  have hwindow : w = ⟨h.relocationPointer, offset + count * relocationSize - h.relocationPointer⟩ ∧
      h.relocationPointer ≤ offset ∧ (hasFlag h.characteristics flagOverflow = true →
        h.relocationPointer + relocationSize ≤ offset) := by
    obtain ⟨h', hh', htable⟩ := Outcome.bind_eq_ok_iff.mp htable
    have hsame := he.headers number h' hh'
    rw [if_neg hkept] at hsame
    cases hh.symm.trans hsame
    obtain ⟨h', hh', hw⟩ := Outcome.bind_eq_ok_iff.mp hw
    cases hh.symm.trans hh'
    obtain ⟨⟨offset', count'⟩, htable', hw⟩ := Outcome.bind_eq_ok_iff.mp hw
    obtain ⟨h', hh', htable'⟩ := Outcome.bind_eq_ok_iff.mp htable'
    cases hh.symm.trans hh'
    cases hw
    by_cases hflag : hasFlag h.characteristics flagOverflow = true
    · rw [if_pos hflag] at htable htable'
      rw [RawRelocation.read?_congr he.size (he.counts number h hh hflag)] at htable
      obtain ⟨first, hfirst, htable⟩ := Outcome.bind_eq_ok_iff.mp htable
      obtain ⟨first', hfirst', htable'⟩ := Outcome.bind_eq_ok_iff.mp htable'
      cases hfirst.symm.trans hfirst'
      cases htable
      cases htable'
      exact ⟨rfl, Nat.le_add_right _ _, fun _ ↦ Nat.le_refl _⟩
    · rw [if_neg hflag] at htable htable'
      cases htable
      cases htable'
      exact ⟨rfl, Nat.le_refl _, fun h ↦ (hflag h).elim⟩
  obtain ⟨rfl, hle, hcount⟩ := hwindow
  obtain ⟨htableWindow, hheaders⟩ := ho.clearances.relocation number _ hw
  have htwo : (Bytes.ofU16 typ).size = 2 := by simp [Bytes.ofU16, Bytes.length_ofNumber]
  have hlast : relocation * relocationSize + relocationSize ≤ count * relocationSize := by
    rw [← Nat.succ_mul]
    exact Nat.mul_le_mul_right _ hrange
  unfold relocationSize at *
  have hdiffers := differsIn_overwrite (b := e.data) (offset + relocation * 10 + 8)
    (Bytes.ofU16 typ) (.inr (by omega))
  rw [htwo] at hdiffers
  have hpart : ∀ i, (Window.mk (offset + relocation * 10 + 8) 2).Contains i →
      (Window.mk h.relocationPointer (offset + count * 10 - h.relocationPointer)).Contains i := by
    rintro i ⟨hlo, hhi⟩
    unfold Window.Contains
    dsimp only at *
    omega
  refine he.of_differsIn_body ho hdiffers (htableWindow.mono hpart fun _ hi ↦ hi)
    (hheaders.mono hpart fun _ hi ↦ hi) fun other h' hh' hflag ↦ ?_
  by_cases hsame : number = other
  · subst hsame
    cases hh.symm.trans hh'
    have := hcount hflag
    exact .inr (.inr (.inr (by unfold relocationSize; dsimp only; omega)))
  · obtain ⟨w, hw'⟩ := ho.clearances.isRelocated other h' hh'
    exact (ho.clearances.relocations number _ other w hw hw' hsame).mono hpart fun _ hi ↦
      contains_count hh' hflag hw' hi

include ho in
/-- Making references image-relative changes neither symbols nor headers. -/
theorem triple_retarget :
    Triple (Edited e₀ listed gone dropped) Stripping.retarget
      (fun _ ↦ Edited e₀ listed gone dropped) fun _ ↦ True := by
  refine Triple.bind_get fun e he ↦ Triple.bind_lift (fun symbols _ ↦ ?_) fun _ _ ↦ trivial
  dsimp only
  split
  · exact Triple.pure fun _ h ↦ h ▸ he
  · refine Triple.bind_lift (fun sections hsections ↦ ?_) fun _ _ ↦ trivial
    refine (Triple.forM_keeps fun s hs ↦ ?_).mono (fun _ h ↦ h ▸ he) (fun _ _ h ↦ h) fun _ h ↦ h
    obtain ⟨h, hh, -, hflags⟩ := he.sectionOf hsections hs
    unfold Stripping.retargetSection
    split
    · exact Triple.pure fun _ h ↦ h
    · next himage =>
      have hkept : s.number ∉ dropped := by
        intro hdropped
        have hcharacteristics := he.headers s.number h hh
        rw [if_pos hdropped, ← hflags] at hcharacteristics
        have hdiscardable : s.isDiscardable = true := by
          rw [EditorSection.isDiscardable, hcharacteristics]
          decide
        simp [hdiscardable] at himage
      have hheader := he.headers s.number h hh
      rw [if_neg hkept] at hheader
      refine Triple.bind_get fun e' he' ↦ Triple.bind_lift (fun relocations _ ↦ ?_)
        fun _ _ ↦ trivial
      exact (Triple.forM_keeps fun _ _ ↦ triple_setRelocationType ho _ _ hheader hkept).mono
        (fun _ h ↦ h ▸ he') (fun _ _ h ↦ h) fun _ h ↦ h

end Edits

/-- A file whose header is what it was is read as what it is. -/
theorem parse_withData {data : Bytes} {strategy : RemovalStrategy}
    (hparse : parse e₀.data strategy = .ok e₀) (hsize : data.size = e₀.data.size)
    (hstart : SameIn data e₀.data ⟨0, headerSize⟩) :
    parse data strategy = .ok (e₀.withData data) := by
  unfold parse at hparse ⊢
  rw [Header.read?_congr hsize hstart]
  obtain ⟨header, hheader, hparse⟩ := Outcome.bind_eq_ok_iff.mp hparse
  refine Outcome.bind_eq_ok_iff.mpr ⟨header, hheader, ?_⟩
  dsimp only at hparse ⊢
  rw [hsize]
  split at hparse
  · cases hparse
  · next hmachine =>
    rw [if_neg hmachine]
    split at hparse
    · cases hparse
    · next hinside =>
      rw [if_neg hinside]
      have := Except.ok.inj hparse
      rw [← this]
      rfl

/-- An edited file is read as what it is. -/
theorem Edited.parse (he : Edited e₀ listed gone dropped e)
    (hparse : parse e₀.data e₀.strategy = .ok e₀) : Editor.parse e.data e₀.strategy = .ok e := by
  rw [he.tables]
  exact parse_withData hparse he.size he.start

end LivePatch.Coff.Editor
