import LivePatch.Proofs.Coff.Rewriting

/-!
# Removing symbols and sections

Every removal of a symbol or a section replaces bytes at places that the file as it was settles, by
bytes that it settles as well. Removals that are possible are possible at any time, and what several
of them leave does not depend on their order.
-/

namespace LivePatch.Coff.Editor

open Bytes

/-- The removal of a symbol or a section. -/
inductive Removal where
  | ofSymbol (index : Nat)
  | ofSection (number : Nat)
  deriving DecidableEq, Repr

/-- The symbols that carry definitions of a section. -/
def definers (symbols : List EditorSymbol) (number : Nat) : List EditorSymbol :=
  symbols.filter fun s ↦ s.isSectionDefinition && s.sectionNumber == (number : Int)

namespace Removal

def run : Removal → EditM Unit
  | ofSymbol index => removeSymbol index
  | ofSection number => removeSection number

/-- Only symbols that are listed and carry no definition of a section are to be removed. -/
def IsAllowed (listed : List EditorSymbol) : Removal → Prop
  | ofSymbol index => ∃ raw ∈ listed, raw.index = index ∧ raw.isSectionDefinition = false
  | ofSection _ => True

/-- Whether a removal can be made. -/
def IsPossible (e : Editor) (listed : List EditorSymbol) : Removal → Prop
  | ofSymbol _ => True
  | ofSection number => (0 < number ∧ number ≤ e.sectionCount) ∧
    ∀ s ∈ definers listed number, s.index + 1 < e.symbolCount

/-- What a removal writes. -/
def stamps (e : Editor) (listed : List EditorSymbol) : Removal → List Stamp
  | ofSymbol index => [⟨e.recordAt index, removedRecord e.strategy⟩]
  | ofSection number => headerStamps (e.sectionsAt + (number - 1) * sectionHeaderSize)
    ++ (definers listed number).map fun s ↦ ⟨e.recordAt (s.index + 1), Bytes.fill 8 0⟩

end Removal

variable {e e₀ e₁ : Editor} {listed : List EditorSymbol} {number : Nat} {h : SectionHeader}

/-! ### Single steps -/

theorem run_put (offset : Nat) (bytes : Bytes) (e : Editor) :
    (put offset bytes).run e = (.ok (), e.withData (e.data.overwrite offset bytes)) := rfl

theorem run_clearDefinition_eq_ok_iff {index : Nat} :
    (clearDefinition index).run e = (.ok (), e₁) ↔ index < e.symbolCount ∧
      e₁ = e.withData (e.data.overwrite (e.recordAt index) (Bytes.fill 8 0)) := by
  unfold clearDefinition
  rw [run_bind, run_get]
  dsimp only
  split
  · rw [run_fail]
    exact ⟨fun h ↦ (by cases h), fun ⟨hlt, _⟩ ↦ by omega⟩
  · rw [run_put]
    refine ⟨fun h ↦ ?_, fun ⟨_, h⟩ ↦ h ▸ rfl⟩
    cases h
    exact ⟨by omega, rfl⟩

theorem run_clearDefinitions_eq_ok_iff {l : List EditorSymbol} :
    (l.forM fun s ↦ clearDefinition (s.index + 1)).run e = (.ok (), e₁) ↔
      (∀ s ∈ l, s.index + 1 < e.symbolCount) ∧ e₁ = e.withData (e.data.stamped
        (l.map fun s ↦ ⟨e.recordAt (s.index + 1), Bytes.fill 8 0⟩)) := by
  induction l generalizing e with
  | nil =>
    refine ⟨fun h ↦ ?_, fun ⟨_, h⟩ ↦ h ▸ rfl⟩
    cases h
    exact ⟨fun _ hs ↦ (by cases hs), rfl⟩
  | cons s l ih =>
    have hforM : (s :: l).forM (fun s ↦ clearDefinition (s.index + 1))
        = (clearDefinition (s.index + 1) >>= fun _ ↦ l.forM fun s ↦ clearDefinition (s.index + 1)) :=
      rfl
    rw [hforM, run_bind_eq_ok_iff, List.forall_mem_cons, List.map_cons, stamped_cons]
    constructor
    · rintro ⟨_, e', hfirst, hrest⟩
      obtain ⟨hlt, rfl⟩ := run_clearDefinition_eq_ok_iff.mp hfirst
      obtain ⟨hall, rfl⟩ := ih.mp hrest
      exact ⟨⟨hlt, hall⟩, rfl⟩
    · rintro ⟨⟨hlt, hall⟩, rfl⟩
      exact ⟨(), _, run_clearDefinition_eq_ok_iff.mpr ⟨hlt, rfl⟩, ih.mpr ⟨hall, rfl⟩⟩

theorem run_removeSection_eq_ok_iff :
    (removeSection number).run e = (.ok (), e₁) ↔ ∃ at', e.headerAt number = .ok at' ∧
      ∃ symbols, (e.withData (e.data.stamped (headerStamps at'))).symbols = .ok symbols ∧
        ((definers symbols number).forM fun s ↦ clearDefinition (s.index + 1)).run
          (e.withData (e.data.stamped (headerStamps at'))) = (.ok (), e₁) := by
  unfold removeSection
  rw [run_bind, run_get]
  dsimp only
  rw [run_bind_lift_eq_ok_iff]
  refine exists_congr fun at' ↦ and_congr_right fun _ ↦ ?_
  rw [run_bind, run_put]
  dsimp only
  rw [run_bind, run_put]
  dsimp only
  rw [run_bind, run_put]
  dsimp only
  rw [run_bind, run_get]
  exact run_bind_lift_eq_ok_iff

/-! ### What is left of the file -/

namespace Rewritten

variable {c : Changes} (hs : e₀.Separation listed) (he : Rewritten e₀ listed c e)

include hs he in
/-- A symbol that carries no definition is neutralized. -/
theorem removeSymbol {raw : EditorSymbol} (hraw : raw ∈ listed)
    (hplain : raw.isSectionDefinition = false) :
    Rewritten e₀ listed { c with gone := raw.index :: c.gone }
      (e.withData (e.data.overwrite (e₀.recordAt raw.index) (removedRecord e₀.strategy))) := by
  have hlt := index_lt_of_mem_symbols hs.listing hraw
  have hinside := hs.fits.recordAt_le hlt
  have hsize : (removedRecord e₀.strategy).size = 17 := size_removedRecord e₀.strategy
  have hpart : 17 ≤ symbolSize := by decide
  have hdiffers := differsIn_overwrite (b := e.data) (e₀.recordAt raw.index)
    (removedRecord e₀.strategy) (.inr (by rw [he.size]; omega))
  rw [hsize] at hdiffers
  refine he.of_differsIn_records hs (raw.index :: c.gone) hdiffers (fun i hi ↦
    contains_records hlt ⟨hi.1, Nat.lt_of_lt_of_le hi.2 (Nat.add_le_add_left hpart _)⟩)
    (fun other hother r hr ↦ ?_) fun other hother hgone ↦ ?_
  · have hread := he.records other hother r hr
    by_cases hsame : other.index = raw.index
    · rw [hsame] at hread ⊢
      rw [if_pos (List.mem_cons_self ..), ← he.recordAt_eq, record_removed hread,
        SymbolRecord.removed, auxCount_removed_or_same]
      rfl
    · rw [← he.recordAt_eq] at hdiffers ⊢
      rw [record_withData hdiffers (isClear_record hpart (Ne.symm hsame)), hread]
      simp only [List.mem_cons, hsame, false_or]
  · rcases List.mem_cons.mp hgone with hindex | hgone
    · rcases apart_of_mem_symbols hs.listing hraw hother with rfl | hapart
      · exact hplain
      · omega
    · exact he.plain other hother hgone

include hs he in
/-- Definitions of sections are emptied, which changes none of the symbols. -/
theorem clearDefinitions {l : List EditorSymbol} (hl : ∀ s ∈ l, s ∈ listed ∧ 0 < s.auxCount ∧
    s.index + 1 < e₀.symbolCount) :
    Rewritten e₀ listed c (e.withData (e.data.stamped
      (l.map fun s ↦ ⟨e₀.recordAt (s.index + 1), Bytes.fill 8 0⟩))) := by
  have hpart : 8 ≤ symbolSize := by decide
  have height : (Bytes.fill 8 0).size = 8 := rfl
  have hstamps : ∀ s ∈ l.map fun s ↦ (⟨e₀.recordAt (s.index + 1), Bytes.fill 8 0⟩ : Stamp),
      ∃ raw ∈ listed, 0 < raw.auxCount ∧ raw.index + 1 < e₀.symbolCount ∧
        s.window = ⟨e₀.recordAt (raw.index + 1), 8⟩ := by
    intro s hmem
    obtain ⟨raw, hraw, rfl⟩ := List.mem_map.mp hmem
    obtain ⟨hlisted, haux, hlt⟩ := hl raw hraw
    exact ⟨raw, hlisted, haux, hlt, rfl⟩
  have hinside : ∀ s ∈ l.map fun s ↦ (⟨e₀.recordAt (s.index + 1), Bytes.fill 8 0⟩ : Stamp),
      s.IsInside e.data.size := by
    intro s hmem
    obtain ⟨raw, hraw, rfl⟩ := List.mem_map.mp hmem
    have := hs.fits.recordAt_le (hl raw hraw).2.2
    unfold Stamp.IsInside
    rw [he.size]
    dsimp only
    omega
  refine he.of_differsIn_records hs c.gone (w := e₀.recordsWindow)
    (differsIn_stamped hinside fun s hmem i hi ↦ ?_) (fun _ hi ↦ hi) (fun other hother r hr ↦ ?_)
    he.plain
  · obtain ⟨raw, -, -, hlt, hwindow⟩ := hstamps s hmem
    rw [hwindow] at hi
    exact contains_records hlt ⟨hi.1, Nat.lt_of_lt_of_le hi.2 (Nat.add_le_add_left hpart _)⟩
  · rw [← he.records other hother r hr]
    refine record_congr (size_stamped hinside) (sameIn_stamped hinside fun s hmem ↦ ?_)
    obtain ⟨raw, hraw, haux, -, hwindow⟩ := hstamps s hmem
    rw [hwindow, he.recordAt_eq]
    refine isClear_record hpart ?_
    rcases apart_of_mem_symbols hs.listing hraw hother with rfl | hapart <;> omega

include hs he in
/-- The header of a section is dropped. -/
theorem dropHeader {at' : Nat} (hat : e₀.headerAt number = .ok at') :
    Rewritten e₀ listed { c with dropped := number :: c.dropped }
      (e.withData (e.data.stamped (headerStamps at'))) := by
  have hle := hs.fits.headerAt_le hat
  have hinside : ∀ s ∈ headerStamps at', s.IsInside e.data.size := fun s hs ↦
    he.size ▸ Nat.le_trans (le_of_mem_headerStamps hs).2 hle
  have hdiffers : DiffersIn e.data (e.data.stamped (headerStamps at')) ⟨at', sectionHeaderSize⟩ :=
    differsIn_stamped hinside fun s hs i hi ↦ by
      have := le_of_mem_headerStamps hs
      unfold Stamp.window Window.Contains at hi
      unfold Window.Contains
      dsimp only at *
      omega
  refine he.of_differsIn_headers hs (number :: c.dropped) hdiffers
    (fun _ hi ↦ contains_headers hat hi) (fun other h hh ↦ ?_) fun other hother ↦ ?_
  · have hread := he.headers other h hh
    by_cases hsame : other = number
    · subst hsame
      rw [if_pos (List.mem_cons_self ..)]
      obtain ⟨at'', hat'', hread⟩ := Outcome.bind_eq_ok_iff.mp hread
      rw [he.headerAt_eq] at hat''
      cases hat.symm.trans hat''
      have hstamped := SectionHeader.read?_stamped (Outcome.orFail_eq_ok_iff.mp hread)
      refine Outcome.bind_eq_ok_iff.mpr ⟨at', (he.headerAt_eq other).trans hat,
        Outcome.orFail_eq_ok_iff.mpr (hstamped.trans ?_)⟩
      split <;> rfl
    · simp only [List.mem_cons, hsame, false_or]
      rw [← hread]
      refine header_withData hdiffers fun at'' hat'' ↦ ?_
      rw [he.headerAt_eq] at hat''
      obtain ⟨hpos, -, rfl⟩ := headerAt_eq_ok_iff.mp hat
      obtain ⟨hpos', -, rfl⟩ := headerAt_eq_ok_iff.mp hat''
      refine .inr (.inr ?_)
      unfold sectionHeaderSize
      dsimp only
      omega
  · rcases List.mem_cons.mp hother with rfl | hother
    · obtain ⟨hpos, hle, -⟩ := headerAt_eq_ok_iff.mp hat
      exact hs.fits.exists_header hpos hle
    · exact he.present other hother

end Rewritten

/-- What a removal changes. -/
def Changes.remove (c : Changes) : Removal → Changes
  | .ofSymbol index => { c with gone := index :: c.gone }
  | .ofSection number => { c with dropped := number :: c.dropped }

section Removals

variable {c : Changes} (hs : e₀.Separation listed) (he : Rewritten e₀ listed c e)

/-- Symbols that carry definitions of a section are listed, with their definitions behind them. -/
theorem of_mem_definers {s : EditorSymbol} (h : s ∈ definers listed number) :
    s ∈ listed ∧ 0 < s.auxCount ∧ s.isSectionDefinition = true := by
  obtain ⟨hmem, hdefines⟩ := List.mem_filter.mp h
  have hdefines := (Bool.and_eq_true_iff.mp hdefines).1
  refine ⟨hmem, ?_, hdefines⟩
  simp only [EditorSymbol.isSectionDefinition, Bool.and_eq_true, decide_eq_true_eq] at hdefines
  exact hdefines.1.1.2

include hs he in
/-- A removal writes what it writes to the file as it was, whatever was edited before it. -/
theorem Removal.run_eq_ok_iff {removal : Removal} (hallowed : removal.IsAllowed listed) :
    removal.run.run e = (.ok (), e₁) ↔ removal.IsPossible e₀ listed ∧
      e₁ = e.withData (e.data.stamped (removal.stamps e₀ listed)) := by
  cases removal with
  | ofSymbol index =>
    obtain ⟨raw, hraw, rfl, -⟩ := hallowed
    obtain ⟨r, hr, -⟩ := record_of_mem_symbols hs.listing hraw
    have hstrategy : e.strategy = e₀.strategy := by rw [he.tables]
    have hrun : (removeSymbol raw.index).run e
        = (.ok (), e.withData (e.data.stamped
          [⟨e₀.recordAt raw.index, removedRecord e₀.strategy⟩])) := by
      unfold removeSymbol
      rw [run_bind, run_get]
      dsimp only
      rw [run_bind, run_lift, he.records raw hraw r hr, he.recordAt_eq, hstrategy]
      exact run_put ..
    unfold Removal.run IsPossible stamps
    rw [hrun]
    exact ⟨fun h ↦ ⟨trivial, (Prod.mk.inj h).2.symm⟩, fun ⟨_, h⟩ ↦ h ▸ rfl⟩
  | ofSection number =>
    unfold Removal.run IsPossible stamps
    dsimp only
    rw [run_removeSection_eq_ok_iff, stamped_append]
    have hdropped : ∀ {at'}, e₀.headerAt number = .ok at' → ∀ {symbols},
        (e.withData (e.data.stamped (headerStamps at'))).symbols = .ok symbols →
        definers symbols number = definers listed number := by
      intro at' hat symbols hsymbols
      have he' := he.dropHeader hs hat
      cases (he'.symbols_eq hs).symm.trans hsymbols
      exact filter_after _ he'.plain
    constructor
    · rintro ⟨at', hat, symbols, hsymbols, hrun⟩
      rw [he.headerAt_eq] at hat
      rw [hdropped hat hsymbols] at hrun
      obtain ⟨hall, rfl⟩ := run_clearDefinitions_eq_ok_iff.mp hrun
      obtain ⟨hpos, hle, rfl⟩ := headerAt_eq_ok_iff.mp hat
      have hcount : e.symbolCount = e₀.symbolCount := by rw [he.tables]
      exact ⟨⟨⟨hpos, hle⟩, fun s hs ↦ hcount ▸ hall s hs⟩, by simp only [← he.recordAt_eq]; rfl⟩
    · rintro ⟨⟨⟨hpos, hle⟩, hall⟩, rfl⟩
      have hat := headerAt_eq_ok_iff.mpr ⟨hpos, hle, rfl⟩
      have he' := he.dropHeader hs hat
      have hcount : e.symbolCount = e₀.symbolCount := by rw [he.tables]
      refine ⟨_, (he.headerAt_eq number).trans hat, _, he'.symbols_eq hs, ?_⟩
      rw [hdropped hat (he'.symbols_eq hs)]
      refine run_clearDefinitions_eq_ok_iff.mpr ⟨fun s hs ↦ hcount.symm ▸ hall s hs, ?_⟩
      simp only [← he.recordAt_eq]
      rfl

include hs he in
/-- What a removal leaves of a file. -/
theorem Rewritten.remove {removal : Removal} (hallowed : removal.IsAllowed listed)
    (hpossible : removal.IsPossible e₀ listed) : Rewritten e₀ listed (c.remove removal)
      (e.withData (e.data.stamped (removal.stamps e₀ listed))) := by
  cases removal with
  | ofSymbol index =>
    obtain ⟨raw, hraw, rfl, hplain⟩ := hallowed
    exact he.removeSymbol hs hraw hplain
  | ofSection number =>
    obtain ⟨⟨hpos, hle⟩, hall⟩ := hpossible
    have hdropped := he.dropHeader hs (headerAt_eq_ok_iff.mpr ⟨hpos, hle, rfl⟩)
    unfold Removal.stamps
    rw [stamped_append]
    exact hdropped.clearDefinitions hs fun s hmem ↦
      ⟨(of_mem_definers hmem).1, (of_mem_definers hmem).2.1, hall s hmem⟩

end Removals

/-! ### Removals in any order -/

/-- Everything that removals write where a record lies. -/
def recordStamp (e : Editor) (listed : List EditorSymbol) (index : Nat) : Stamp :=
  ⟨e.recordAt index, if index ∈ listed.map EditorSymbol.index then removedRecord e.strategy
    else Bytes.fill 8 0⟩

/-- Everything that removals write is part of a header or of a record, and settled by where it is. -/
theorem Removal.mem_stamps (hs : e₀.Separation listed) {removal : Removal}
    (hallowed : removal.IsAllowed listed) (hpossible : removal.IsPossible e₀ listed) {s : Stamp}
    (hmem : s ∈ removal.stamps e₀ listed) :
    (∃ number at', e₀.headerAt number = .ok at' ∧ s ∈ headerStamps at') ∨
      ∃ index < e₀.symbolCount, s = e₀.recordStamp listed index := by
  cases removal with
  | ofSymbol index =>
    obtain ⟨raw, hraw, rfl, -⟩ := hallowed
    refine .inr ⟨raw.index, index_lt_of_mem_symbols hs.listing hraw, ?_⟩
    rw [List.mem_singleton.mp hmem, recordStamp, if_pos (List.mem_map.mpr ⟨raw, hraw, rfl⟩)]
  | ofSection number =>
    obtain ⟨⟨hpos, hle⟩, hall⟩ := hpossible
    rcases List.mem_append.mp hmem with hmem | hmem
    · exact .inl ⟨number, _, headerAt_eq_ok_iff.mpr ⟨hpos, hle, rfl⟩, hmem⟩
    · obtain ⟨raw, hraw, rfl⟩ := List.mem_map.mp hmem
      obtain ⟨hlisted, haux, -⟩ := of_mem_definers hraw
      refine .inr ⟨raw.index + 1, hall raw hraw, ?_⟩
      rw [recordStamp, if_neg]
      rintro hindex
      obtain ⟨other, hother, heq⟩ := List.mem_map.mp hindex
      rcases apart_of_mem_symbols hs.listing hlisted hother with rfl | hapart <;> omega

theorem size_recordStamp (index : Nat) : (e₀.recordStamp listed index).bytes.size ≤ symbolSize := by
  unfold recordStamp
  dsimp only
  split
  · rw [size_removedRecord]
    decide
  · decide

theorem contains_recordStamp {index i : Nat} (hi : (e₀.recordStamp listed index).window.Contains i) :
    (Window.mk (e₀.recordAt index) symbolSize).Contains i :=
  ⟨hi.1, Nat.lt_of_lt_of_le hi.2 (Nat.add_le_add_left (size_recordStamp index) _)⟩

/-- Removals write nothing beyond the file. -/
theorem Removal.isInside_stamps (hs : e₀.Separation listed) {removal : Removal}
    (hallowed : removal.IsAllowed listed) (hpossible : removal.IsPossible e₀ listed) :
    ∀ s ∈ removal.stamps e₀ listed, s.IsInside e₀.data.size := by
  intro s hmem
  rcases mem_stamps hs hallowed hpossible hmem with ⟨number, at', hat, hheader⟩ | ⟨index, hlt, rfl⟩
  · exact Nat.le_trans (le_of_mem_headerStamps hheader).2 (hs.fits.headerAt_le hat)
  · exact Nat.le_trans (Nat.add_le_add_left (size_recordStamp index) _) (hs.fits.recordAt_le hlt)

/-- Removals want the same bytes wherever they write both. -/
theorem Removal.agrees_stamps (hs : e₀.Separation listed) {removal other : Removal}
    (hallowed : removal.IsAllowed listed) (hpossible : removal.IsPossible e₀ listed)
    (hallowed' : other.IsAllowed listed) (hpossible' : other.IsPossible e₀ listed) {s s' : Stamp}
    (hmem : s ∈ removal.stamps e₀ listed) (hmem' : s' ∈ other.stamps e₀ listed) : s.Agrees s' := by
  have hcross : ∀ {number at' index s}, e₀.headerAt number = .ok at' → s ∈ headerStamps at' →
      index < e₀.symbolCount → s.Agrees (e₀.recordStamp listed index) := by
    intro number at' index s hat hheader hlt
    refine ((hs.headers e₀.recordsWindow (by simp)).mono (fun i hi ↦ ?_) fun i hi ↦ ?_).agrees
    · have := le_of_mem_headerStamps hheader
      refine contains_headers hat ?_
      unfold Stamp.window Window.Contains at *
      dsimp only at *
      omega
    · exact contains_records hlt (contains_recordStamp hi)
  rcases mem_stamps hs hallowed hpossible hmem with ⟨number, at', hat, hheader⟩ | ⟨index, hlt, rfl⟩
  · rcases mem_stamps hs hallowed' hpossible' hmem' with
      ⟨number', at'', hat', hheader'⟩ | ⟨index', hlt', rfl⟩
    · obtain ⟨hpos, -, rfl⟩ := headerAt_eq_ok_iff.mp hat
      obtain ⟨hpos', -, rfl⟩ := headerAt_eq_ok_iff.mp hat'
      by_cases hsame : number = number'
      · subst hsame
        exact agrees_of_pairwise (pairwise_headerStamps _) hheader hheader'
      · have hle := le_of_mem_headerStamps hheader
        have hle' := le_of_mem_headerStamps hheader'
        refine Window.IsClear.agrees (.inr (.inr ?_))
        unfold Stamp.window
        unfold sectionHeaderSize at *
        dsimp only
        omega
    · exact hcross hat hheader hlt'
  · rcases mem_stamps hs hallowed' hpossible' hmem' with
      ⟨number', at'', hat', hheader'⟩ | ⟨index', hlt', rfl⟩
    · exact (hcross hat' hheader' hlt).symm
    · by_cases hsame : index = index'
      · exact hsame ▸ Stamp.agrees_refl _
      · have hclear : (e₀.recordStamp listed index).window.IsClear
            (e₀.recordStamp listed index').window :=
          (isClear_record (Nat.le_refl _) hsame).mono (fun _ ↦ contains_recordStamp)
            fun _ ↦ contains_recordStamp
        exact hclear.agrees

/-- Removals one after the other write what each of them writes to the file as it was. -/
theorem run_removals_eq_ok_iff (hs : e₀.Separation listed) {c : Changes}
    (he : Rewritten e₀ listed c e) {removals : List Removal}
    (hallowed : ∀ r ∈ removals, r.IsAllowed listed) :
    (removals.forM Removal.run).run e = (.ok (), e₁) ↔
      (∀ r ∈ removals, r.IsPossible e₀ listed) ∧
        e₁ = e.withData (e.data.stamped (removals.flatMap (Removal.stamps e₀ listed))) := by
  induction removals generalizing e c with
  | nil =>
    refine ⟨fun h ↦ ?_, fun ⟨_, h⟩ ↦ h ▸ rfl⟩
    cases h
    exact ⟨fun _ hr ↦ (by cases hr), rfl⟩
  | cons r removals ih =>
    obtain ⟨hfirst, hrest⟩ := List.forall_mem_cons.mp hallowed
    change (r.run >>= fun _ ↦ removals.forM Removal.run).run e = _ ↔ _
    rw [run_bind_eq_ok_iff, List.forall_mem_cons, List.flatMap_cons, stamped_append]
    constructor
    · rintro ⟨_, e', hrun, hrun'⟩
      obtain ⟨hpossible, rfl⟩ := (Removal.run_eq_ok_iff hs he hfirst).mp hrun
      obtain ⟨hall, rfl⟩ := (ih (he.remove hs hfirst hpossible) hrest).mp hrun'
      exact ⟨⟨hpossible, hall⟩, rfl⟩
    · rintro ⟨⟨hpossible, hall⟩, rfl⟩
      exact ⟨(), _, (Removal.run_eq_ok_iff hs he hfirst).mpr ⟨hpossible, rfl⟩,
        (ih (he.remove hs hfirst hpossible) hrest).mpr ⟨hall, rfl⟩⟩

/-- The same removals leave the same file in whatever order, and however often, they are made. -/
theorem run_removals_congr (hs : e₀.Separation listed) {c : Changes}
    (he : Rewritten e₀ listed c e) {removals removals' : List Removal}
    (hallowed : ∀ r ∈ removals, r.IsAllowed listed) (hsame : ∀ r, r ∈ removals ↔ r ∈ removals')
    (hrun : (removals.forM Removal.run).run e = (.ok (), e₁)) :
    (removals'.forM Removal.run).run e = (.ok (), e₁) := by
  obtain ⟨hpossible, rfl⟩ := (run_removals_eq_ok_iff hs he hallowed).mp hrun
  refine (run_removals_eq_ok_iff hs he fun r hr ↦ hallowed r ((hsame r).mpr hr)).mpr
    ⟨fun r hr ↦ hpossible r ((hsame r).mpr hr), ?_⟩
  rw [stamped_congr (fun s hmem ↦ ?_) (fun s hmem s' hmem' ↦ ?_) fun s ↦ ?_]
  · obtain ⟨r, hr, hmem⟩ := List.mem_flatMap.mp hmem
    exact he.size ▸ Removal.isInside_stamps hs (hallowed r hr) (hpossible r hr) s hmem
  · obtain ⟨r, hr, hmem⟩ := List.mem_flatMap.mp hmem
    obtain ⟨r', hr', hmem'⟩ := List.mem_flatMap.mp hmem'
    exact Removal.agrees_stamps hs (hallowed r hr) (hpossible r hr) (hallowed r' hr')
      (hpossible r' hr') hmem hmem'
  · simp only [List.mem_flatMap, hsame]

end LivePatch.Coff.Editor
