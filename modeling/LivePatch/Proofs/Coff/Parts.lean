import LivePatch.Coff.Editor
import LivePatch.Proofs.Coff.Records
import LivePatch.Proofs.Outcome
import Mathlib.Data.List.Pairwise

/-!
# Parts of object files

Where the tables, the relocations and the directives of an object file lie. A file whose parts share
no byte can be edited in one of them without an effect on the others. Symbols are read from records
that lie apart.
-/

namespace LivePatch.Coff.Editor

open Bytes

/-- The header of the file and those of its sections. -/
def headerWindow (e : Editor) : Window := ⟨0, e.sectionsAt + e.sectionCount * sectionHeaderSize⟩

/-- Where names lie that do not fit their records. -/
def namesWindow (e : Editor) : Window := ⟨e.stringsAt, e.data.size - e.stringsAt⟩

/-- The symbol table and the names behind it. -/
def tableWindow (e : Editor) : Window := ⟨e.symbolsAt, e.data.size - e.symbolsAt⟩

/-- The relocations of a section, with the record in front of them that may hold their count. -/
def relocationWindow (e : Editor) (number : Nat) : Outcome Window := do
  let h ← e.header number
  let (offset, count) ← e.relocationTable number
  pure ⟨h.relocationPointer, offset + count * relocationSize - h.relocationPointer⟩

/-- The directives in a section, if it holds any. -/
def directiveWindow (e : Editor) (number : Nat) : Outcome (List Window) := do
  let h ← e.header number
  pure (if e.sectionName h = ".drectve" then [⟨h.rawPointer, h.rawSize⟩] else [])

/-- The parts of a file that edits look at or change. -/
def windows (e : Editor) : Outcome (List Window) := do
  let numbers := (List.range e.sectionCount).map (· + 1)
  let relocations ← numbers.mapM e.relocationWindow
  let directives ← numbers.mapM e.directiveWindow
  pure (e.tableWindow :: e.headerWindow :: (relocations ++ directives.flatten))

/-- The parts of a file that edits look at or change are there and share no byte. -/
def IsLaidOut (e : Editor) : Prop :=
  ∃ parts, e.windows = .ok parts ∧ parts.Pairwise Window.IsClear

/-- The tables of a file lie inside. -/
structure Fits (e : Editor) : Prop where
  header : headerSize ≤ e.sectionsAt
  headers : e.sectionsAt + e.sectionCount * sectionHeaderSize ≤ e.data.size
  symbols : e.stringsAt = e.symbolsAt + e.symbolCount * symbolSize
  strings : e.stringsAt ≤ e.data.size

/-- Clearances between the parts of a file. -/
structure Clearances (e : Editor) : Prop where
  header : e.tableWindow.IsClear e.headerWindow
  isRelocated : ∀ number h, e.header number = .ok h → ∃ w, e.relocationWindow number = .ok w
  relocation : ∀ number w, e.relocationWindow number = .ok w →
    w.IsClear e.tableWindow ∧ w.IsClear e.headerWindow
  relocations : ∀ number w other w', e.relocationWindow number = .ok w →
    e.relocationWindow other = .ok w' → number ≠ other → w.IsClear w'
  directive : ∀ number h, e.header number = .ok h → e.sectionName h = ".drectve" →
    (Window.mk h.rawPointer h.rawSize).IsClear e.tableWindow ∧
      (Window.mk h.rawPointer h.rawSize).IsClear e.headerWindow ∧
      ∀ other w, e.relocationWindow other = .ok w →
        (Window.mk h.rawPointer h.rawSize).IsClear w

variable {e e₀ : Editor} {number : Nat} {h : SectionHeader}

/-- Files that are being edited have their tables inside. -/
theorem fits_of_parse {data : Bytes} {strategy : RemovalStrategy}
    (h : parse data strategy = .ok e) : e.Fits := by
  obtain ⟨header, -, h⟩ := Outcome.bind_eq_ok_iff.mp h
  dsimp only at h
  split at h
  · cases h
  · split at h
    · cases h
    · next hinside =>
      cases h
      exact ⟨by dsimp only; omega, by dsimp only; omega, rfl, by dsimp only; omega⟩

/-- A file is edited as it is, with the strategy that it is edited with. -/
theorem data_of_parse {data : Bytes} {strategy : RemovalStrategy} (h : parse data strategy = .ok e) :
    e.data = data ∧ e.strategy = strategy := by
  obtain ⟨header, -, h⟩ := Outcome.bind_eq_ok_iff.mp h
  dsimp only at h
  split at h
  · cases h
  · split at h
    · cases h
    · cases h
      exact ⟨rfl, rfl⟩

/-- Where the tables of a file lie. -/
def tables (e : Editor) : List Nat :=
  [e.sectionsAt, e.sectionCount, e.symbolsAt, e.symbolCount, e.stringsAt]

/-- A file is edited as it is; only where its tables lie has to be found out. -/
theorem parse_eq_ok {data : Bytes} {strategy : RemovalStrategy}
    {sectionsAt sectionCount symbolsAt symbolCount stringsAt : Nat}
    (h : (parse data strategy).map tables
      = .ok [sectionsAt, sectionCount, symbolsAt, symbolCount, stringsAt]) :
    parse data strategy
      = .ok ⟨data, strategy, sectionsAt, sectionCount, symbolsAt, symbolCount, stringsAt⟩ := by
  cases hparse : parse data strategy with
  | error _ =>
    rw [hparse] at h
    cases h
  | ok e =>
    rw [hparse] at h
    obtain ⟨header, -, hparse⟩ := Outcome.bind_eq_ok_iff.mp hparse
    dsimp only at hparse
    split at hparse
    · cases hparse
    · split at hparse
      · cases hparse
      · cases hparse
        cases h
        rfl

/-- Sections that have a header have a number. -/
theorem range_of_header (hh : e.header number = .ok h) :
    0 < number ∧ number ≤ e.sectionCount := by
  obtain ⟨offset, hoffset, -⟩ := Outcome.bind_eq_ok_iff.mp hh
  unfold headerAt at hoffset
  split at hoffset
  · cases hoffset
  · omega

theorem mem_numbers_iff {count : Nat} :
    number ∈ (List.range count).map (· + 1) ↔ 0 < number ∧ number ≤ count := by
  simp only [List.mem_map, List.mem_range]
  constructor
  · rintro ⟨i, hi, rfl⟩
    omega
  · exact fun hrange ↦ ⟨number - 1, by omega, by omega⟩

theorem header_of_relocationWindow {w : Window} (hw : e.relocationWindow number = .ok w) :
    ∃ h, e.header number = .ok h := by
  obtain ⟨h, hh, -⟩ := Outcome.bind_eq_ok_iff.mp hw
  exact ⟨h, hh⟩

/-- The parts of a file that is laid out well keep clear of each other. -/
theorem IsLaidOut.clearances (hlaid : e.IsLaidOut) : e.Clearances := by
  obtain ⟨parts, hparts, hapart⟩ := hlaid
  obtain ⟨relocations, hrelocations, hparts⟩ := Outcome.bind_eq_ok_iff.mp hparts
  obtain ⟨directives, hdirectives, hparts⟩ := Outcome.bind_eq_ok_iff.mp hparts
  cases hparts
  obtain ⟨htable, hapart⟩ := List.pairwise_cons.mp hapart
  obtain ⟨hheaders, hapart⟩ := List.pairwise_cons.mp hapart
  obtain ⟨hpairs, -, hcross⟩ := List.pairwise_append.mp hapart
  have hmem : ∀ number w, e.relocationWindow number = .ok w → w ∈ relocations := by
    intro number w hw
    obtain ⟨h, hh⟩ := header_of_relocationWindow hw
    exact (Outcome.mem_mapM_iff hrelocations).mpr
      ⟨number, mem_numbers_iff.mpr (range_of_header hh), hw⟩
  have hdirective : ∀ number h, e.header number = .ok h → e.sectionName h = ".drectve" →
      Window.mk h.rawPointer h.rawSize ∈ directives.flatten := by
    intro number h hh hname
    refine (Outcome.mem_flatten_mapM_iff hdirectives).mpr
      ⟨number, mem_numbers_iff.mpr (range_of_header hh), [⟨h.rawPointer, h.rawSize⟩], ?_,
        List.mem_singleton_self _⟩
    unfold directiveWindow
    rw [hh]
    change (pure _ : Outcome (List Window)) = _
    rw [if_pos hname]
    rfl
  refine ⟨htable _ (List.mem_cons_self ..), fun number h hh ↦ ?_, fun number w hw ↦ ⟨?_, ?_⟩,
    fun number w other w' hw hw' hne ↦ ?_, fun number h hh hname ↦ ⟨?_, ?_, ?_⟩⟩
  · obtain ⟨w, -, hw⟩ := Pointwise.exists_right (Outcome.forall₂_of_mapM hrelocations)
      (mem_numbers_iff.mpr (range_of_header hh))
    exact ⟨w, hw⟩
  · exact (htable w (List.mem_cons_of_mem _ (List.mem_append_left _ (hmem number w hw)))).symm
  · exact (hheaders w (List.mem_append_left _ (hmem number w hw))).symm
  · obtain ⟨h, hh⟩ := header_of_relocationWindow hw
    obtain ⟨h', hh'⟩ := header_of_relocationWindow hw'
    refine Pointwise.rel_of_pairwise (Outcome.forall₂_of_mapM hrelocations) hpairs
      (fun _ _ h ↦ h.symm) ?_ (mem_numbers_iff.mpr (range_of_header hh))
      (mem_numbers_iff.mpr (range_of_header hh')) hne hw hw'
    rintro a b b' hb hb'
    exact Except.ok.inj (hb.symm.trans hb')
  · exact (htable _ (List.mem_cons_of_mem _
      (List.mem_append_right _ (hdirective number h hh hname)))).symm
  · exact (hheaders _ (List.mem_append_right _ (hdirective number h hh hname))).symm
  · exact fun other w hw ↦
      (hcross w (hmem other w hw) _ (hdirective number h hh hname)).symm

/-- Symbols are listed as their records say. -/
theorem record_of_mem_symbolsFrom {fuel index : Nat} {listed : List EditorSymbol}
    (hlisted : e.symbolsFrom fuel index = .ok listed) {raw : EditorSymbol} (hraw : raw ∈ listed) :
    index ≤ raw.index ∧ ∃ r, e.record raw.index = .ok r ∧ raw = e.symbolOf raw.index r := by
  induction fuel generalizing index listed with
  | zero =>
    cases hlisted
    cases hraw
  | succ fuel ih =>
    unfold symbolsFrom at hlisted
    split at hlisted
    · cases hlisted
      cases hraw
    · obtain ⟨r, hr, hlisted⟩ := Outcome.bind_eq_ok_iff.mp hlisted
      obtain ⟨rest, hrest, hlisted⟩ := Outcome.bind_eq_ok_iff.mp hlisted
      cases hlisted
      rcases List.mem_cons.mp hraw with rfl | hraw
      · exact ⟨Nat.le_refl _, r, hr, rfl⟩
      · obtain ⟨hle, hrecord⟩ := ih hrest hraw
        exact ⟨by omega, hrecord⟩

/-- Records of symbols lie apart, and auxiliary records between them. -/
theorem pairwise_symbolsFrom {fuel index : Nat} {listed : List EditorSymbol}
    (hlisted : e.symbolsFrom fuel index = .ok listed) :
    listed.Pairwise fun a b ↦ a.index + a.auxCount < b.index := by
  induction fuel generalizing index listed with
  | zero =>
    cases hlisted
    exact .nil
  | succ fuel ih =>
    unfold symbolsFrom at hlisted
    split at hlisted
    · cases hlisted
      exact .nil
    · obtain ⟨r, hr, hlisted⟩ := Outcome.bind_eq_ok_iff.mp hlisted
      obtain ⟨rest, hrest, hlisted⟩ := Outcome.bind_eq_ok_iff.mp hlisted
      cases hlisted
      refine .cons (fun raw hraw ↦ ?_) (ih hrest)
      have := (record_of_mem_symbolsFrom hrest hraw).1
      dsimp only [symbolOf]
      omega

section Listing

variable {listed : List EditorSymbol} {raw other : EditorSymbol} (hlisted : e.symbols = .ok listed)

include hlisted in
theorem record_of_mem_symbols (hraw : raw ∈ listed) :
    ∃ r, e.record raw.index = .ok r ∧ raw = e.symbolOf raw.index r :=
  (record_of_mem_symbolsFrom hlisted hraw).2

include hlisted in
/-- A record is one of the symbol table. -/
theorem index_lt_of_mem_symbols (hraw : raw ∈ listed) : raw.index < e.symbolCount := by
  obtain ⟨r, hr, -⟩ := record_of_mem_symbols hlisted hraw
  unfold record at hr
  split at hr
  · cases hr
  · omega

include hlisted in
/-- Records of different symbols lie apart, and auxiliary records between them. -/
theorem apart_of_mem_symbols (hraw : raw ∈ listed) (hother : other ∈ listed) :
    raw = other ∨ raw.index + raw.auxCount < other.index ∨
      other.index + other.auxCount < raw.index := by
  by_cases heq : raw = other
  · exact .inl heq
  · have hpairs := (pairwise_symbolsFrom hlisted).imp
      (fun h ↦ .inl h : ∀ {a b : EditorSymbol}, a.index + a.auxCount < b.index →
        a.index + a.auxCount < b.index ∨ b.index + b.auxCount < a.index)
    have hsymm : Std.Symm fun a b : EditorSymbol ↦
        a.index + a.auxCount < b.index ∨ b.index + b.auxCount < a.index := ⟨fun _ _ h ↦ h.symm⟩
    exact .inr (hpairs.forall hraw hother heq)

end Listing

/-- A file that is laid out well, and its symbols. -/
structure Outline (e : Editor) (listed : List EditorSymbol) : Prop where
  fits : e.Fits
  clearances : e.Clearances
  listing : e.symbols = .ok listed

namespace Outline

variable {listed : List EditorSymbol} {raw other : EditorSymbol}

theorem record (ho : Outline e listed) (hraw : raw ∈ listed) :
    ∃ r, e.record raw.index = .ok r ∧ raw = e.symbolOf raw.index r :=
  record_of_mem_symbols ho.listing hraw

/-- A record is one of the symbol table. -/
theorem index_lt (ho : Outline e listed) (hraw : raw ∈ listed) : raw.index < e.symbolCount :=
  index_lt_of_mem_symbols ho.listing hraw

/-- Records of different symbols lie apart, and auxiliary records between them. -/
theorem apart (ho : Outline e listed) (hraw : raw ∈ listed) (hother : other ∈ listed) :
    raw = other ∨ raw.index + raw.auxCount < other.index ∨
      other.index + other.auxCount < raw.index :=
  apart_of_mem_symbols ho.listing hraw hother

/-- Symbols are told apart by their indices. -/
theorem eq_of_index (ho : Outline e listed) (hraw : raw ∈ listed) (hother : other ∈ listed)
    (h : raw.index = other.index) : raw = other := by
  rcases ho.apart hraw hother with heq | hlt
  · exact heq
  · omega

end Outline

end LivePatch.Coff.Editor
