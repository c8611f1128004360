import LivePatch.Proofs.Coff.Parts
import LivePatch.Proofs.Objects.References

/-!
# Symbols of object files

The tables of an object file and its edits read the same symbol table, each in its own way. Every
symbol of the tables has a record among those that edits see, and the record says whether the symbol
is defined in the file; symbols seen by other files are neither local nor stand for a section.
-/

namespace LivePatch

namespace Coff

variable {data : Bytes} {strategy : RemovalStrategy} {f : File} {e : Editor}

/-- Symbols of a file are listed as their records say. -/
theorem File.record?_of_mem_symbolsFrom {fuel start index : Nat} {r : SymbolRecord}
    (h : (index, r) ∈ f.symbolsFrom fuel start) : f.record? index = some r := by
  induction fuel generalizing start with
  | zero => cases h
  | succ fuel ih =>
    unfold symbolsFrom at h
    cases hrecord : f.record? start with
    | none =>
      rw [hrecord] at h
      cases h
    | some first =>
      rw [hrecord] at h
      rcases List.mem_cons.mp h with heq | h
      · cases heq
        exact hrecord
      · exact ih h

/-- A file that is both read and edited: unless it claims to have no symbol table, both look at the
same records. -/
theorem File.symbols_eq_nil_or_same (hf : File.parse? data = some f)
    (he : Editor.parse data strategy = .ok e) :
    f.symbols = [] ∨ f.symbolCount = e.symbolCount ∧
      ∀ index r, f.record? index = some r ↔ e.record index = .ok r := by
  obtain ⟨header, hheader, hf⟩ := Option.bind_eq_some_iff.mp hf
  obtain ⟨sections, -, hf⟩ := Option.bind_eq_some_iff.mp hf
  obtain ⟨header', hheader', he⟩ := Outcome.bind_eq_ok_iff.mp he
  cases hheader.symm.trans (Outcome.orFail_eq_ok_iff.mp hheader')
  dsimp only at he
  split at he
  · cases he
  · split at he
    · cases he
    · cases he
      split at hf
      · cases hf
        exact .inl rfl
      · obtain ⟨length, -, hf⟩ := Option.bind_eq_some_iff.mp hf
        cases hf
        refine .inr ⟨rfl, fun index r ↦ ?_⟩
        unfold File.record? Editor.record
        dsimp only
        split
        · next hlt =>
          rw [if_neg (Nat.not_le.mpr hlt)]
          exact Outcome.orFail_eq_ok_iff.symm
        · next hle =>
          rw [if_pos (Nat.not_lt.mp hle)]
          exact ⟨fun h ↦ (by cases h), fun h ↦ (by cases h)⟩

/-- Every record that tables are read from is among the symbols that edits see. -/
theorem File.exists_of_mem_symbolsFrom (hcount : f.symbolCount = e.symbolCount)
    (hsame : ∀ index r, f.record? index = some r ↔ e.record index = .ok r) {fuel start : Nat}
    {listed : List EditorSymbol} (hlisted : e.symbolsFrom fuel start = .ok listed) {index : Nat}
    {r : SymbolRecord} (h : (index, r) ∈ f.symbolsFrom fuel start) :
    e.symbolOf index r ∈ listed := by
  induction fuel generalizing start listed with
  | zero => cases h
  | succ fuel ih =>
    unfold symbolsFrom at h
    unfold Editor.symbolsFrom at hlisted
    cases hrecord : f.record? start with
    | none =>
      rw [hrecord] at h
      cases h
    | some first =>
      rw [hrecord] at h
      have hlt : start < f.symbolCount := by
        unfold File.record? at hrecord
        split at hrecord
        · assumption
        · cases hrecord
      rw [if_neg (by omega)] at hlisted
      obtain ⟨first', hfirst, hlisted⟩ := Outcome.bind_eq_ok_iff.mp hlisted
      cases ((hsame start first).mp hrecord).symm.trans hfirst
      obtain ⟨rest, hrest, hlisted⟩ := Outcome.bind_eq_ok_iff.mp hlisted
      cases hlisted
      rcases List.mem_cons.mp h with heq | h
      · cases heq
        exact List.mem_cons_self ..
      · exact List.mem_cons_of_mem _ (ih hrest h)

/-- What is defined elsewhere has the section number zero. -/
theorem SymbolRecord.place_eq_outside {r : SymbolRecord} (h : r.place = .outside) :
    r.sectionIndex = 0 ∧ (r.storageClass = classExternal ∨ r.storageClass = classSection) := by
  unfold place at h
  split at h
  · next hzero =>
    refine ⟨hzero, ?_⟩
    by_contra hclass
    rw [if_neg hclass] at h
    cases h
  · split at h <;> cases h

/-- What lies in a section has the section's number. -/
theorem SymbolRecord.place_eq_inSection {r : SymbolRecord} {number : Nat}
    (h : r.place = .inSection number) : r.sectionIndex = number ∧ 0 < number := by
  unfold place at h
  split at h
  · split at h <;> cases h
  · split at h
    · cases h
      omega
    · cases h

/-- Edits see the section numbers that the tables were read with, unless these are very large. -/
theorem SymbolRecord.sectionNumber_symbolOf (e : Editor) (index : Nat) {r : SymbolRecord}
    (h0 : 0 ≤ r.sectionIndex) (hlt : r.sectionIndex < 0x8000) :
    (e.symbolOf index r).sectionNumber = r.sectionIndex := by
  have := r.sectionNumber.toNat_lt
  unfold sectionIndex at *
  unfold Editor.symbolOf
  dsimp only
  split <;> omega

end Coff

namespace ObjectTable

open Coff

variable {path path' : Path} {data : Bytes} {strategy : RemovalStrategy} {t t' : ObjectTable}

/-- What a record says of the symbol that it puts into the tables. -/
structure Tells (r : SymbolRecord) (s : ObjectSymbol) : Prop where
  place : s.isUndefined = true ∧ r.place = .outside ∨
    s.isUndefined = false ∧ ∃ number, r.place = .inSection number ∧ s.place = some number
  isGlobal : s.isExternal = true → r.isGlobal = true

/-- What a record puts into the tables as a symbol. It stands for no section, and the symbol is where
the record places it. -/
theorem eq_of_entry {f : File} {unique : UInt32} {index : Nat} {r : SymbolRecord}
    {s : ObjectSymbol} (h : entry? f unique index r = .ok (some (.symbol s))) :
    r.kind ≠ .section ∧ ∃ name place offset,
      (r.place = .outside ∧ place = none ∨
        ∃ number, r.place = .inSection number ∧ place = some number) ∧
      s = ⟨index, name, place, offset, r.kind == .function,
        r.isGlobal || (r.isUndefined || place.isNone), r.isUndefined || place.isNone, r.isWeak,
        []⟩ := by
  obtain ⟨raw, -, h⟩ := Outcome.bind_eq_ok_iff.mp h
  cases hplace : r.place with
  | nowhere =>
    simp only [hplace] at h
    cases h
  | outside =>
    simp only [hplace] at h
    split at h
    · cases h
    · cases h
    · cases h
    · next hkind _ _ =>
      obtain ⟨offset, -, h⟩ := Outcome.bind_eq_ok_iff.mp h
      cases h
      exact ⟨hkind, _, none, offset, .inl ⟨rfl, rfl⟩, rfl⟩
  | inSection number =>
    simp only [hplace] at h
    split at h
    · cases h
    · cases h
    · cases h
    · next hkind _ _ =>
      obtain ⟨offset, -, h⟩ := Outcome.bind_eq_ok_iff.mp h
      cases h
      exact ⟨hkind, _, some number, offset, .inr ⟨number, rfl, rfl⟩, rfl⟩

/-- A symbol of the tables is what its record says. -/
theorem tells_of_entry {f : File} {unique : UInt32} {index : Nat} {r : SymbolRecord}
    {s : ObjectSymbol} (h : entry? f unique index r = .ok (some (.symbol s))) :
    s.index = index ∧ Tells r s := by
  obtain ⟨hkind, name, place, offset, ⟨hplace, rfl⟩ | ⟨number, hplace, rfl⟩, rfl⟩ := eq_of_entry h
  · refine ⟨rfl, .inl ⟨by simp, hplace⟩, fun _ ↦ ?_⟩
    -- A symbol that stands for a section has no place in the tables.
    rcases (SymbolRecord.place_eq_outside hplace).2 with hclass | hclass
    · simp [SymbolRecord.isGlobal, hclass]
    · exact (hkind (by rw [SymbolRecord.kind, hclass]; rfl)).elim
  · obtain ⟨hindex, hpos⟩ := SymbolRecord.place_eq_inSection hplace
    have hdefined : r.isUndefined = false := by
      have hne : r.sectionIndex ≠ 0 := by omega
      simp [SymbolRecord.isUndefined, hne]
    refine ⟨rfl, .inr ⟨by simp [hdefined], number, hplace, rfl⟩, fun hexternal ↦ ?_⟩
    simpa [hdefined] using hexternal

/-- The symbols of an object file are those that its records put into the tables. -/
theorem Parts.mem_symbols_iff {p : Parts} (h : Parts.read path data = .ok p) {s : ObjectSymbol} :
    s ∈ p.symbols ↔ ∃ index r, (index, r) ∈ p.file.symbols ∧
      entry? p.file (Fingerprint.ofPath path) index r = .ok (some (.symbol s)) := by
  obtain ⟨f, -, h⟩ := Outcome.bind_eq_ok_iff.mp h
  obtain ⟨entries, hentries, h⟩ := Outcome.bind_eq_ok_iff.mp h
  obtain ⟨yields, -, h⟩ := Outcome.bind_eq_ok_iff.mp h
  cases h
  have hmem : ∀ entry, entry ∈ entries.filterMap id ↔ ∃ index r, (index, r) ∈ f.symbols ∧
      entry? f (Fingerprint.ofPath path) index r = .ok (some entry) := by
    intro entry
    rw [List.mem_filterMap]
    simp only [id, exists_eq_right, Outcome.mem_mapM_iff hentries, Prod.exists]
  rw [List.mem_filterMap]
  constructor
  · rintro ⟨entry, hentry, hs⟩
    split at hs
    · cases hs
      exact (hmem _).mp hentry
    · cases hs
  · exact fun hrecord ↦ ⟨_, (hmem _).mpr hrecord, rfl⟩

/-- Records that lie in no section are the same symbols in all units. -/
theorem entry_of_outside (f : Coff.File) (unique unique' : UInt32) (index : Nat)
    {r : Coff.SymbolRecord} (hplace : r.place = .outside) :
    entry? f unique index r = entry? f unique' index r := by
  simp [ entry?, hplace]

/-- What an object file refers to only, and its directives, do not depend on its path. -/
theorem references_congr (ht : parse path data = .ok t) (ht' : parse path' data = .ok t') :
    (∀ s ∈ t.undefined, ∃ s' ∈ t'.undefined, s'.name = s.name) ∧ t.directives ⊆ t'.directives := by
  rw [Parts.parse_eq] at ht ht'
  obtain ⟨p, hp, ht⟩ := Outcome.bind_eq_ok_iff.mp ht
  obtain ⟨p', hp', ht'⟩ := Outcome.bind_eq_ok_iff.mp ht'
  cases ht
  cases ht'
  have hfile := Parts.file_eq hp hp'
  refine ⟨fun s hs ↦ ?_, fun directive hmem ↦ ?_⟩
  · obtain ⟨hs, hundefined⟩ := List.mem_filter.mp hs
    obtain ⟨bare, hbare, rfl⟩ := List.mem_map.mp hs
    obtain ⟨index, r, hmem, hentry⟩ := (Parts.mem_symbols_iff hp).mp hbare
    have houtside : r.place = .outside := by
      rcases (tells_of_entry hentry).2.place with ⟨-, h⟩ | ⟨h, -⟩
      · exact h
      · cases h.symm.trans hundefined
    have hbare' : bare ∈ p'.symbols := by
      rw [hfile] at hmem hentry
      rw [entry_of_outside _ _ (Fingerprint.ofPath path') _ houtside] at hentry
      exact (Parts.mem_symbols_iff hp').mpr ⟨index, r, hmem, hentry⟩
    exact ⟨_, List.mem_filter.mpr ⟨List.mem_map.mpr ⟨bare, hbare', rfl⟩, hundefined⟩, rfl⟩
  · rw [Parts.mem_directives_iff hp, hfile] at hmem
    exact (Parts.mem_directives_iff hp').mpr hmem

variable {e : Editor} {listed : List EditorSymbol} {s : ObjectSymbol}

/-- Where a symbol of the tables comes from: its record, which edits see too. -/
theorem Parts.exists_entry {p : Parts} (hp : Parts.read path data = .ok p)
    (he : Editor.parse data strategy = .ok e) (hlisted : e.symbols = .ok listed)
    (hs : s ∈ (p.table path).symbols) :
    ∃ r bare, e.record s.index = .ok r ∧ e.symbolOf s.index r ∈ listed ∧
      entry? p.file (Fingerprint.ofPath path) s.index r = .ok (some (.symbol bare)) ∧
      withReferences [bare] p.references = [s] := by
  obtain ⟨bare, hbare, rfl⟩ := List.mem_map.mp hs
  obtain ⟨index, r, hmem, hentry⟩ := (Parts.mem_symbols_iff hp).mp hbare
  obtain rfl : bare.index = index := (tells_of_entry hentry).1
  obtain ⟨f, hf, hp⟩ := Outcome.bind_eq_ok_iff.mp hp
  obtain ⟨entries, -, hp⟩ := Outcome.bind_eq_ok_iff.mp hp
  obtain ⟨yields, -, hp⟩ := Outcome.bind_eq_ok_iff.mp hp
  cases hp
  rcases File.symbols_eq_nil_or_same (Outcome.orFail_eq_ok_iff.mp hf) he with hnil | ⟨hcount, hsame⟩
  · rw [hnil] at hmem
    cases hmem
  · refine ⟨r, bare, (hsame _ r).mp (File.record?_of_mem_symbolsFrom hmem), ?_, hentry, rfl⟩
    unfold Editor.symbols at hlisted
    rw [← hcount] at hlisted
    exact File.exists_of_mem_symbolsFrom hcount hsame hlisted hmem

/-- What the record of a symbol seen by other files says of it. -/
theorem agrees_of_symbolAt? (ht : parse path data = .ok t)
    (he : Editor.parse data strategy = .ok e) (hlisted : e.symbols = .ok listed)
    {raw : EditorSymbol} (hraw : raw ∈ listed) (hs : Stripping.symbolAt? t raw = some s)
    (hexternal : s.isExternal = true)
    (hnear : ∀ number, s.place = some number → number < 0x8000) :
    (raw.storageClass = classExternal ∨ raw.storageClass = classWeak) ∧
      (s.isUndefined = true ∧ raw.sectionNumber = 0 ∨
        s.isUndefined = false ∧ 0 < raw.sectionNumber) := by
  rw [Parts.parse_eq] at ht
  obtain ⟨p, hp, ht⟩ := Outcome.bind_eq_ok_iff.mp ht
  cases ht
  obtain ⟨r, bare, hr, -, hentry, hrefs⟩ :=
    Parts.exists_entry hp he hlisted (List.mem_of_find?_eq_some hs)
  have hindex : s.index = raw.index := by simpa using List.find?_some hs
  obtain ⟨-, r', hr', hsymbol⟩ := Editor.record_of_mem_symbolsFrom hlisted hraw
  rw [hindex] at hr
  cases hr.symm.trans hr'
  obtain ⟨-, hplace, hglobal⟩ := tells_of_entry hentry
  cases hrefs
  rw [hsymbol]
  have hclass : r.storageClass = classExternal ∨ r.storageClass = classWeak := by
    simpa [SymbolRecord.isGlobal] using hglobal hexternal
  refine ⟨hclass, ?_⟩
  rcases hplace with ⟨hundefined, hplace⟩ | ⟨hdefined, number, hplace, hnumber⟩
  · obtain ⟨hzero, -⟩ := SymbolRecord.place_eq_outside hplace
    refine .inl ⟨hundefined, ?_⟩
    rw [SymbolRecord.sectionNumber_symbolOf e _ (by omega) (by omega), hzero]
  · obtain ⟨hequal, hpos⟩ := SymbolRecord.place_eq_inSection hplace
    have := hnear number hnumber
    refine .inr ⟨hdefined, ?_⟩
    rw [SymbolRecord.sectionNumber_symbolOf e _ (by omega) (by omega), hequal]
    omega

end ObjectTable
end LivePatch
