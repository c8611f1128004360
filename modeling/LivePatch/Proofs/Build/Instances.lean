import LivePatch.Proofs.Build.Names
import LivePatch.Proofs.Objects.Symbols

/-!
# Instances of stripped names

A name that is stripped from one of several files is to be stripped from all, so that the patch uses
one instance of it. References are: whatever a file's own check says, none is left once the name was
stripped anywhere. A file that defines the name as data is asked itself, though: its definition
stays where its own check does not allow it to go.
-/

namespace LivePatch

namespace Stripping

open Coff

variable {registry : Registry} {recompiled : PathSet} {owners : SymbolOwners} {t : ObjectTable}

/-- A name that other files see is alive in a file: there is a reference to it, or a definition. -/
def Has (s : Stripping) (name : String) (undefined : Bool) : Prop :=
  ∃ symbols, s.editor.symbols = .ok symbols ∧
    ∃ raw ∈ symbols, raw.isRemoved = false ∧ StandsFor s.table name undefined raw

/-- Stripping a file took a reference to a name or a definition from it. -/
def Loses (name : String) (s s' : Stripping) : Prop :=
  ∃ symbols symbols', s.editor.symbols = .ok symbols ∧ s'.editor.symbols = .ok symbols' ∧
    ∃ undefined, ∃ raw ∈ symbols, StandsFor s.table name undefined raw ∧
      ∃ raw' ∈ symbols', raw'.index = raw.index ∧ raw'.isRemoved = true

/-- A file as compilers write them: its tables were read from it, its parts share no byte, it has
fewer sections than a signed number counts, and it refers to every name by one record. -/
structure IsRegular (s : Stripping) : Prop where
  table : ObjectTable.parse s.path s.editor.data = .ok s.table
  parts : s.editor.IsLaidOut
  near : ∀ symbol ∈ s.table.symbols, ∀ number, symbol.place = some number → number < 0x8000
  once : (s.table.undefined.map ObjectSymbol.name).Nodup

section Files

variable {listed : List EditorSymbol} {everywhere : List String} {gone₁ gone : List Nat}
  {removed₁ : List String} {name : String} {undefined : Bool} {raw : EditorSymbol}
  {s s' : Stripping}

/-- What stripping did to a file: the records that went by themselves, those that went since their
names were stripped elsewhere, and those that went along with sections. -/
structure Course (registry : Registry) (recompiled : PathSet) (owners : SymbolOwners)
    (everywhere : List String) (listed : List EditorSymbol) (gone₁ : List Nat)
    (removed₁ : List String) (gone : List Nat) (s s' : Stripping) : Prop where
  outline : Editor.Outline s.editor listed
  agrees : Agrees s.table listed
  first : ∀ raw ∈ listed,
    raw.index ∈ gone₁ ↔ verdict registry recompiled owners s.table raw ≠ .stays
  named : ∀ name, name ∈ removed₁ ↔
    ∃ raw ∈ listed, (verdict registry recompiled owners s.table raw).name? = some name
  table : s'.table = s.table
  symbols : s'.editor.symbols = .ok (listed.map (EditorSymbol.after s.editor.strategy gone))
  kept : ∀ index ∈ gone₁, index ∈ gone
  cause : ∀ raw ∈ listed, raw.index ∈ gone → raw.index ∈ gone₁ ∨
    (raw.sectionNumber = 0 ∧ ∃ symbol, symbolAt? s.table raw = some symbol ∧
      symbol.name ∈ everywhere) ∨
    (0 < raw.sectionNumber ∧ canLeave registry s.table raw (nameOf s.table raw) = true)
  reached : ∀ raw ∈ listed, raw.sectionNumber = 0 → raw.isRemoved = false → ∀ symbol,
    symbolAt? s.table raw = some symbol → symbol.isUndefined = true → symbol.name ∈ everywhere →
      symbol.name ∉ removed₁ → raw.index ∈ gone

/-- Symbols that other files see are neither local nor removed. -/
theorem Agrees.class (h : Agrees t listed) (hraw : raw ∈ listed)
    (hs : StandsFor t name undefined raw) :
    raw.storageClass ≠ classStatic ∧ raw.storageClass ≠ classLabel ∧ raw.isRemoved = false := by
  unfold EditorSymbol.isRemoved
  rcases (h raw hraw name undefined hs).1 with hclass | hclass <;> rw [hclass] <;>
    exact ⟨by decide, by decide, Bool.and_false _⟩

namespace Course

variable (h : Course registry recompiled owners everywhere listed gone₁ removed₁ gone s s')

include h in
/-- A record is alive in the file that was stripped if and only if it was not taken away. -/
theorem has_iff : s'.Has name undefined ↔
    ∃ raw ∈ listed, StandsFor s.table name undefined raw ∧ raw.index ∉ gone := by
  constructor
  · rintro ⟨symbols, hsymbols, raw', hraw', halive, hs⟩
    cases h.symbols.symm.trans hsymbols
    obtain ⟨raw, hraw, rfl⟩ := List.mem_map.mp hraw'
    obtain ⟨hkept, hself⟩ := EditorSymbol.after_eq_self halive
    rw [hself, h.table] at hs
    exact ⟨raw, hraw, hs, hkept⟩
  · rintro ⟨raw, hraw, hs, hkept⟩
    have hself : raw.after s.editor.strategy gone = raw := if_neg hkept
    refine ⟨_, h.symbols, raw, List.mem_map.mpr ⟨raw, hraw, hself⟩,
      (h.agrees.class hraw hs).2.2, ?_⟩
    rw [h.table]
    exact hs

include h in
/-- A reference is taken away whose name goes from the file by itself. -/
theorem mem_gone_of_removed (hraw : raw ∈ listed) (hs : StandsFor s.table name true raw)
    (hname : name ∈ removed₁) : raw.index ∈ gone := by
  obtain ⟨other, -, hgoes⟩ := (h.named name).mp hname
  rw [name?_verdict_iff] at hgoes
  obtain ⟨-, -, -, hmade⟩ := hgoes.exists_symbol
  have hclass := (h.agrees.class hraw hs).1
  have hzero : raw.sectionNumber = 0 := by simpa using (h.agrees raw hraw name true hs).2
  obtain ⟨symbol, hsymbol, -, rfl, hundefined⟩ := hs
  refine h.kept _ ((h.first raw hraw).mpr
    ((goes_iff_of_reference hsymbol hundefined hclass hzero).mpr ⟨hmade, ?_⟩))
  rcases hgoes.canStrip_or_isForced with hcan | hforced
  · -- The name exists, so unless it belongs to the recompiled units it goes from all files.
    have hexists : registry.containsSymbol symbol.name = true := by
      unfold ObjectTable.canStrip at hcan
      simp only [Bool.and_eq_true] at hcan
      exact hcan.1.2
    by_cases howner : (owners.lookup symbol.name).any recompiled.contains = true
    · exact .inr ⟨howner, hcan⟩
    · exact .inl (by simp [isForced, howner, hexists])
  · exact .inl hforced

include h in
/-- A reference is taken away whose name goes from this file or from all. -/
theorem mem_gone_of_reference (hraw : raw ∈ listed) (hs : StandsFor s.table name true raw)
    (hname : name ∈ removed₁ ∨ name ∈ everywhere) : raw.index ∈ gone := by
  by_cases hremoved : name ∈ removed₁
  · exact h.mem_gone_of_removed hraw hs hremoved
  · have halive := (h.agrees.class hraw hs).2.2
    have hzero : raw.sectionNumber = 0 := by simpa using (h.agrees raw hraw name true hs).2
    obtain ⟨symbol, hsymbol, -, rfl, hundefined⟩ := hs
    exact h.reached raw hraw hzero halive symbol hsymbol hundefined
      (hname.resolve_left hremoved) hremoved

include h in
/-- A symbol that other files see goes along with its section only if the file's own check allows
that. -/
theorem canStrip_of_canLeave (hraw : raw ∈ listed) (hs : StandsFor s.table name undefined raw)
    (hleave : canLeave registry s.table raw (nameOf s.table raw) = true) :
    s.table.canStrip registry name = true := by
  obtain ⟨hstatic, hlabel, -⟩ := h.agrees.class hraw hs
  obtain ⟨symbol, hsymbol, -, rfl, -⟩ := hs
  simpa [canLeave, hstatic, hlabel, nameOf, hsymbol] using hleave

/-- A definition of data is no function. -/
theorem isFunction_eq_false {symbol : ObjectSymbol} (hsymbol : symbolAt? t raw = some symbol)
    (hexternal : symbol.isExternal = true) (hdefined : symbol.isUndefined = false)
    (hdata : symbol.name ∉ t.externalFunctions) : symbol.isFunction = false := by
  by_contra hfunction
  refine hdata (List.mem_map_of_mem (List.mem_filter.mpr ⟨List.mem_filter.mpr
    ⟨List.mem_of_find?_eq_some hsymbol, ?_⟩, ?_⟩))
  · rw [hdefined]
    rfl
  · rw [hexternal, (Bool.not_eq_false _).mp hfunction]
    rfl

include h in
/-- A definition of data goes by itself if and only if the file's own check allows that. -/
theorem mem_gone₁_iff_of_definition (hraw : raw ∈ listed)
    (hs : StandsFor s.table name false raw) (hdata : name ∉ s.table.externalFunctions) :
    raw.index ∈ gone₁ ↔ s.table.canStrip registry name = true := by
  have hclass := (h.agrees.class hraw hs).1
  have hpos : 0 < raw.sectionNumber := by simpa using (h.agrees raw hraw name false hs).2
  obtain ⟨symbol, hsymbol, hexternal, rfl, hdefined⟩ := hs
  exact (h.first raw hraw).trans (goes_iff_of_definition hsymbol hdefined
    (isFunction_eq_false hsymbol hexternal hdefined hdata) hclass hpos)

include h in
/-- A definition of data is taken away if and only if the file's own check allows that. -/
theorem mem_gone_iff_of_definition (hraw : raw ∈ listed) (hs : StandsFor s.table name false raw)
    (hdata : name ∉ s.table.externalFunctions) :
    raw.index ∈ gone ↔ s.table.canStrip registry name = true := by
  have hfirst := h.mem_gone₁_iff_of_definition hraw hs hdata
  refine ⟨fun hgone ↦ ?_, fun hcan ↦ h.kept _ (hfirst.mpr hcan)⟩
  have hpos : 0 < raw.sectionNumber := by simpa using (h.agrees raw hraw name false hs).2
  rcases h.cause raw hraw hgone with hgone₁ | ⟨hzero, -⟩ | ⟨-, hleave⟩
  · exact hfirst.mp hgone₁
  · omega
  · exact h.canStrip_of_canLeave hraw hs hleave

include h in
/-- A name that was taken from the file goes from it by itself, or from all files. -/
theorem mem_of_loses (hlost : Loses name s s') (hdata : name ∉ s.table.externalFunctions) :
    name ∈ removed₁ ∨ name ∈ everywhere := by
  obtain ⟨symbols, symbols', hsymbols, hsymbols', undefined, raw, hraw, hs, raw', hraw', hindex,
    hremoved⟩ := hlost
  cases h.outline.listing.symm.trans hsymbols
  cases h.symbols.symm.trans hsymbols'
  have hgone : raw.index ∈ gone := by
    by_contra hkept
    obtain ⟨other, hother, rfl⟩ := List.mem_map.mp hraw'
    rw [EditorSymbol.index_after] at hindex
    cases h.outline.eq_of_index hother hraw hindex
    rw [EditorSymbol.after, if_neg hkept, (h.agrees.class hraw hs).2.2] at hremoved
    cases hremoved
  -- What goes by itself goes under the name of its symbol.
  have hnamed : raw.index ∈ gone₁ → name ∈ removed₁ := by
    intro hgone₁
    obtain ⟨n, hn⟩ := Verdict.exists_name?_iff.mpr ((h.first raw hraw).mp hgone₁)
    obtain ⟨symbol, hsymbol, rfl, -⟩ := (name?_verdict_iff.mp hn).exists_symbol
    obtain ⟨symbol', hsymbol', -, rfl, -⟩ := hs
    cases hsymbol.symm.trans hsymbol'
    exact (h.named _).mpr ⟨raw, hraw, hn⟩
  rcases h.cause raw hraw hgone with hgone₁ | ⟨-, symbol, hsymbol, hmem⟩ | ⟨hpos, hleave⟩
  · exact .inl (hnamed hgone₁)
  · obtain ⟨symbol', hsymbol', -, rfl, -⟩ := hs
    cases hsymbol.symm.trans hsymbol'
    exact .inr hmem
  · rcases (h.agrees raw hraw name undefined hs).2 with ⟨-, hzero⟩ | ⟨rfl, -⟩
    · omega
    · exact .inl (hnamed ((h.mem_gone₁_iff_of_definition hraw hs hdata).mpr
        (h.canStrip_of_canLeave hraw hs hleave)))

end Course
end Files

end Stripping

namespace Stripped

open Stripping Coff

section Courses

variable {registry : Registry} {recompiled : PathSet} {owners : SymbolOwners}
  {strategy : RemovalStrategy} {names : List String} {name : String} {p : Passage}
  {needed : List Path} {w w' : Workshop} {result : Stripped} {passages : List Passage}

/-- A file that was stripped of what is known lists its symbols. -/
theorem Passage.Runs.exists_symbols (h : p.Runs registry recompiled owners strategy names) :
    ∃ listed, p.read.editor.symbols = .ok listed := by
  have hlists : Triple (· = p.read) (stripKnown registry recompiled owners)
      (fun _ _ ↦ ∃ listed, p.read.editor.symbols = .ok listed) fun _ ↦ True := by
    refine Triple.bind_get fun s heq ↦
      Triple.bind_lift (fun symbols hsymbols ↦ ?_) fun _ _ ↦ trivial
    exact (Keeps.triv _).mono (fun _ _ ↦ trivial) (fun _ _ _ ↦ ⟨symbols, heq ▸ hsymbols⟩)
      fun _ h ↦ h
  exact hlists.ok rfl h.known

/-- What stripping did to a regular file. -/
theorem Passage.Runs.course (h : p.Runs registry recompiled owners strategy names)
    (hregular : p.read.IsRegular)
    (hparse : Editor.parse p.read.editor.data strategy = .ok p.read.editor)
    (hfresh : p.read.removed = []) : ∃ listed gone₁ removed₁ gone,
      Course registry recompiled owners names listed gone₁ removed₁ gone p.read p.finished ∧
        ∀ name, name ∈ removed₁ ↔ name ∈ p.known.removed := by
  obtain ⟨listed, hlisted⟩ := h.exists_symbols
  have ho : Editor.Outline p.read.editor listed :=
    ⟨Editor.fits_of_parse hparse, hregular.parts.clearances, hlisted⟩
  have hstart : Tracks p.read.editor listed p.read.table [] [] [] p.read :=
    ⟨rfl, .refl, by simp [hfresh]⟩
  obtain ⟨gone₁, removed₁, hjudged⟩ := (triple_stripKnown ho).ok hstart h.known
  obtain ⟨gone₂, removed₂, hspread⟩ : ∃ gone₂ removed₂,
      IsSpread p.read.editor listed p.read.table names gone₁ removed₁
        (listed.map (EditorSymbol.after p.read.editor.strategy gone₁)) gone₂ removed₂ p.spread := by
    rcases h.spread with hspread | ⟨rfl, hsame⟩
    · exact (triple_stripReferences ho hregular.once names).ok hjudged.tracks hspread
    · rw [hsame]
      exact ⟨gone₁, removed₁, hjudged.tracks, fun _ h ↦ h, fun _ _ h ↦ .inl h, fun _ h ↦ .inl h,
        fun _ _ _ _ _ _ _ h ↦ (List.not_mem_nil h).elim⟩
  obtain ⟨gone, dropped, removed, hfinished⟩ :=
    (Stripping.triple_finish ho strategy).ok hspread.tracks h.finished
  refine ⟨listed, gone₁, removed₁, gone, ⟨ho, ?_, fun raw hraw ↦ hjudged.mem_gone_iff ho hraw,
    hjudged.removed, hfinished.tracks.table, hfinished.tracks.editor.symbols_eq ho,
    fun index hindex ↦ hfinished.kept _ (hspread.kept _ hindex), fun raw hraw hgone ↦ ?_,
    fun raw hraw hzero halive symbol hsymbol hundefined hmem hnew ↦ ?_⟩,
    fun name ↦ (hjudged.tracks.removed name).symm⟩
  · rintro raw hraw name undefined ⟨symbol, hsymbol, hexternal, -, rfl⟩
    exact ObjectTable.agrees_of_symbolAt? hregular.table hparse hlisted hraw hsymbol hexternal
      (hregular.near symbol (List.mem_of_find?_eq_some hsymbol))
  · rcases hfinished.cause raw hraw hgone with hgone | hleft
    · exact (hspread.cause raw hraw hgone).imp_right .inl
    · exact .inr (.inr hleft)
  · by_cases hgone₁ : raw.index ∈ gone₁
    · exact hfinished.kept _ (hspread.kept _ hgone₁)
    · have hlisted : raw ∈ listed.map (EditorSymbol.after p.read.editor.strategy gone₁) :=
        List.mem_map.mpr ⟨raw, hraw, if_neg hgone₁⟩
      exact hfinished.kept _
        (hspread.reached raw hlisted hzero halive symbol hsymbol hundefined hmem hnew)

/-- What stripping did to each of several regular files. The names that went from one of them by
itself go from all. -/
theorem Strips.course (h : Strips registry recompiled owners strategy needed w result w' passages)
    (hp : p ∈ passages) (hregular : p.read.IsRegular) : ∃ listed gone₁ removed₁ gone,
      Course registry recompiled owners (everywhere passages) listed gone₁ removed₁ gone
          p.read p.finished ∧
        (1 < passages.length → ∀ name ∈ removed₁, name ∈ everywhere passages) := by
  obtain ⟨path, -, hopened⟩ := Pointwise.exists_left h.opened hp
  obtain ⟨listed, gone₁, removed₁, gone, hcourse, hremoved⟩ :=
    (h.runs p hp).course hregular hopened.editor hopened.fresh.1
  refine ⟨listed, gone₁, removed₁, gone, hcourse, fun hmany name hname ↦ ?_⟩
  rw [everywhere, if_pos hmany]
  exact List.mem_flatMap.mpr ⟨p, hp, List.mem_append_left _ ((hremoved name).mp hname)⟩

/-- A name that was stripped from one file goes from all, and from a single file by itself. -/
theorem Strips.goes (h : Strips registry recompiled owners strategy needed w result w' passages)
    (hregular : ∀ p ∈ passages, p.read.IsRegular)
    (hdata : ∀ p ∈ passages, name ∉ p.read.table.externalFunctions)
    (hlost : ∃ p ∈ passages, Loses name p.read p.finished) (hp : p ∈ passages) :
    ∃ listed gone₁ removed₁ gone, Course registry recompiled owners (everywhere passages) listed
      gone₁ removed₁ gone p.read p.finished ∧ (name ∈ removed₁ ∨ name ∈ everywhere passages) := by
  obtain ⟨loser, hloser, hlost⟩ := hlost
  obtain ⟨listed, gone₁, removed₁, gone, hcourse, hmany⟩ := h.course hloser (hregular _ hloser)
  have hmem := hcourse.mem_of_loses hlost (hdata loser hloser)
  by_cases hname : name ∈ everywhere passages
  · obtain ⟨listed, gone₁, removed₁, gone, hcourse, -⟩ := h.course hp (hregular p hp)
    exact ⟨listed, gone₁, removed₁, gone, hcourse, .inr hname⟩
  · have hremoved := hmem.resolve_right hname
    have hfew : passages.length ≤ 1 := Nat.not_lt.mp fun h ↦ hname (hmany h name hremoved)
    have hsame : p = loser := by
      obtain ⟨i, hi, rfl⟩ := List.getElem_of_mem hp
      obtain ⟨j, hj, rfl⟩ := List.getElem_of_mem hloser
      have hij : i = j := by omega
      subst hij
      rfl
    exact ⟨listed, gone₁, removed₁, gone, hsame ▸ hcourse, .inl hremoved⟩

/-- When several object files were stripped, each of them was read, edited and saved, and once a
name that no file defines as a function went from one of them, no file refers to it any more. A file
that defines it keeps its definition if and only if the file's own check does not allow it to go. -/
theorem stripped_name_lives_on_iff_pinned
    (hrun : (strip registry recompiled owners strategy needed).run w = (.ok result, w')) :
    ∃ passages, Strips registry recompiled owners strategy needed w result w' passages ∧
      ∀ name, (∀ p ∈ passages, p.read.IsRegular) →
        (∀ p ∈ passages, name ∉ p.read.table.externalFunctions) →
        (∃ p ∈ passages, Loses name p.read p.finished) →
        ∀ p ∈ passages, ¬ p.finished.Has name true ∧ (p.finished.Has name false ↔
          p.read.Has name false ∧ p.read.table.canStrip registry name = false) := by
  obtain ⟨passages, h⟩ := exists_passages_of_strip hrun
  refine ⟨passages, h, fun name hregular hdata hlost p hp ↦ ?_⟩
  obtain ⟨listed, gone₁, removed₁, gone, hcourse, hname⟩ := h.goes hregular hdata hlost hp
  refine ⟨fun hhas ↦ ?_, ?_⟩
  · obtain ⟨raw, hraw, hstands, hkept⟩ := hcourse.has_iff.mp hhas
    exact hkept (hcourse.mem_gone_of_reference hraw hstands hname)
  · rw [hcourse.has_iff]
    constructor
    · rintro ⟨raw, hraw, hstands, hkept⟩
      refine ⟨⟨listed, hcourse.outline.listing, raw, hraw,
        (hcourse.agrees.class hraw hstands).2.2, hstands⟩, ?_⟩
      rw [hcourse.mem_gone_iff_of_definition hraw hstands (hdata p hp)] at hkept
      exact Bool.not_eq_true _ ▸ hkept
    · rintro ⟨⟨symbols, hsymbols, raw, hraw, -, hstands⟩, hpinned⟩
      cases hcourse.outline.listing.symm.trans hsymbols
      refine ⟨raw, hraw, hstands, fun hgone ↦ ?_⟩
      rw [hcourse.mem_gone_iff_of_definition hraw hstands (hdata p hp), hpinned] at hgone
      cases hgone

end Courses

/-! A unit whose reference to its own variable cannot be redirected, and a unit that reads it. -/

namespace Shared

/-- An object file with the variable `g_x` and behind it `p_x`, which refers to it relative to its
section. -/
def ownerData : Bytes :=
  -- The header of the file, and that of its only section.
  #[0x64, 0x86, 0x01, 0x00, 0x00, 0x00, 0x00, 0x00, 0x56, 0x00, 0x00, 0x00, 0x02, 0x00, 0x00, 0x00,
    0x00, 0x00, 0x00, 0x00]
  ++ #[0x2e, 0x64, 0x61, 0x74, 0x61, 0x00, 0x00, 0x00, 0x00, 0x00, 0x00, 0x00, 0x00, 0x00, 0x00,
    0x00, 0x10, 0x00, 0x00, 0x00, 0x3c, 0x00, 0x00, 0x00, 0x4c, 0x00, 0x00, 0x00, 0x00, 0x00, 0x00,
    0x00, 0x01, 0x00, 0x00, 0x00, 0x40, 0x00, 0x50, 0xc0]
  -- Both variables, and the relocation.
  ++ #[0x2a, 0x00, 0x00, 0x00, 0x00, 0x00, 0x00, 0x00, 0x00, 0x00, 0x00, 0x00, 0x00, 0x00, 0x00,
    0x00]
  ++ #[0x08, 0x00, 0x00, 0x00, 0x00, 0x00, 0x00, 0x00, 0x0b, 0x00]
  -- Their symbols, and an empty string table.
  ++ #[0x67, 0x5f, 0x78, 0x00, 0x00, 0x00, 0x00, 0x00, 0x00, 0x00, 0x00, 0x00, 0x01, 0x00, 0x00,
    0x00, 0x02, 0x00]
  ++ #[0x70, 0x5f, 0x78, 0x00, 0x00, 0x00, 0x00, 0x00, 0x08, 0x00, 0x00, 0x00, 0x01, 0x00, 0x00,
    0x00, 0x02, 0x00]
  ++ #[0x04, 0x00, 0x00, 0x00]

/-- An object file with the function `GetX`, which reads `g_x`. -/
def readerData : Bytes :=
  -- The header of the file, and that of its only section.
  #[0x64, 0x86, 0x01, 0x00, 0x00, 0x00, 0x00, 0x00, 0x4e, 0x00, 0x00, 0x00, 0x02, 0x00, 0x00, 0x00,
    0x00, 0x00, 0x00, 0x00]
  ++ #[0x2e, 0x74, 0x65, 0x78, 0x74, 0x00, 0x00, 0x00, 0x00, 0x00, 0x00, 0x00, 0x00, 0x00, 0x00,
    0x00, 0x08, 0x00, 0x00, 0x00, 0x3c, 0x00, 0x00, 0x00, 0x44, 0x00, 0x00, 0x00, 0x00, 0x00, 0x00,
    0x00, 0x01, 0x00, 0x00, 0x00, 0x20, 0x00, 0x50, 0x60]
  -- The code of the function, and its relocation.
  ++ #[0x8b, 0x05, 0x00, 0x00, 0x00, 0x00, 0xc3, 0xcc]
  ++ #[0x02, 0x00, 0x00, 0x00, 0x01, 0x00, 0x00, 0x00, 0x04, 0x00]
  -- Its symbol and that of the variable, and an empty string table.
  ++ #[0x47, 0x65, 0x74, 0x58, 0x00, 0x00, 0x00, 0x00, 0x00, 0x00, 0x00, 0x00, 0x01, 0x00, 0x20,
    0x00, 0x02, 0x00]
  ++ #[0x67, 0x5f, 0x78, 0x00, 0x00, 0x00, 0x00, 0x00, 0x00, 0x00, 0x00, 0x00, 0x00, 0x00, 0x00,
    0x00, 0x02, 0x00]
  ++ #[0x04, 0x00, 0x00, 0x00]

/-- The unit that defines the variable, before it is stripped. -/
def owner : Stripping where
  path := ⟨"/a.obj"⟩
  editor := ⟨ownerData, .debugSection, 20, 1, 86, 2, 122⟩
  table := ⟨⟨"/a.obj"⟩, Fingerprint.ofPath ⟨"/a.obj"⟩,
    [⟨0, "g_x", some 1, 0, false, true, false, false, []⟩,
      ⟨1, "p_x", some 1, 8, false, true, false, false, []⟩], [], ["g_x"]⟩
  removed := []
  forced := []
  emptied := []

/-- The unit that reads the variable, before it is stripped. -/
def reader : Stripping where
  path := ⟨"/b.obj"⟩
  editor := ⟨readerData, .debugSection, 20, 1, 78, 2, 114⟩
  table := ⟨⟨"/b.obj"⟩, Fingerprint.ofPath ⟨"/b.obj"⟩,
    [⟨0, "GetX", some 1, 0, true, true, false, false, [⟨2, "g_x", 0, .relative 0⟩]⟩,
      ⟨1, "g_x", none, 0, false, true, true, false, []⟩], [], []⟩
  removed := []
  forced := []
  emptied := []

/-- The module, which has the variable. -/
def registry : Registry :=
  Registry.empty.insert ⟨"/module"⟩ ⟨.ofList [("g_x", 0x20)], .empty, .empty, .empty, []⟩ 0x1000

/-- Both object files. -/
def needed : List Path := [⟨"/a.obj"⟩, ⟨"/b.obj"⟩]

/-- Both object files in one directory. -/
def workshop : Workshop :=
  ⟨⟨[(["a.obj"], .file ownerData (.written 0)), (["b.obj"], .file readerData (.written 0))],
    .written 0, [], 1⟩, .empty, fun _ t ↦ (.ok ⟨0, ""⟩, t), []⟩

/-- Stripping both units, which were recompiled. -/
def stripping : Outcome Stripped × Workshop :=
  (Stripped.strip registry (.ofList needed) [("g_x", ⟨"/a.obj"⟩)] .debugSection needed).run workshop

/-- A unit after its first pass. -/
def known (s : Stripping) : Stripping :=
  ((stripKnown registry (.ofList needed) [("g_x", ⟨"/a.obj"⟩)]).run s).2

/-- A unit after all passes. -/
def finished (s : Stripping) : Stripping :=
  ((Stripping.finish registry .debugSection).run
    ((stripReferences ["g_x"]).run (known s)).2).2

/-- The record of the variable. -/
def shared : EditorSymbol := ⟨0, "g_x", 0, 1, 2, 0⟩

/-- The record of the reference to it. -/
def reference : EditorSymbol := ⟨1, "g_x", 0, 0, 2, 0⟩

/-- Opening a file comes to a unit. -/
structure Opens (path : Path) (data : Bytes) (s : Stripping) : Prop where
  named : s.path = path
  editor : Editor.parse data .debugSection = .ok s.editor
  fresh : s.removed = [] ∧ s.forced = [] ∧ s.emptied = []
  data : workshop.files.read? path = some data

/-- What the passes come to. No unit defines the variable as a function. -/
private class Evaluation : Prop where
  answers : (stripping.1.map (fun r ↦ (r.namesIn ⟨"/a.obj"⟩, r.namesIn ⟨"/b.obj"⟩)),
      needed.map fun path ↦ ((Workshop.object path).run stripping.2).1)
    = (.ok ([], ["g_x"]), [.ok Shared.owner.table, .ok Shared.reader.table])
  owner : Opens ⟨"/a.obj"⟩ ownerData owner
  reader : Opens ⟨"/b.obj"⟩ readerData reader
  passes : [Shared.owner, Shared.reader].flatMap (fun s ↦ (known s).removed ++ (known s).forced)
      = ["g_x"] ∧
    (Shared.owner.editor.symbols = .ok [shared, ⟨1, "p_x", 8, 1, 2, 0⟩] ∧
      (finished Shared.owner).editor.symbols = .ok [shared, ⟨1, "p_x", 8, 1, 2, 0⟩]) ∧
    Shared.reader.editor.symbols = .ok [⟨0, "GetX", 0, 1, 2, 0⟩, reference] ∧
    (finished Shared.reader).editor.symbols
      = .ok [⟨0, "GetX", 0, 1, 2, 0⟩, reference.removed .debugSection]
  isData : "g_x" ∉ Shared.owner.table.externalFunctions ∧
    "g_x" ∉ Shared.reader.table.externalFunctions
  isRegular : Shared.owner.IsRegular ∧ Shared.reader.IsRegular

private instance evaluation : Evaluation where
  answers := by decide +kernel
  owner := ⟨rfl, Editor.parse_eq_ok (by decide +kernel), ⟨rfl, rfl, rfl⟩, rfl⟩
  reader := ⟨rfl, Editor.parse_eq_ok (by decide +kernel), ⟨rfl, rfl, rfl⟩, rfl⟩
  passes := by decide +kernel
  isData := by decide +kernel
  isRegular := {
    left := {
      table := by decide +kernel
      parts := ⟨[⟨86, 40⟩, ⟨0, 60⟩, ⟨76, 10⟩], by decide +kernel, by decide⟩
      near := by simp [Shared.owner]
      once := by decide +kernel }
    right := {
      table := by decide +kernel
      parts := ⟨[⟨78, 40⟩, ⟨0, 60⟩, ⟨68, 10⟩], by decide +kernel, by decide⟩
      near := by simp [Shared.reader]
      once := by decide +kernel } }

/-- The object files lie apart. -/
private theorem areSafe : Backup.AreSafe workshop.files needed :=
  ⟨FileTree.isTree_of_forall (by decide), by decide, by decide⟩

/-- Stripping succeeds, and the variable goes from the reader only. -/
private theorem stripping_eq : ∃ result, stripping = (.ok result, stripping.2) ∧
    result.namesIn ⟨"/a.obj"⟩ = [] ∧ result.namesIn ⟨"/b.obj"⟩ = ["g_x"] := by
  have hnames := (Prod.mk.inj evaluation.answers).1
  generalize stripping = r at hnames
  obtain ⟨_ | result, w'⟩ := r
  · cases hnames
  · exact ⟨result, rfl, Prod.mk.inj (Except.ok.inj hnames)⟩

/-- A unit that was opened is the one that its file comes to. -/
private theorem Opens.eq {path : Path} {data : Bytes} {s opened : Stripping}
    (h : Opens path data s) (htable : ((Workshop.object path).run stripping.2).1 = .ok s.table)
    (hopened : IsOpened .debugSection workshop stripping.2 needed path opened) : opened = s := by
  have hdata : data = opened.editor.data :=
    Option.some.inj (h.data.symm.trans (hopened.data areSafe))
  have heditor : s.editor = opened.editor :=
    Except.ok.inj (h.editor.symm.trans (hdata ▸ hopened.editor))
  have htable : s.table = opened.table := by
    rw [Workshop.run_object_of_hasTable hopened.table] at htable
    exact (Except.ok.inj htable).symm
  obtain ⟨hremoved, hforced, hemptied⟩ := h.fresh
  obtain ⟨hremoved', hforced', hemptied'⟩ := hopened.fresh
  cases s
  cases opened
  simp only [Stripping.mk.injEq] at *
  exact ⟨hopened.named.trans h.named.symm, heditor.symm, htable.symm, hremoved'.trans hremoved.symm,
    hforced'.trans hforced.symm, hemptied'.trans hemptied.symm⟩

/-- What the first pass takes of a unit, and what all passes leave of it. -/
private theorem of_runs {p : Passage} {names : List String}
    (h : p.Runs registry (.ofList needed) [("g_x", ⟨"/a.obj"⟩)] .debugSection names) :
    p.known = known p.read ∧ (names = ["g_x"] → p.finished = finished p.read) := by
  have hknown : p.known = known p.read := by
    unfold known
    rw [h.known]
  refine ⟨hknown, fun hnames ↦ ?_⟩
  subst hnames
  rcases h.spread with hspread | ⟨hempty, -⟩
  · unfold finished
    rw [← hknown, hspread, h.finished]
  · cases hempty

/-- The passages of both units. -/
private theorem exists_passages_eq {result : Stripped} {passages : List Passage}
    (h : Strips registry (.ofList needed) [("g_x", ⟨"/a.obj"⟩)] .debugSection needed workshop result
      stripping.2 passages) : ∃ p q, passages = [p, q] ∧ p.read = owner ∧
      p.finished = finished owner ∧ q.read = reader ∧ q.finished = finished reader := by
  obtain ⟨p, rest, hp, hrest, rfl⟩ := List.forall₂_cons_left_iff.mp h.opened
  obtain ⟨q, _, hq, hnone, rfl⟩ := List.forall₂_cons_left_iff.mp hrest
  cases List.forall₂_nil_left_iff.mp hnone
  obtain ⟨howner, hreader⟩ := List.cons.inj (Prod.mk.inj evaluation.answers).2
  have hp := evaluation.owner.eq howner hp
  have hq := evaluation.reader.eq (List.cons.inj hreader).1 hq
  obtain ⟨hknown, hfinished⟩ := of_runs (h.runs p (by simp))
  obtain ⟨hknown', hfinished'⟩ := of_runs (h.runs q (by simp))
  have heverywhere : everywhere [p, q] = ["g_x"] := by
    rw [everywhere, if_pos (by simp), ← evaluation.passes.1, ← hp, ← hq]
    simp only [List.flatMap_cons, List.flatMap_nil, hknown, hknown']
  exact ⟨p, q, rfl, hp, hp ▸ hfinished heverywhere, hq, hq ▸ hfinished' heverywhere⟩

/-- The reader loses its reference. -/
private theorem loses_reference : Loses "g_x" reader (finished reader) :=
  ⟨_, _, evaluation.passes.2.2.1, evaluation.passes.2.2.2, true, reference, by simp, ⟨_, rfl, rfl, rfl, rfl⟩, _,
    List.mem_cons_of_mem _ (List.mem_singleton_self _), rfl, rfl⟩

end Shared

open Shared in
/-- The variable lives on in its definition and nowhere else. -/
theorem pinned_name_lives_on_in_its_definition : ∃ result p q,
    stripping = (.ok result, stripping.2) ∧
    Strips registry (.ofList needed) [("g_x", ⟨"/a.obj"⟩)] .debugSection needed workshop result
      stripping.2 [p, q] ∧
    p.read.table.canStrip registry "g_x" = false ∧
    ¬ p.finished.Has "g_x" true ∧ p.finished.Has "g_x" false ∧
    ¬ q.finished.Has "g_x" true ∧ ¬ q.finished.Has "g_x" false := by
  obtain ⟨result, hstripping, -⟩ := stripping_eq
  obtain ⟨passages, hstrips, hlives⟩ := stripped_name_lives_on_iff_pinned hstripping
  obtain ⟨p, q, rfl, hp, -, hq, hleft⟩ := exists_passages_eq hstrips
  have hboth : ∀ x ∈ [p, q], ¬ x.finished.Has "g_x" true ∧ (x.finished.Has "g_x" false ↔
      x.read.Has "g_x" false ∧ x.read.table.canStrip registry "g_x" = false) := by
    refine hlives "g_x" ?_ ?_ ⟨q, by simp, ?_⟩
    · simpa [hp, hq] using evaluation.isRegular
    · simpa [hp, hq] using evaluation.isData
    · rw [hq, hleft]
      exact loses_reference
  have hpinned : owner.table.canStrip registry "g_x" = false := by decide +kernel
  have hfree : reader.table.canStrip registry "g_x" = true := by decide +kernel
  have howned : owner.Has "g_x" false :=
    ⟨_, evaluation.passes.2.1.1, shared, by simp, rfl, _, rfl, rfl, rfl, rfl⟩
  obtain ⟨⟨hreference, hdefinition⟩, hreference', hdefinition'⟩ :=
    And.imp_right List.forall_mem_singleton.mp (List.forall_mem_cons.mp hboth)
  rw [hp] at hdefinition
  rw [hq, hfree] at hdefinition'
  exact ⟨result, p, q, hstripping, hstrips, by rw [hp, hpinned], hreference,
    hdefinition.mpr ⟨howned, hpinned⟩, hreference', fun hhas ↦ by cases (hdefinition'.mp hhas).2⟩

open Shared in
/-- A variable that its own unit refers to relative to its section is stripped from the other unit
only: the reader uses the existing instance, and the owner a fresh one. -/
theorem pinned_name_lives_on_next_to_existing : ∃ result p q,
    stripping = (.ok result, stripping.2) ∧
    Strips registry (.ofList needed) [("g_x", ⟨"/a.obj"⟩)] .debugSection needed workshop result
      stripping.2 [p, q] ∧
    (∀ x ∈ [p, q], "g_x" ∉ x.read.table.externalFunctions) ∧
    result.namesIn ⟨"/a.obj"⟩ = [] ∧ result.namesIn ⟨"/b.obj"⟩ = ["g_x"] ∧
    Loses "g_x" q.read q.finished ∧ p.finished.Has "g_x" false := by
  obtain ⟨result, hstripping, hnames, hnames'⟩ := stripping_eq
  obtain ⟨passages, hstrips⟩ := exists_passages_of_strip hstripping
  obtain ⟨p, q, rfl, hp, hkept, hq, hleft⟩ := exists_passages_eq hstrips
  have htable : p.finished.table = owner.table := by
    obtain ⟨path, -, hopened⟩ := Pointwise.exists_left hstrips.opened (List.mem_cons_self ..)
    rw [((hstrips.runs p (List.mem_cons_self ..)).hasLost hopened.fresh).2.1, hp]
  refine ⟨result, p, q, hstripping, hstrips, ?_, hnames, hnames', ?_, ?_⟩
  · simpa [hp, hq] using evaluation.isData
  · rw [hq, hleft]
    exact loses_reference
  · refine ⟨_, hkept ▸ evaluation.passes.2.1.2, shared, by simp, rfl, ?_⟩
    rw [htable]
    exact ⟨_, rfl, rfl, rfl, rfl⟩

end Stripped
end LivePatch
