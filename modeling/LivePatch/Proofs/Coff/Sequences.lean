import LivePatch.Proofs.Coff.Removing

/-!
# Sequences of edits

Any sequence of edits of an object file whose parts are separate leaves the file laid out as it was.
-/

namespace LivePatch.Coff.Editor

open Bytes

/-- An edit of an object file. -/
inductive Edit where
  | remove (removal : Removal)
  | setType (number relocation : Nat) (typ : UInt16)
  | filter (keep : String → Bool)

namespace Edit

def run : Edit → EditM Unit
  | remove removal => removal.run
  | setType number relocation typ => setRelocationType number relocation typ
  | filter keep => do let _ ← filterDirectives keep

/-- Only symbols that are listed and carry no definition of a section are to be removed. -/
def IsAllowed (listed : List EditorSymbol) : Edit → Prop
  | remove removal => removal.IsAllowed listed
  | _ => True

end Edit

/-- What an edit changes. -/
def Changes.note (c : Changes) : Edit → Changes
  | .remove removal => c.remove removal
  | .setType number relocation typ => { c with types := ((number, relocation), typ) :: c.types }
  | .filter _ => c

/-- What edits change. -/
def changesOf (edits : List Edit) : Changes := edits.foldl Changes.note ⟨[], [], []⟩

variable {e e₀ e₁ : Editor} {listed : List EditorSymbol} {number : Nat} {h : SectionHeader}
  {c : Changes} (hs : e₀.Separation listed)

/-- A dropped section has a name of its own. -/
theorem sectionName_dropped (h : SectionHeader) : e.sectionName h.dropped = ".remove" := by
  have hname : shortName removedSectionName.toList = ".remove".toList := by decide
  unfold sectionName SectionHeader.dropped
  dsimp only
  rw [hname]
  rfl

/-- Directives are looked for in a section that was not dropped and is named for them. -/
theorem Rewritten.header_of_directives (he : Rewritten e₀ listed c e) (hs : e₀.Separation listed)
    {sections : List EditorSection} (hsections : e.sections = .ok sections) {s : EditorSection}
    (hmem : s ∈ sections) (hname : s.name = ".drectve") (hh : e.header s.number = .ok h) :
    e₀.header s.number = .ok h ∧ e₀.sectionName h = ".drectve" := by
  obtain ⟨symbols, -, hsections⟩ := Outcome.bind_eq_ok_iff.mp hsections
  obtain ⟨definitions, -, hsections⟩ := Outcome.bind_eq_ok_iff.mp hsections
  obtain ⟨number, hnumber, hsection⟩ := (Outcome.mem_mapM_iff hsections).mp hmem
  obtain ⟨h', hh', hsection⟩ := Outcome.bind_eq_ok_iff.mp hsection
  cases hsection
  cases hh.symm.trans hh'
  have hcount : e.sectionCount = e₀.sectionCount := by rw [he.tables]
  obtain ⟨hpos, hle⟩ := mem_numbers_iff.mp hnumber
  obtain ⟨h₀, hh₀⟩ := hs.fits.exists_header hpos (hcount ▸ hle)
  have hheader := he.headers number h₀ hh₀
  cases hh.symm.trans hheader
  dsimp only at hname ⊢
  split at hname
  · rw [sectionName_dropped] at hname
    exact absurd hname (by decide)
  · next hkept =>
    rw [if_neg hkept, he.sectionName_eq hh₀] at *
    exact ⟨hh₀, hname⟩

include hs in
/-- Blanking out directives leaves everything else as it was. -/
theorem rewritten_filterDirectives (keep : String → Bool) :
    Triple (Rewritten e₀ listed c) (filterDirectives keep) (fun _ ↦ Rewritten e₀ listed c)
      fun _ ↦ True := by
  refine Triple.of_pre fun e he ↦ triple_filterDirectives_of keep he
    fun sections s h data hsections hmem hname hh hdiffers ↦ ?_
  obtain ⟨hheader, hdirectives⟩ := he.header_of_directives hs hsections hmem hname hh
  obtain ⟨hclear, hrelocations⟩ := hs.directive s.number h hheader hdirectives
  exact he.of_differsIn_body hs c.types hdiffers hclear
    (fun _ _ _ ↦ Rewritten.isClear_count hrelocations)
    fun _ _ _ htable _ hi _ ↦ he.relocations_of_isClear hdiffers hrelocations htable hi

include hs in
/-- Setting the type of a relocation sets it, and leaves everything else as it was. -/
theorem rewritten_setRelocationType (number relocation : Nat) (typ : UInt16) :
    Triple (Rewritten e₀ listed c) (setRelocationType number relocation typ)
      (fun _ ↦ Rewritten e₀ listed { c with types := ((number, relocation), typ) :: c.types })
      fun _ ↦ True := by
  refine Triple.of_pre fun e he ↦ triple_setRelocationType_of relocation typ
    fun offset count htable hrange hinside ↦ ?_
  have hkept : number ∉ c.dropped := by
    intro hdropped
    rw [he.relocationTable_dropped hdropped] at htable
    cases htable
    omega
  obtain ⟨h, hh⟩ : ∃ h, e₀.header number = .ok h := by
    obtain ⟨h', hh', -⟩ := Outcome.bind_eq_ok_iff.mp htable
    obtain ⟨at', hat, -⟩ := Outcome.bind_eq_ok_iff.mp hh'
    rw [he.headerAt_eq] at hat
    obtain ⟨hpos, hle, -⟩ := headerAt_eq_ok_iff.mp hat
    exact hs.fits.exists_header hpos hle
  rw [he.relocationTable_eq hh hkept] at htable
  obtain ⟨hwindow, hle, hcount⟩ := relocationWindow_eq hh htable
  have htwo : (Bytes.ofU16 typ).size = 2 := by simp [Bytes.ofU16, Bytes.length_ofNumber]
  have hlast : (relocation + 1) * relocationSize ≤ count * relocationSize :=
    Nat.mul_le_mul_right _ hrange
  have hdiffers := differsIn_overwrite (b := e.data) (offset + relocation * relocationSize + 8)
    (Bytes.ofU16 typ) (.inr (by unfold relocationSize at *; omega))
  rw [htwo] at hdiffers
  have hpart : ∀ i, (Window.mk (offset + relocation * relocationSize + 8) 2).Contains i →
      (Window.mk h.relocationPointer
        (offset + count * relocationSize - h.relocationPointer)).Contains i := by
    rintro i ⟨hlo, hhi⟩
    unfold Window.Contains
    unfold relocationSize at *
    dsimp only at *
    omega
  have hother : ∀ other v, e₀.relocationWindow other = .ok v → other ≠ number →
      (Window.mk (offset + relocation * relocationSize + 8) 2).IsClear v := fun other v hv hne ↦
    (hs.relocations number _ other v hwindow hv hne.symm).mono hpart fun _ hi ↦ hi
  refine he.of_differsIn_body hs (((number, relocation), typ) :: c.types) hdiffers
    (fun v hv ↦ (hs.relocation number _ hwindow v hv).mono hpart fun _ hi ↦ hi)
    (fun other h' first hh' hflag hfirst ↦ ?_) fun other offset' count' htable' i hi r hr ↦ ?_
  · by_cases hsame : other = number
    · subst hsame
      cases hh.symm.trans hh'
      have := hcount hflag
      refine .inr (.inr (.inr ?_))
      dsimp only
      omega
    · obtain ⟨v, hv, hcontains⟩ := exists_window_of_count hh' hflag hfirst
      exact (hother other v hv hsame).mono (fun _ hi ↦ hi) hcontains
  · have hread := he.relocations other offset' count' htable' i hi r hr
    by_cases hsame : other = number
    · subst hsame
      cases htable.symm.trans htable'
      by_cases hindex : i = relocation
      · subst hindex
        rw [RawRelocation.read?_retyped hread, List.lookup_cons_self]
        rfl
      · rw [List.lookup_cons, beq_false_of_ne (by simpa using hindex), ← hread]
        refine RawRelocation.read?_congr hdiffers.size (hdiffers.same _ (.inr (.inr ?_)))
        unfold relocationSize
        dsimp only
        omega
    · rw [List.lookup_cons, beq_false_of_ne (by simp [hsame]), ← hread]
      obtain ⟨v, hv, hcontains⟩ := contains_relocation htable' hi
      exact RawRelocation.read?_congr hdiffers.size
        (hdiffers.same _ ((hother other v hv hsame).mono (fun _ hi ↦ hi) hcontains))

/-! ### Whole sequences -/

include hs in
/-- An edit changes what it is to change, and nothing else. -/
theorem Rewritten.note (he : Rewritten e₀ listed c e) {edit : Edit}
    (hallowed : edit.IsAllowed listed) (hrun : edit.run.run e = (.ok (), e₁)) :
    Rewritten e₀ listed (c.note edit) e₁ := by
  cases edit with
  | remove removal =>
    obtain ⟨hpossible, rfl⟩ := (Removal.run_eq_ok_iff hs he hallowed).mp hrun
    exact he.remove hs hallowed hpossible
  | setType number relocation typ =>
    exact (rewritten_setRelocationType hs number relocation typ).ok he hrun
  | filter keep =>
    obtain ⟨_, e', hfilter, hrun⟩ := run_bind_eq_ok_iff.mp hrun
    cases hrun
    exact (rewritten_filterDirectives hs keep).ok he hfilter

include hs in
/-- Edits change what they are to change, and nothing else. -/
theorem Rewritten.foldl_note (he : Rewritten e₀ listed c e) {edits : List Edit}
    (hallowed : ∀ edit ∈ edits, edit.IsAllowed listed)
    (hrun : (edits.forM Edit.run).run e = (.ok (), e₁)) :
    Rewritten e₀ listed (edits.foldl Changes.note c) e₁ := by
  induction edits generalizing e c with
  | nil =>
    cases hrun
    exact he
  | cons edit edits ih =>
    obtain ⟨hfirst, hrest⟩ := List.forall_mem_cons.mp hallowed
    obtain ⟨_, e', hedit, hrun⟩ := run_bind_eq_ok_iff.mp hrun
    exact ih (he.note hs hfirst hedit) hrest hrun

/-- A file laid out as it was, in which everything reads as it did but for certain changes. -/
structure KeepsLayout (e₀ : Editor) (listed : List EditorSymbol) (c : Changes) (e : Editor) : Prop where
  size : e.data.size = e₀.data.size
  parse : Editor.parse e.data e₀.strategy = .ok e
  /-- Every symbol is listed where it was. Those that are gone read as removed. -/
  symbols : ∃ found, e.symbols = .ok found ∧ List.Forall₂ (fun a b ↦
    b.index = a.index ∧ b.auxCount = a.auxCount ∧
      if a.index ∈ c.gone then b.isRemoved = true ∧ b.sectionNumber = e₀.strategy.sectionNumber
      else b = a) listed found
  sectionCount : e.sectionCount = e₀.sectionCount
  /-- Every section is listed where it was. Those that were dropped do not reach the image. -/
  sections : ∀ sections, e₀.sections = .ok sections → ∃ found, e.sections = .ok found ∧
    List.Forall₂ (fun a b ↦ b.number = a.number ∧
      if a.number ∈ c.dropped then b.isPartOfImage = false
      else b.name = a.name ∧ b.characteristics = a.characteristics) sections found
  /-- Sections that were dropped have no relocations. The others have theirs, with types as set. -/
  relocations : ∀ number, e.relocations number = if number ∈ c.dropped then .ok []
    else (e₀.relocations number).map (retyped c.types number)

theorem Rewritten.keepsLayout (he : Rewritten e₀ listed c e) (hs : e₀.Separation listed)
    (hparse : Editor.parse e₀.data e₀.strategy = .ok e₀) : KeepsLayout e₀ listed c e where
  size := he.size
  parse := he.parse hparse
  symbols := by
    refine ⟨_, he.symbols_eq hs, ?_⟩
    rw [List.forall₂_map_right_iff]
    refine List.forall₂_same.mpr fun s _ ↦ ⟨EditorSymbol.index_after .., EditorSymbol.auxCount_after ..,
      ?_⟩
    unfold EditorSymbol.after
    split
    · exact ⟨EditorSymbol.isRemoved_removed .., rfl⟩
    · rfl
  sectionCount := by rw [he.tables]
  sections _ hsections := he.exists_sections hs hsections
  relocations := he.relocations_eq hs

/-- However symbols are neutralized, sections dropped, types of relocations set and directives blanked
out, the file stays laid out as it was, and everything reads as it did but for these changes. What
symbols and sections are removed in which order makes no difference to the file. -/
theorem edits_keep_the_layout {data : Bytes} {strategy : RemovalStrategy}
    (hparse : parse data strategy = .ok e₀) (hlisted : e₀.symbols = .ok listed)
    (hseparate : e₀.IsSeparate listed) {edits : List Edit}
    (hallowed : ∀ edit ∈ edits, edit.IsAllowed listed)
    (hrun : (edits.forM Edit.run).run e₀ = (.ok (), e)) :
    KeepsLayout e₀ listed (changesOf edits) e ∧
      ∀ (removals removals' : List Removal) (e₁ : Editor), (∀ r ∈ removals, r.IsAllowed listed) →
        (∀ r, r ∈ removals ↔ r ∈ removals') →
        (removals.forM Removal.run).run e = (.ok (), e₁) →
        (removals'.forM Removal.run).run e = (.ok (), e₁) := by
  have hs := separation_of_isSeparate (fits_of_parse hparse) hlisted hseparate
  have he := Rewritten.refl.foldl_note hs hallowed hrun
  obtain ⟨hdata, hstrategy⟩ := data_of_parse hparse
  exact ⟨he.keepsLayout hs (by rw [hdata, hstrategy, hparse]), fun _ _ _ hallowed hsame hrun ↦
    run_removals_congr hs he hallowed hsame hrun⟩

/-! A file with a function that refers to itself, and directives. -/

namespace Sample

/-- The object file. -/
def data : Bytes :=
  -- The header of the file, and those of its sections.
  ([0x64, 0x86, 0x02, 0x00, 0x00, 0x00, 0x00, 0x00, 0x74, 0x00, 0x00, 0x00, 0x03, 0x00, 0x00, 0x00,
    0x00, 0x00, 0x00, 0x00]
  ++ [0x2e, 0x74, 0x65, 0x78, 0x74, 0x00, 0x00, 0x00, 0x00, 0x00, 0x00, 0x00, 0x00, 0x00, 0x00,
    0x00, 0x00, 0x00, 0x00, 0x00, 0x00, 0x00, 0x00, 0x00, 0x64, 0x00, 0x00, 0x00, 0x00, 0x00, 0x00,
    0x00, 0x01, 0x00, 0x00, 0x00, 0x20, 0x00, 0x00, 0x60]
  ++ [0x2e, 0x64, 0x72, 0x65, 0x63, 0x74, 0x76, 0x65, 0x00, 0x00, 0x00, 0x00, 0x00, 0x00, 0x00,
    0x00, 0x06, 0x00, 0x00, 0x00, 0x6e, 0x00, 0x00, 0x00, 0x00, 0x00, 0x00, 0x00, 0x00, 0x00, 0x00,
    0x00, 0x00, 0x00, 0x00, 0x00, 0x00, 0x0a, 0x10, 0x00]
  -- A relocation, and the directives.
  ++ [0x00, 0x00, 0x00, 0x00, 0x02, 0x00, 0x00, 0x00, 0x04, 0x00]
  ++ [0x2f, 0x61, 0x20, 0x2f, 0x62, 0x63]
  -- The symbol of a section with its definition, that of the function, and no names.
  ++ [0x2e, 0x74, 0x65, 0x78, 0x74, 0x00, 0x00, 0x00, 0x00, 0x00, 0x00, 0x00, 0x01, 0x00, 0x00,
    0x00, 0x03, 0x01, 0x00, 0x00, 0x00, 0x00, 0x01, 0x00, 0x00, 0x00, 0x00, 0x00, 0x00, 0x00, 0x00,
    0x00, 0x00, 0x00, 0x00, 0x00, 0x66, 0x6f, 0x6f, 0x00, 0x00, 0x00, 0x00, 0x00, 0x00, 0x00, 0x00,
    0x00, 0x01, 0x00, 0x20, 0x00, 0x02, 0x00]
  ++ [0x04, 0x00, 0x00, 0x00] : List UInt8).toArray

def file : Editor := ⟨data, .absolute, 20, 2, 116, 3, 170⟩

def symbols : List EditorSymbol := [⟨0, ".text", 0, 1, 3, 1⟩, ⟨2, "foo", 0, 1, 2, 0⟩]

/-- What is done first. -/
def edits : List Edit := [.setType 1 0 3, .filter (· != "/a")]

/-- What is removed then. -/
def removals : List Removal := [.ofSymbol 2, .ofSection 2]

theorem allowed : ∀ r ∈ [Removal.ofSymbol 2, .ofSection 1, .ofSection 2],
    r.IsAllowed symbols ∧ r.IsPossible file symbols := by
  simp [symbols, file, Removal.IsAllowed, Removal.IsPossible, definers,
    EditorSymbol.isSectionDefinition]

theorem removals_subset : removals ⊆ [.ofSymbol 2, .ofSection 1, .ofSection 2] := by
  simp [removals]

/-- The removals can be made at any time. -/
theorem exists_run (hs : file.Separation symbols) {removals : List Removal}
    (hsub : removals ⊆ [.ofSymbol 2, .ofSection 1, .ofSection 2]) (he : Rewritten file symbols c e) :
    ∃ e', (removals.forM Removal.run).run e = (.ok (), e') :=
  ⟨_, (run_removals_eq_ok_iff hs he fun r hr ↦ (allowed r (hsub hr)).1).mpr
    ⟨fun r hr ↦ (allowed r (hsub hr)).2, rfl⟩⟩

end Sample

/-- A type is set, a directive is rejected, the function is neutralized and the directives are
dropped; and then its section could go with it in either order. -/
theorem sample_keeps_its_layout : ∃ e e₁,
    parse Sample.data .absolute = .ok Sample.file ∧ Sample.file.symbols = .ok Sample.symbols ∧
    Sample.file.IsSeparate Sample.symbols ∧
    (∀ edit ∈ Sample.edits ++ Sample.removals.map Edit.remove, edit.IsAllowed Sample.symbols) ∧
    ((Sample.edits ++ Sample.removals.map Edit.remove).forM Edit.run).run Sample.file
      = (.ok (), e) ∧
    KeepsLayout Sample.file Sample.symbols ⟨[2], [2], [((1, 0), 3)]⟩ e ∧
    ([Removal.ofSymbol 2, .ofSection 1].forM Removal.run).run e = (.ok (), e₁) ∧
    ([Removal.ofSection 1, .ofSymbol 2].forM Removal.run).run e = (.ok (), e₁) := by
  have hparse : parse Sample.data .absolute = .ok Sample.file := parse_eq_ok (by decide +kernel)
  have hlisted : Sample.file.symbols = .ok Sample.symbols := by decide +kernel
  have hseparate : Sample.file.IsSeparate Sample.symbols := by decide +kernel
  have hs := separation_of_isSeparate (fits_of_parse hparse) hlisted hseparate
  have hfirst : ∀ edit ∈ Sample.edits, edit.IsAllowed Sample.symbols := by
    simp [Sample.edits, Edit.IsAllowed]
  have hallowed : ∀ edit ∈ Sample.edits ++ Sample.removals.map Edit.remove,
      edit.IsAllowed Sample.symbols := by
    intro edit hedit
    rcases List.mem_append.mp hedit with hedit | hedit
    · exact hfirst edit hedit
    · obtain ⟨r, hr, rfl⟩ := List.mem_map.mp hedit
      exact (Sample.allowed r (Sample.removals_subset hr)).1
  have hedited : (Sample.edits.forM Edit.run).run Sample.file = (.ok (), _) :=
    run_eq_of_result (by decide +kernel)
  obtain ⟨e, hremoved⟩ := Sample.exists_run hs Sample.removals_subset
    (Rewritten.refl.foldl_note hs hfirst hedited)
  have hrun : ((Sample.edits ++ Sample.removals.map Edit.remove).forM Edit.run).run Sample.file
      = (.ok (), e) := by
    have happend : (Sample.edits ++ Sample.removals.map Edit.remove).forM Edit.run
        = (Sample.edits.forM Edit.run >>= fun _ ↦ Sample.removals.forM Removal.run) :=
      List.forM_append
    rw [happend]
    exact run_bind_eq_ok_iff.mpr ⟨_, _, hedited, hremoved⟩
  obtain ⟨hkeeps, horder⟩ := edits_keep_the_layout hparse hlisted hseparate hallowed hrun
  have hsub : [Removal.ofSymbol 2, .ofSection 1] ⊆ [.ofSymbol 2, .ofSection 1, .ofSection 2] := by
    simp
  obtain ⟨e₁, hrun'⟩ := Sample.exists_run hs hsub (Rewritten.refl.foldl_note hs hallowed hrun)
  exact ⟨e, e₁, hparse, hlisted, hseparate, hallowed, hrun, hkeeps, hrun',
    horder [.ofSymbol 2, .ofSection 1] [.ofSection 1, .ofSymbol 2] _
      (fun r hr ↦ (Sample.allowed r (hsub hr)).1) (by simp [or_comm]) hrun'⟩

end LivePatch.Coff.Editor
