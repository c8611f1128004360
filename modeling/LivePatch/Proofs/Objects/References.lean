import LivePatch.Build.Strip
import LivePatch.Proofs.Outcome

/-!
# References in object files

What the tables of an object file keep of its relocations. Each relocation outside the sections for
debuggers that leads somewhere is either listed under the symbol that owns its field, or it pins its
destination to the file. The check whether a name may be stripped from the file looks at exactly
these.
-/

namespace LivePatch.ObjectTable

/-- The name a reference leads to. -/
def Reference.target : Reference → String
  | .owned _ r => r.target
  | .fixed target => target

/-- What the tables of an object file are made of. -/
structure Parts where
  file : Coff.File
  /-- Symbols without their references. -/
  symbols : List ObjectSymbol
  /-- Indices of symbols that stand for sections. -/
  sectionSymbols : List (Nat × Nat)
  yields : List SectionYield

namespace Parts

/-- Reads the parts of an object file's tables. -/
def read (path : Path) (data : Bytes) : Outcome Parts := do
  let f ← orFail .malformed (Coff.File.parse? data)
  let entries ← f.symbols.mapM fun (index, r) ↦ entry? f (Fingerprint.ofPath path) index r
  let entries := entries.filterMap id
  let symbols := entries.filterMap fun
    | .symbol s => some s
    | .sectionSymbol _ _ => none
  let sectionSymbols := entries.filterMap fun
    | .symbol _ => none
    | .sectionSymbol index number => some (index, number)
  let yields ← (f.sections.zipIdx 1).mapM fun (h, number) ↦
    sectionYield f symbols sectionSymbols number h
  pure ⟨f, symbols, sectionSymbols, yields⟩

/-- The references in an object file. -/
def references (p : Parts) : List Reference := p.yields.flatMap SectionYield.references

/-- The tables with these parts. -/
def table (p : Parts) (path : Path) : ObjectTable where
  path := path
  unique := Fingerprint.ofPath path
  symbols := withReferences p.symbols p.references
  directives := p.yields.flatMap SectionYield.directives
  unpatchable := (p.references.filterMap fun
    | .owned _ _ => none
    | .fixed target => some target).eraseDups

/-- The tables of an object file are put together from their parts. -/
theorem parse_eq (path : Path) (data : Bytes) :
    parse path data = do return (← read path data).table path := by
  simp only [parse, read, bind_assoc, pure_bind]
  rfl

end Parts

/-- A reference in the object file that data at a path holds. -/
def IsReference (path : Path) (data : Bytes) (reference : Reference) : Prop :=
  ∃ p, Parts.read path data = .ok p ∧ reference ∈ p.references

/-- Whether a reference would be redirected if its destination were stripped: its field is owned by
a symbol from which references can be. -/
def Reference.IsRedirectable (t : ObjectTable) : Reference → Prop
  | .owned owner r => ∀ s ∈ t.defined, s.index = owner → r.isRedirectable s.name = true
  | .fixed _ => False

variable {path path' : Path} {data : Bytes} {t : ObjectTable} {name : String}

/-- The directives of an object file are those in its sections for directives. -/
theorem Parts.mem_directives_iff {p : Parts} (h : Parts.read path data = .ok p) {directive : String} :
    directive ∈ (p.table path).directives ↔ ∃ header ∈ p.file.sections,
      p.file.sectionName header = directiveSection ∧
        ∃ bytes, p.file.sectionData? header = some bytes ∧ directive ∈ directivesOf bytes := by
  obtain ⟨f, -, h⟩ := Outcome.bind_eq_ok_iff.mp h
  obtain ⟨entries, -, h⟩ := Outcome.bind_eq_ok_iff.mp h
  obtain ⟨yields, hyields, h⟩ := Outcome.bind_eq_ok_iff.mp h
  cases h
  have hyield : ∀ {symbols sectionSymbols number header y},
      sectionYield f symbols sectionSymbols number header = .ok y →
      (directive ∈ y.directives ↔ f.sectionName header = directiveSection ∧
        ∃ bytes, f.sectionData? header = some bytes ∧ directive ∈ directivesOf bytes) := by
    intro symbols sectionSymbols number header y hy
    unfold sectionYield at hy
    split at hy
    · next hname =>
      obtain ⟨bytes, hbytes, hy⟩ := Outcome.bind_eq_ok_iff.mp hy
      cases hy
      simp [hname, Outcome.orFail_eq_ok_iff.mp hbytes]
    · next hname =>
      split at hy
      · cases hy
        simp [hname]
      · obtain ⟨bytes, -, hy⟩ := Outcome.bind_eq_ok_iff.mp hy
        obtain ⟨found, -, hy⟩ := Outcome.bind_eq_ok_iff.mp hy
        cases hy
        simp [hname]
  rw [table, List.mem_flatMap]
  constructor
  · rintro ⟨y, hy, hmem⟩
    obtain ⟨⟨header, number⟩, hsection, hy⟩ := (Outcome.mem_mapM_iff hyields).mp hy
    exact ⟨header, List.fst_mem_of_mem_zipIdx hsection, (hyield hy).mp hmem⟩
  · rintro ⟨header, hsection, hfound⟩
    rw [← List.zipIdx_map_fst 1 f.sections] at hsection
    obtain ⟨numbered, hnumbered, rfl⟩ := List.mem_map.mp hsection
    obtain ⟨y, hy, hyielded⟩ := Pointwise.exists_right (Outcome.forall₂_of_mapM hyields) hnumbered
    exact ⟨y, hy, (hyield hyielded).mpr hfound⟩

/-- The file that parts were read from does not depend on its path. -/
theorem Parts.file_eq {p p' : Parts} (h : Parts.read path data = .ok p)
    (h' : Parts.read path' data = .ok p') : p.file = p'.file := by
  obtain ⟨f, hf, h⟩ := Outcome.bind_eq_ok_iff.mp h
  obtain ⟨entries, -, h⟩ := Outcome.bind_eq_ok_iff.mp h
  obtain ⟨yields, -, h⟩ := Outcome.bind_eq_ok_iff.mp h
  cases h
  obtain ⟨f', hf', h'⟩ := Outcome.bind_eq_ok_iff.mp h'
  obtain ⟨entries', -, h'⟩ := Outcome.bind_eq_ok_iff.mp h'
  obtain ⟨yields', -, h'⟩ := Outcome.bind_eq_ok_iff.mp h'
  cases h'
  exact Except.ok.inj (hf.symm.trans hf')

/-- The symbols of an object file own the references under them. -/
theorem Parts.mem_relocations_iff {p : Parts} {s : ObjectSymbol} (hs : s ∈ (p.table path).symbols)
    {r : Relocation} : r ∈ s.relocations ↔ Reference.owned s.index r ∈ p.references := by
  obtain ⟨bare, -, rfl⟩ := List.mem_map.mp hs
  rw [List.mem_filterMap]
  constructor
  · rintro ⟨reference, hmem, hr⟩
    split at hr
    · split at hr
      · next howner =>
        cases hr
        exact howner ▸ hmem
      · cases hr
    · cases hr
  · exact fun hmem ↦ ⟨_, hmem, if_pos rfl⟩

/-- The names that an object file pins have a reference that can never be redirected. -/
theorem Parts.isUnpatchable_iff {p : Parts} :
    (p.table path).isUnpatchable name = true ↔ Reference.fixed name ∈ p.references := by
  unfold isUnpatchable
  rw [List.contains_iff_mem, table, List.mem_eraseDups, List.mem_filterMap]
  constructor
  · rintro ⟨reference, hmem, hname⟩
    split at hname
    · cases hname
    · cases hname
      exact hmem
  · exact fun hmem ↦ ⟨_, hmem, rfl⟩

/-- A name may be stripped from an object file exactly when references to it are redirected at all,
it exists already, and every reference of the file to it would be redirected. -/
theorem canStrip_iff (h : parse path data = .ok t) {registry : Registry} :
    t.canStrip registry name = true ↔
      Names.isRedirectable name = true ∧ registry.containsSymbol name = true ∧
        ∀ reference, IsReference path data reference → reference.target = name →
          reference.IsRedirectable t := by
  rw [Parts.parse_eq] at h
  obtain ⟨p, hp, h⟩ := Outcome.bind_eq_ok_iff.mp h
  cases h
  have hcheck : (p.table path).canStrip registry name = true ↔
      Names.isRedirectable name = true ∧ registry.containsSymbol name = true ∧
        (p.table path).isUnpatchable name = false ∧ ∀ s ∈ (p.table path).defined,
          ∀ r ∈ s.relocations, r.target = name → r.isRedirectable s.name = true := by
    unfold canStrip
    simp only [Bool.and_eq_true, Bool.not_eq_true', List.all_eq_true, Bool.or_eq_true, bne_iff_ne,
      ne_eq, Decidable.imp_iff_not_or]
    tauto
  rw [hcheck]
  refine and_congr_right fun _ ↦ and_congr_right fun _ ↦ ?_
  have hsymbol : ∀ s ∈ (p.table path).defined, s ∈ (p.table path).symbols :=
    fun s hs ↦ (List.mem_filter.mp hs).1
  constructor
  · rintro ⟨hpinned, howned⟩ reference ⟨p', hp', hmem⟩ htarget
    cases hp.symm.trans hp'
    cases reference with
    | owned owner r =>
      rintro s hs rfl
      exact howned s hs r ((Parts.mem_relocations_iff (hsymbol s hs)).mpr hmem) htarget
    | fixed target =>
      cases htarget
      exact Bool.eq_false_iff.mp hpinned (Parts.isUnpatchable_iff.mpr hmem)
  · intro hall
    refine ⟨Bool.eq_false_iff.mpr fun hpinned ↦ ?_, fun s hs r hr htarget ↦ ?_⟩
    · exact hall _ ⟨p, hp, Parts.isUnpatchable_iff.mp hpinned⟩ rfl
    · exact hall _ ⟨p, hp, (Parts.mem_relocations_iff (hsymbol s hs)).mp hr⟩ htarget s hs rfl

end LivePatch.ObjectTable
