import LivePatch.Build.Closure
import LivePatch.Objects.File
import LivePatch.Redirect.Reference

/-!
# Stripped object files

Before a patch is linked, its object files lose every symbol whose existing instance must be used in
the place of a fresh one: data, so that state survives, and everything defined outside the
recompiled units. References to such a symbol are redirected into the loaded images later. Sections
whose definitions were all stripped are dropped. Files are edited in place, each with a backup
next to it.
-/

namespace LivePatch

/-- One object file being stripped. -/
structure Stripping where
  path : Path
  editor : Coff.Editor
  table : ObjectTable
  /-- Names of the removed symbols. -/
  removed : List String
  /-- Names that are removed in every file, since their definition lies outside the recompiled
  units. -/
  forced : List String
  /-- Sections that held a removed definition. -/
  emptied : List Nat

/-- Stripping one file, which keeps what it changed before it stopped short. -/
abbrev StripM := ExceptT Stop (StateM Stripping)

namespace ObjectTable

/-- Whether a symbol may be replaced by its existing instance: all references to it from here would
be redirected. -/
def canStrip (t : ObjectTable) (registry : Registry) (name : String) : Bool :=
  Names.isRedirectable name && !t.isUnpatchable name && registry.containsSymbol name
    && t.defined.all fun source ↦
      source.relocations.all fun r ↦ r.target != name || r.isRedirectable source.name

end ObjectTable

/-- Whether a linker directive is kept. Those that would break the patch, or include what is loaded
already, are not. -/
def keepsDirective (registry : Registry) (directive : String) : Bool :=
  let body := directive.toList.dropWhile fun c ↦ c == '/' || c == '-'
  if Text.sameIgnoringCase body "editandcontinue".toList
      || Text.sameIgnoringCase (body.take 7) "export:".toList then false
  else match Text.includedSymbol? directive with
    | some symbol => !registry.containsSymbol symbol
    | none => true

namespace Stripping

/-- Works on the bytes of the file. -/
def edit {α : Type} (act : Coff.EditM α) : StripM α :=
  ExceptT.mk fun s ↦
    let (result, editor) := act.run s.editor
    (result, { s with editor := editor })

/-- The symbol that a record of the file stands for. -/
def symbolAt? (t : ObjectTable) (raw : Coff.EditorSymbol) : Option ObjectSymbol :=
  t.symbols.find? fun s ↦ s.index == raw.index

/-- Removes a symbol. -/
def remove (raw : Coff.EditorSymbol) (name : String) : StripM Unit := do
  edit (Coff.Editor.removeSymbol raw.index)
  modify fun s ↦
    { s with
      emptied := if 0 < raw.sectionNumber then raw.sectionNumber.toNat :: s.emptied else s.emptied
      removed := if s.removed.contains name then s.removed else name :: s.removed }

/-- Notes that a name is to be removed in every file. -/
def force (name : String) : StripM Unit :=
  modify fun s ↦ { s with forced := if s.forced.contains name then s.forced else name :: s.forced }

/-- Whether a reference to a symbol defined elsewhere is stripped: if the symbol belongs to the
recompiled units then as any other, else always when it exists. -/
def isForced (registry : Registry) (recompiled : PathSet) (owners : SymbolOwners) (name : String) :
    Bool :=
  !((owners.lookup name).any recompiled.contains) && registry.containsSymbol name

/-- Strips one symbol if its existing instance is to be used. -/
def stripSymbol (registry : Registry) (recompiled : PathSet) (owners : SymbolOwners)
    (raw : Coff.EditorSymbol) : StripM Unit := do
  if raw.sectionNumber < 0 || raw.isSectionDefinition then return
  let t := (← get).table
  match symbolAt? t raw with
  | none => pure ()
  | some s =>
    if Names.isCompilerGenerated s.name then pure ()
    else if s.isUndefined then
      if isForced registry recompiled owners s.name then
        force s.name
        remove raw s.name
      else if (owners.lookup s.name).any recompiled.contains && t.canStrip registry s.name then
        remove raw s.name
      else pure ()
    else if !s.isFunction && t.canStrip registry s.name then remove raw s.name
    else pure ()

/-- Strips the symbols of a file whose existing instances are to be used, and its directives. -/
def stripKnown (registry : Registry) (recompiled : PathSet) (owners : SymbolOwners) :
    StripM Unit := do
  let symbols ← (← get).editor.symbols
  symbols.forM (stripSymbol registry recompiled owners)
  let _ ← edit (Coff.Editor.filterDirectives (keepsDirective registry))

/-- Strips one reference whose symbol was stripped in some file. -/
def stripReference (everywhere : List String) (raw : Coff.EditorSymbol) : StripM Unit := do
  if raw.sectionNumber != 0 || raw.isRemoved then return
  let s ← get
  match (symbolAt? s.table raw).filter ObjectSymbol.isUndefined with
  | none => pure ()
  | some symbol =>
    if everywhere.contains symbol.name && !s.removed.contains symbol.name then
      remove raw symbol.name
      force symbol.name
    else pure ()

/-- Strips all references whose symbols were stripped in some file. -/
def stripReferences (everywhere : List String) : StripM Unit := do
  (← (← get).editor.symbols).forM (stripReference everywhere)

/-- Sections by the symbol that carries their definition. -/
def definitionSections (symbols : List Coff.EditorSymbol) : List (Nat × Nat) :=
  (symbols.filter fun s ↦ s.isSectionDefinition && 0 < s.sectionNumber).map fun s ↦
    (s.index, s.sectionNumber.toNat)

/-- Whether a symbol is alive and lies in a section, which it does not stand for. -/
def livesIn (number : Nat) (s : Coff.EditorSymbol) : Bool :=
  s.sectionNumber == (number : Int) && 0 < s.sectionNumber && !s.isSectionDefinition
    && !s.isRemoved

/-- Emptied sections of the image in which no symbol lives any more. -/
def emptiedSections (sections : List Coff.EditorSection) (symbols : List Coff.EditorSymbol)
    (emptied : List Nat) : List Nat :=
  (sections.filter fun s ↦
    emptied.contains s.number && s.isPartOfImage && !symbols.any (livesIn s.number)).map
      Coff.EditorSection.number

/-- Takes the targets of one kept section's relocations from the candidates. Answers the candidates
that are left and the sections that are kept in addition, the last one first. -/
def keepTargets (definitions : List (Nat × Nat)) (number : Nat) :
    List Coff.RawRelocation → List Nat × List Nat → List Nat × List Nat
  | [], state => state
  | r :: rest, (candidates, kept) =>
    match definitions.lookup r.symbol with
    | some target =>
      if target != number && candidates.contains target then
        keepTargets definitions number rest (candidates.filter (· != target), target :: kept)
      else keepTargets definitions number rest (candidates, kept)
    | none => keepTargets definitions number rest (candidates, kept)

/-- Takes what kept sections refer to through section symbols from the candidates; a section kept
that way keeps its own targets. Every section is kept once, so `fuel` bounds their number. -/
def keepReferenced (e : Coff.Editor) (definitions : List (Nat × Nat)) :
    Nat → List Nat → List Nat → Outcome (List Nat)
  | 0, candidates, _ => .ok candidates
  | _, candidates, [] => .ok candidates
  | fuel + 1, candidates, number :: kept => do
    let relocations ← e.relocations number
    let (candidates, kept) := keepTargets definitions number relocations (candidates, kept)
    keepReferenced e definitions fuel candidates kept

/-- Adds sections that go along with a candidate, until there are none. Every round adds a section,
so `fuel` bounds their number. -/
def withAssociated (sections : List Coff.EditorSection) : Nat → List Nat → List Nat
  | 0, candidates => candidates
  | fuel + 1, candidates =>
    let associated := (sections.filter fun s ↦
      !candidates.contains s.number && s.isAssociatedWith candidates.contains).map
        Coff.EditorSection.number
    if associated.isEmpty then candidates
    else withAssociated sections fuel (candidates ++ associated)

/-- Whether a symbol can go with its section: local ones can, others if they may be stripped. -/
def canLeave (registry : Registry) (t : ObjectTable) (raw : Coff.EditorSymbol) (name : String) :
    Bool :=
  raw.storageClass == Coff.classStatic || raw.storageClass == Coff.classLabel
    || t.canStrip registry name

/-- Looks at the symbols that live in candidates. One that cannot go keeps its section. Answers the
candidates that are left, and the symbols that can go with their names. -/
def leftovers (registry : Registry) (t : ObjectTable) :
    List Coff.EditorSymbol → List Nat → List Nat × List (Coff.EditorSymbol × String)
  | [], candidates => (candidates, [])
  | raw :: rest, candidates =>
    if candidates.any fun number ↦ livesIn number raw then
      let name := ((symbolAt? t raw).map ObjectSymbol.name).getD raw.name
      if canLeave registry t raw name then
        let (candidates, more) := leftovers registry t rest candidates
        (candidates, (raw, name) :: more)
      else leftovers registry t rest (candidates.filter (· != raw.sectionNumber.toNat))
    else leftovers registry t rest candidates

/-- The sections to drop, in ascending order, and the symbols that go with them. -/
def planSections (s : Stripping) (registry : Registry) :
    Outcome (List Nat × List (Coff.EditorSymbol × String)) := do
  let symbols ← s.editor.symbols
  let sections ← s.editor.sections
  let emptied := emptiedSections sections symbols s.emptied
  let kept := (sections.filter fun c ↦ c.isPartOfImage && !emptied.contains c.number).map
    Coff.EditorSection.number
  let candidates ← keepReferenced s.editor (definitionSections symbols) (sections.length + 1)
    emptied kept.reverse
  let candidates := withAssociated sections (sections.length + 1) candidates
  let (candidates, symbols) := leftovers registry s.table symbols candidates
  pure ((sections.map Coff.EditorSection.number).filter candidates.contains,
    symbols.filter fun (raw, _) ↦ candidates.contains raw.sectionNumber.toNat)

/-- Drops sections whose definitions were all stripped, along with what is associated with them. -/
def removeEmptied (registry : Registry) : StripM Unit := do
  let s ← get
  if s.emptied.isEmpty then pure ()
  else
    let (sections, symbols) ← s.planSections registry
    symbols.forM fun (raw, name) ↦ remove raw name
    sections.forM fun number ↦ edit (Coff.Editor.removeSection number)

/-- Makes section-relative references of one section to removed symbols image-relative. -/
def retargetSection (removed : List Nat) (s : Coff.EditorSection) : Coff.EditM Unit := do
  if !s.isPartOfImage || s.isDiscardable then return
  let relocations ← (← get).relocations s.number
  (relocations.zipIdx.filter fun (r, _) ↦
      r.typ == RelocationKind.sectionRelativeNumber && removed.contains r.symbol).forM
    fun (_, index) ↦
      Coff.Editor.setRelocationType s.number index RelocationKind.narrowRvaNumber

/-- Makes section-relative references to removed symbols image-relative: linkers that know absolute
symbols reject the former, and accept the latter, which are redirected anyway. -/
def retarget : Coff.EditM Unit := do
  let e ← get
  let removed := ((← e.symbols).filter Coff.EditorSymbol.isRemoved).map Coff.EditorSymbol.index
  if removed.isEmpty then pure ()
  else (← e.sections).forM (retargetSection removed)

/-- What is done to a file once it is known what is stripped everywhere. -/
def finish (registry : Registry) (strategy : RemovalStrategy) : StripM Unit := do
  removeEmptied registry
  if strategy = .absolute then edit retarget

end Stripping

/-- What stripping did to the object files of a patch. -/
structure Stripped where
  /-- Names of the symbols removed from each file. -/
  symbols : PathMap (List String)
  /-- Files that were backed up. -/
  backedUp : List Path

namespace Stripped

/-- Nothing was stripped. -/
def empty : Stripped := ⟨∅, []⟩

/-- Names of the symbols removed from a file. -/
def namesIn (s : Stripped) (object : Path) : List String := (s.symbols.find? object).getD []

/-- Puts files back from their backups. Goes on after a failure and reports the first one. -/
def restoreEach : List Path → WorkshopM Unit
  | [] => pure ()
  | object :: rest => ExceptT.mk do
    match ← (Workshop.onFiles (Backup.restore object)).run with
    | .ok () => (restoreEach rest).run
    | .error stop =>
      let _ ← (restoreEach rest).run
      pure (.error stop)

/-- Puts every file back that was backed up. -/
def restore (s : Stripped) : WorkshopM Unit := restoreEach s.backedUp

end Stripped
end LivePatch
