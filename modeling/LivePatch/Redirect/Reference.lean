import LivePatch.Objects.Table
import LivePatch.Registry.Basic
import LivePatch.Relocation.Field

/-!
# Redirected references

The linker resolves every reference of a patch against the patch itself. References to symbols that
were stripped, or whose existing instance must be kept, are redirected into an older image once the
patch is loaded. Data and stripped destinations are redirected before the entry point runs, since
initializers may read them; the others afterwards, so that initializers call the new functions.
-/

namespace LivePatch

/-- When a reference is redirected. -/
inductive Phase where
  | preEntry
  | postEntry
  deriving DecidableEq, Repr

namespace Phase

/-- The phase in which references to a destination are redirected. -/
def of (isFunction isStripped : Bool) : Phase :=
  if isFunction && !isStripped then .postEntry else .preEntry

end Phase

/-- A redirection of one field of a patch, in addresses relative to images. -/
structure ReferenceRedirection where
  kind : RelocationKind
  /-- Where the field lies in the patch. -/
  patchRva : UInt32
  /-- The image of the destination. -/
  target : Token
  targetRva : UInt32
  addend : Int64
  deriving DecidableEq, Repr

namespace ReferenceRedirection

/-- Writes the field. The value depends on nothing but the record and the bases, so doing it again
changes nothing. -/
def apply (r : ReferenceRedirection) (patch : Mapping) (bases : List (Option UInt64)) :
    TargetM Unit := do
  match Registry.baseOf? bases r.target with
  | none => fail (.notLoaded r.target.index (← get).pid)
  | some base =>
    let p ← patch.address r.patchRva
    let s ← orFault (Word.add64? base r.targetRva.toUInt64)
    let field ← patch.read r.patchRva r.kind.size
    let field ← Field.relocate r.kind p s r.addend patch.base field
    patch.write r.patchRva field

end ReferenceRedirection

namespace Relocation

/-- Whether a reference from a symbol would be redirected if its destination were stripped. -/
def isRedirectable (r : Relocation) (source : String) : Bool :=
  r.kind.isPatchable && Names.isRedirectable r.target && !Names.isException source
    && !Names.isTypeLocator source

end Relocation

namespace ImageTables

/-- Whether the symbol at an address of an image came from an object file. What no object file is
known for counts as coming from any. -/
def isContributedBy (t : ImageTables) (rva : UInt32) (object : Path) : Outcome Bool := do
  match ← t.contributions.objectAt rva with
  | some contributor => pure (contributor.normalized == object.normalized)
  | none => pure true

/-- Whether an image has a definition of a symbol from one of its own units. -/
def definesFreshly (t : ImageTables) (name : String) : Outcome Bool := do
  match t.symbols.find? name with
  | none => pure false
  | some rva =>
    match ← t.contributions.objectAt rva with
    | some object => pure (t.compilands.contains object)
    | none => pure false

end ImageTables

/-- What redirections of references are decided on: the images, the patch among them, and its
tables. -/
structure PatchView where
  registry : Registry
  token : Token
  tables : ImageTables

namespace PatchView

/-- The redirection of a reference from a symbol, none when the linker's own resolution stands: a
fresh definition from one of the patch's units takes the place of an old one, unless the symbol was
stripped. -/
def resolve (v : PatchView) (r : Relocation) (source : String) (sourceRva : UInt32)
    (stripped : List String) : Outcome (Option ReferenceRedirection) := do
  if !r.isRedirectable source then pure none
  else match v.registry.findSymbol? (some v.token) r.target with
    | none => pure none
    | some existing =>
      let isFresh ←
        if stripped.contains r.target then pure false else v.tables.definesFreshly r.target
      if isFresh then pure none
      else
        let field ← orFault (Word.add32? sourceRva r.offset)
        pure (some ⟨r.kind, field, existing.token, existing.rva, r.addend⟩)

/-- The phase in which a reference from an object file is redirected. -/
def phaseOf (object : ObjectTable) (stripped : List String) (r : Relocation) : Phase :=
  .of ((object.symbol? r.target).any ObjectSymbol.isFunction) (stripped.contains r.target)

/-- The redirections of one phase for a symbol of an object file. Symbols that the linker discarded
or took from another unit have none. -/
def collectSymbol (v : PatchView) (phase : Phase) (object : ObjectTable) (stripped : List String)
    (s : ObjectSymbol) : Outcome (List ReferenceRedirection) := do
  if s.relocations.isEmpty then pure []
  else match v.tables.symbols.find? s.name with
    | none => pure []
    | some rva =>
      if ← v.tables.isContributedBy rva object.path then
        let found ← (s.relocations.filter fun r ↦ phaseOf object stripped r == phase).mapM fun r ↦
          v.resolve r s.name rva stripped
        pure (found.filterMap id)
      else pure []

/-- The redirections of one phase for an object file that was linked into the patch. -/
def collect (v : PatchView) (phase : Phase) (object : ObjectTable) (stripped : List String) :
    Outcome (List ReferenceRedirection) := do
  return (← object.defined.mapM (v.collectSymbol phase object stripped)).flatten

end PatchView
end LivePatch
