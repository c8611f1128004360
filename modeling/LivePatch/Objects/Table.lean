import LivePatch.Coff.Reader
import LivePatch.Paths.Fingerprint
import LivePatch.Relocation.Kind
import LivePatch.Tables.Names
import LivePatch.Text.CommandLine
import LivePatch.Word

/-!
# Tables of object files

What patching needs to know about an object file: its symbols, the relocations under the symbol
whose bytes they change, and its linker directives. References through a section's symbol are
resolved to the symbol at the referenced offset. Destinations with a reference that can never be
computed anew are remembered, so that they stay in the file.
-/

namespace LivePatch

/-- A reference to a symbol. -/
structure Relocation where
  /-- Offset of the field from the start of the symbol that owns it. -/
  offset : UInt32
  target : String
  /-- Distance from the destination. -/
  addend : Int64
  kind : RelocationKind
  deriving DecidableEq, Repr

/-- A symbol of an object file. -/
structure ObjectSymbol where
  /-- Index in the file's symbol table. -/
  index : Nat
  name : String
  /-- Number of its section. -/
  place : Option Nat
  /-- Offset in its section. -/
  offset : UInt32
  isFunction : Bool
  isExternal : Bool
  isUndefined : Bool
  isWeak : Bool
  relocations : List Relocation
  deriving DecidableEq, Repr

/-- The tables of one object file. -/
structure ObjectTable where
  path : Path
  unique : UInt32
  symbols : List ObjectSymbol
  directives : List String
  /-- Destinations that some reference cannot be redirected from. -/
  unpatchable : List String
  deriving DecidableEq, Repr

namespace ObjectTable

/-- Name of the section that holds linker directives. -/
def directiveSection : String := ".drectve"

/-- The offset of a symbol in its section. Symbols without an address lie at zero, whatever the
section's address. -/
def offsetIn (h : Coff.SectionHeader) (r : Coff.SymbolRecord) : Outcome UInt32 :=
  if r.hasAddress then .ok r.value
  else if h.virtualAddress = 0 then .ok 0
  else .error .fault

/-- A section symbol, or a symbol with its own place in the tables. -/
inductive Entry where
  | sectionSymbol (index number : Nat)
  | symbol (s : ObjectSymbol)

/-- The offset of a symbol in the section it lies in, if it lies in one. -/
def placeOffset (f : Coff.File) (r : Coff.SymbolRecord) : Option Nat → Outcome UInt32
  | none => .ok 0
  | some number => do
    let h ← orFail .malformed (f.section? number)
    offsetIn h r

/-- What one record of the symbol table contributes. Names local to the file carry the unit's
identifier. -/
def entry? (f : Coff.File) (unique : UInt32) (index : Nat) (r : Coff.SymbolRecord) :
    Outcome (Option Entry) := do
  let raw ← orFail .malformed (f.symbolName? index r)
  let listed (place : Option Nat) : Outcome (Option Entry) := do
    match r.kind with
    | .section => pure (place.map fun number ↦ .sectionSymbol index number)
    | .file | .label => pure none
    | kind =>
      let isUndefined := r.isUndefined || place.isNone
      let isExternal := r.isGlobal || isUndefined
      let name := if isExternal then raw else Names.localName raw unique
      let offset ← placeOffset f r place
      pure (some (.symbol ⟨index, name, place, offset, kind == .function, isExternal, isUndefined,
        r.isWeak, []⟩))
  match r.place with
  | .nowhere => pure none
  | .outside => listed none
  | .inSection number => listed (some number)

/-- The symbol of a section that starts last at or before an offset. Of several that start at one
offset it is the last in the table. -/
def symbolBefore? (symbols : List ObjectSymbol) (number : Nat) (offset : UInt32) :
    Option ObjectSymbol :=
  symbols.foldl (fun best s ↦
    if s.place = some number ∧ s.offset ≤ offset then
      match best with
      | some b => if b.offset ≤ s.offset then some s else some b
      | none => some s
    else best) none

/-- The number that a field holds before it is relocated, zero when it is not inside the data. -/
def implicitAddend (data : Bytes) (offset size : Nat) : Int64 :=
  if size = 4 then
    match data.u32At? offset with
    | some w => Int64.ofInt (Word.signed32 w)
    | none => 0
  else if size = 8 then
    match data.u64At? offset with
    | some w => Int64.ofInt (Word.signed64 w)
    | none => 0
  else 0

/-- Offset that a section reference points at, kept within 32 bits. -/
def clamped (a : Int64) : UInt32 :=
  if a.toInt < 0 then 0
  else if a.toInt < 0x100000000 then UInt32.ofNat a.toInt.toNat
  else 0xffffffff

/-- Distance of a referenced offset from the symbol found there. -/
def distance (a : Int64) (offset : UInt32) : Outcome Int64 :=
  let d := a.toInt - offset.toNat
  if -0x8000000000000000 ≤ d then .ok (Int64.ofInt d) else .error .fault

/-- Where a relocation leads: name of the destination and distance from it. -/
def destination? (symbols : List ObjectSymbol) (sectionSymbols : List (Nat × Nat))
    (target : Nat) (implicit : Int64) : Outcome (Option (String × Int64)) :=
  match sectionSymbols.lookup target with
  | some number =>
    match symbolBefore? symbols number (clamped implicit) with
    | some s => do
      let d ← distance implicit s.offset
      pure (some (s.name, d))
    | none => .ok none
  | none =>
    match symbols.find? fun s ↦ s.index == target with
    | some s => .ok (some (s.name, implicit))
    | none => .ok none

/-- What a relocation becomes: a reference of a symbol, or a destination that must stay. -/
inductive Reference where
  | owned (owner : Nat) (r : Relocation)
  | fixed (target : String)

/-- Resolves one relocation of a section. -/
def reference? (symbols : List ObjectSymbol) (sectionSymbols : List (Nat × Nat)) (number : Nat)
    (data : Bytes) (r : Coff.RawRelocation) : Outcome (Option Reference) := do
  match RelocationKind.ofNumber? r.typ with
  | none => pure none
  | some kind =>
    let implicit := implicitAddend data r.rva.toNat kind.size
    match ← destination? symbols sectionSymbols r.symbol implicit with
    | none => pure none
    | some (target, addend) =>
      match symbolBefore? symbols number r.rva with
      | some s =>
        if kind.isPatchable then
          pure (some (.owned s.index ⟨r.rva - s.offset, target, addend, kind⟩))
        else pure (some (.fixed target))
      | none => pure (some (.fixed target))

/-- What a section contributes: directives, and references. -/
structure SectionYield where
  directives : List String
  references : List Reference

/-- Tokens of a directive section. -/
def directivesOf (data : Bytes) : List String :=
  (Text.tokensFrom false [] (Text.withoutMarks (Text.Utf8.lossy data.toList))).map String.ofList

/-- Reads what one section contributes. -/
def sectionYield (f : Coff.File) (symbols : List ObjectSymbol) (sectionSymbols : List (Nat × Nat))
    (number : Nat) (h : Coff.SectionHeader) : Outcome SectionYield := do
  if f.sectionName h = directiveSection then
    let data ← orFail .malformed (f.sectionData? h)
    pure ⟨directivesOf data, []⟩
  else if Coff.isDebugSection h.characteristics then pure ⟨[], []⟩
  else
    let data ← orFail .malformed (f.sectionData? h)
    let found ← (f.relocations h).mapM fun r ↦ reference? symbols sectionSymbols number data r
    pure ⟨[], found.filterMap id⟩

/-- The symbols with their references, in the order of the sections. -/
def withReferences (symbols : List ObjectSymbol) (references : List Reference) :
    List ObjectSymbol :=
  symbols.map fun s ↦
    { s with relocations := references.filterMap fun
        | .owned owner r => if owner = s.index then some r else none
        | .fixed _ => none }

/-- The tables of the object file that data at a path holds. -/
def parse (path : Path) (data : Bytes) : Outcome ObjectTable := do
  let f ← orFail .malformed (Coff.File.parse? data)
  let unique := Fingerprint.ofPath path
  let entries ← f.symbols.mapM fun (index, r) ↦ entry? f unique index r
  let entries := entries.filterMap id
  let symbols := entries.filterMap fun
    | .symbol s => some s
    | .sectionSymbol _ _ => none
  let sectionSymbols := entries.filterMap fun
    | .symbol _ => none
    | .sectionSymbol index number => some (index, number)
  let yields ← (f.sections.zipIdx 1).mapM fun (h, number) ↦
    sectionYield f symbols sectionSymbols number h
  let references := yields.flatMap SectionYield.references
  let fixed := references.filterMap fun
    | .owned _ _ => none
    | .fixed target => some target
  pure ⟨path, unique, withReferences symbols references, yields.flatMap SectionYield.directives,
    fixed.eraseDups⟩

/-- The last symbol of a name. -/
def symbol? (t : ObjectTable) (name : String) : Option ObjectSymbol :=
  t.symbols.reverse.find? fun s ↦ s.name == name

/-- Symbols that the file defines. -/
def defined (t : ObjectTable) : List ObjectSymbol := t.symbols.filter fun s ↦ !s.isUndefined

/-- Symbols that the file refers to only. -/
def undefined (t : ObjectTable) : List ObjectSymbol := t.symbols.filter ObjectSymbol.isUndefined

/-- Names of the external symbols that the file defines. -/
def externalDefinitions (t : ObjectTable) : List String :=
  (t.defined.filter ObjectSymbol.isExternal).map ObjectSymbol.name

/-- Names of the external functions that the file defines. -/
def externalFunctions (t : ObjectTable) : List String :=
  (t.defined.filter fun s ↦ s.isExternal && s.isFunction).map ObjectSymbol.name

/-- Symbols that directives force to be included. -/
def includedSymbols (t : ObjectTable) : List String :=
  t.directives.filterMap Text.includedSymbol?

/-- Whether some reference to a name cannot be redirected. -/
def isUnpatchable (t : ObjectTable) (name : String) : Bool := t.unpatchable.contains name

end ObjectTable
end LivePatch
