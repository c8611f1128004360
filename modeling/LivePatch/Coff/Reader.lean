import LivePatch.Coff.Layout
import LivePatch.Failure
import LivePatch.Text.Utf8

/-!
# Reading object files

The sections, symbols and relocations of an object file as the format defines them. A file whose
tables do not fit is malformed; what only some records need, such as their names in the string
table, is judged when it is asked for.
-/

namespace LivePatch.Coff

/-- Where names that do not fit their records are kept: a window of the file. -/
structure StringTable where
  first : Nat
  last : Nat

/-- The text at an offset of a string table: up to the first zero byte, which must be there. -/
def StringTable.at? (t : StringTable) (data : Bytes) (offset : Nat) : Option (List UInt8) := do
  let window ←
    if t.first + offset ≤ t.last then data.slice? (t.first + offset) (t.last - (t.first + offset))
    else none
  if window.contains 0 then pure (Bytes.beforeNul window.toList) else none

/-- Which section a symbol lies in. -/
inductive Place where
  /-- Defined elsewhere, or of a size that the linker is still to reserve. -/
  | outside
  | inSection (number : Nat)
  /-- Not a place that references could be followed to. -/
  | nowhere
  deriving DecidableEq, Repr

/-- What a symbol stands for. -/
inductive SymbolKind where
  | function
  | data
  | section
  | file
  | label
  | other
  deriving DecidableEq, Repr

/-- An object file whose tables fit. -/
structure File where
  data : Bytes
  sections : List SectionHeader
  symbolsAt : Nat
  symbolCount : Nat
  strings : Option StringTable

namespace File

/-- The records of the section table. -/
def sectionsAt? (data : Bytes) (offset count : Nat) : Option (List SectionHeader) :=
  if offset + count * sectionHeaderSize ≤ data.size then
    (List.range count).mapM fun i ↦ SectionHeader.read? data (offset + i * sectionHeaderSize)
  else none

/-- Reads the tables of an object file. -/
def parse? (data : Bytes) : Option File := do
  let h ← Header.read? data
  let sections ← sectionsAt? data (headerSize + h.optionalSize) h.sectionCount
  if h.symbolPointer = 0 then pure ⟨data, sections, 0, 0, none⟩
  else
    let stringsAt := h.symbolPointer + h.symbolCount * symbolSize
    let length ← data.numberAt? stringsAt 4
    pure ⟨data, sections, h.symbolPointer, h.symbolCount, some ⟨stringsAt, stringsAt + length⟩⟩

/-- A record of the symbol table. -/
def record? (f : File) (index : Nat) : Option SymbolRecord :=
  if index < f.symbolCount then SymbolRecord.read? f.data (f.symbolsAt + index * symbolSize)
  else none

/-- The symbols from an index on, without the auxiliary records behind them. At most `fuel` of
them are read. -/
def symbolsFrom (f : File) : Nat → Nat → List (Nat × SymbolRecord)
  | 0, _ => []
  | fuel + 1, index =>
    match f.record? index with
    | none => []
    | some r => (index, r) :: symbolsFrom f fuel (index + 1 + r.auxCount)

/-- The symbols of a file with their indices in the symbol table. -/
def symbols (f : File) : List (Nat × SymbolRecord) := f.symbolsFrom f.symbolCount 0

/-- The text at an offset of the string table. -/
def string? (f : File) (offset : Nat) : Option (List UInt8) :=
  f.strings.bind fun t ↦ t.at? f.data offset

/-- The bytes of a symbol's name. Names of source files stand in the records behind theirs. -/
def nameBytes? (f : File) (index : Nat) (r : SymbolRecord) : Option (List UInt8) :=
  if r.storageClass = classFile ∧ 0 < r.auxCount then
    if index + r.auxCount < f.symbolCount then do
      let raw ← f.data.slice? (f.symbolsAt + (index + 1) * symbolSize) (r.auxCount * symbolSize)
      pure (Bytes.beforeNul raw.toList)
    else none
  else if r.name.head? = some 0 then f.string? (Bytes.number (r.name.drop 4))
  else some (Bytes.beforeNul r.name)

/-- The name of a symbol. -/
def symbolName? (f : File) (index : Nat) (r : SymbolRecord) : Option String := do
  let bytes ← f.nameBytes? index r
  let text ← Text.Utf8.strict? bytes
  pure (String.ofList text)

/-- The section of a number, which counts from one. -/
def section? (f : File) (number : Nat) : Option SectionHeader :=
  if number = 0 then none else f.sections[number - 1]?

/-- A digit of an offset in base 64. -/
def base64Digit? (b : UInt8) : Option Nat :=
  let n := b.toNat
  if 0x41 ≤ n ∧ n ≤ 0x5a then some (n - 0x41)
  else if 0x61 ≤ n ∧ n ≤ 0x7a then some (n - 0x61 + 26)
  else if 0x30 ≤ n ∧ n ≤ 0x39 then some (n - 0x30 + 52)
  else if n = 0x2b then some 62
  else if n = 0x2f then some 63
  else none

/-- A decimal digit. -/
def decimalDigit? (b : UInt8) : Option Nat :=
  if 0x30 ≤ b.toNat ∧ b.toNat ≤ 0x39 then some (b.toNat - 0x30) else none

/-- The number that digits make in a base. -/
def ofDigits (base : Nat) (digits : List Nat) : Nat := digits.foldl (fun n d ↦ n * base + d) 0

/-- The bytes of a section's name: in the record, or at an offset of the string table that the
record gives in decimal or base 64. -/
def sectionNameBytes? (f : File) (h : SectionHeader) : Option (List UInt8) :=
  match h.name with
  | 0x2f :: 0x2f :: digits => do
    let offset := ofDigits 64 (← digits.mapM base64Digit?)
    if offset < 0x100000000 then f.string? offset else none
  | 0x2f :: digits => do
    f.string? (ofDigits 10 (← (Bytes.beforeNul digits).mapM decimalDigit?))
  | name => some (Bytes.beforeNul name)

/-- The name of a section, empty when it cannot be read. -/
def sectionName (f : File) (h : SectionHeader) : String :=
  match (f.sectionNameBytes? h).bind Text.Utf8.strict? with
  | some text => String.ofList text
  | none => ""

/-- The data of a section, which must be in the file unless the section has none. -/
def sectionData? (f : File) (h : SectionHeader) : Option Bytes :=
  if hasFlag h.characteristics flagUninitialized then some #[]
  else f.data.slice? h.rawPointer h.rawSize

/-- The relocations of a section, none when their table cannot be read. A count that does not fit
its field stands in the first record, which it counts. -/
def relocations (f : File) (h : SectionHeader) : List RawRelocation :=
  let table :=
    if h.relocationCount = 0xffff ∧ hasFlag h.characteristics flagOverflow then do
      let first ← RawRelocation.read? f.data h.relocationPointer
      if first.rva = 0 then none
      else relocationsAt? f.data (h.relocationPointer + relocationSize) (first.rva.toNat - 1)
    else relocationsAt? f.data h.relocationPointer h.relocationCount
  table.getD []

end File

namespace SymbolRecord

/-- The section number as it is meant: small numbers count sections, large ones are negative. -/
def sectionIndex (r : SymbolRecord) : Int :=
  if r.sectionNumber.toNat < 0xfeff then r.sectionNumber.toNat
  else (r.sectionNumber.toNat : Int) - 0x10000

/-- Which section a symbol lies in. -/
def place (r : SymbolRecord) : Place :=
  if r.sectionIndex = 0 then
    if r.storageClass = classExternal ∨ r.storageClass = classSection then .outside else .nowhere
  else if 0 < r.sectionIndex then .inSection r.sectionIndex.toNat
  else .nowhere

/-- Whether the type of a symbol says that it is a function. -/
def isFunctionType (r : SymbolRecord) : Bool := r.typ.toNat / 16 % 4 == 2

/-- What a symbol stands for. -/
def kind (r : SymbolRecord) : SymbolKind :=
  let derived := if r.isFunctionType then SymbolKind.function else .data
  if r.storageClass = classStatic then
    if 0 < r.auxCount ∧ r.typ = 0 then .section else derived
  else if r.storageClass = classExternal ∨ r.storageClass = classWeak then derived
  else if r.storageClass = classSection then .section
  else if r.storageClass = classFile then .file
  else if r.storageClass = classLabel then .label
  else .other

/-- Whether a symbol is defined elsewhere. -/
def isUndefined (r : SymbolRecord) : Bool :=
  r.storageClass == classExternal && r.sectionIndex == 0 && r.value == 0

/-- Whether a symbol is weak. -/
def isWeak (r : SymbolRecord) : Bool := r.storageClass == classWeak

/-- Whether a symbol is seen by other files. -/
def isGlobal (r : SymbolRecord) : Bool :=
  r.storageClass == classExternal || r.storageClass == classWeak

/-- Whether the value of a symbol is an offset into its section. -/
def hasAddress (r : SymbolRecord) : Bool :=
  r.isGlobal || r.storageClass == classStatic || r.storageClass == classLabel

end SymbolRecord
end LivePatch.Coff
