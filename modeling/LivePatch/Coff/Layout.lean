import LivePatch.Bytes

/-!
# Layout of COFF object files

The fixed records of an object file, read at byte offsets, and the numbers and flags in them. A
record is read when all of its bytes are there; what its fields mean is for the readers to judge.
-/

namespace LivePatch.Coff

/-- The machine number of x86_64. -/
def machineAmd64 : UInt16 := 0x8664

/-- Size of the file header. -/
def headerSize : Nat := 20

/-- Size of a section header. -/
def sectionHeaderSize : Nat := 40

/-- Size of a record of the symbol table. -/
def symbolSize : Nat := 18

/-- Size of a relocation. -/
def relocationSize : Nat := 10

/-- Section flag: there is no data in the file. -/
def flagUninitialized : UInt32 := 0x80

/-- Section flag: information for the linker only. -/
def flagInfo : UInt32 := 0x200

/-- Section flag: left out of the image. -/
def flagRemove : UInt32 := 0x800

/-- Section flag: one of several definitions is chosen. -/
def flagComdat : UInt32 := 0x1000

/-- Section flag: the count of relocations does not fit its field. -/
def flagOverflow : UInt32 := 0x01000000

/-- Section flag: can be discarded. -/
def flagDiscardable : UInt32 := 0x02000000

/-- Storage class of removed symbols. -/
def classNull : UInt8 := 0

/-- Storage class of external symbols. -/
def classExternal : UInt8 := 2

/-- Storage class of static symbols. -/
def classStatic : UInt8 := 3

/-- Storage class of labels. -/
def classLabel : UInt8 := 6

/-- Storage class of file names. -/
def classFile : UInt8 := 103

/-- Storage class of section names. -/
def classSection : UInt8 := 104

/-- Storage class of weak external symbols. -/
def classWeak : UInt8 := 105

/-- Selection of a definition: any will do. -/
def selectAny : UInt8 := 2

/-- Selection of a definition: along with the section it is associated with. -/
def selectAssociative : UInt8 := 5

/-- Whether one of the flags is set. -/
def hasFlag (characteristics flags : UInt32) : Bool := characteristics &&& flags != 0

/-- Whether a section with these flags never reaches memory. -/
def isDebugSection (characteristics : UInt32) : Bool :=
  hasFlag characteristics (flagDiscardable ||| flagInfo ||| flagRemove)

/-- The file header. -/
structure Header where
  machine : UInt16
  sectionCount : Nat
  symbolPointer : Nat
  symbolCount : Nat
  optionalSize : Nat

/-- A section header. -/
structure SectionHeader where
  name : List UInt8
  virtualSize : UInt32
  virtualAddress : UInt32
  rawSize : Nat
  rawPointer : Nat
  relocationPointer : Nat
  relocationCount : Nat
  characteristics : UInt32

/-- A record of the symbol table. -/
structure SymbolRecord where
  name : List UInt8
  value : UInt32
  sectionNumber : UInt16
  typ : UInt16
  storageClass : UInt8
  auxCount : Nat

/-- The definition of a section, in the record behind the section's symbol. -/
structure SectionDefinition where
  associated : Nat
  selection : UInt8

/-- A relocation. -/
structure RawRelocation where
  rva : UInt32
  symbol : Nat
  typ : UInt16

/-- Reads a file header. -/
def Header.read? (b : Bytes) : Option Header := do
  let r ← b.slice? 0 headerSize
  pure ⟨← r.u16At? 0, ← r.numberAt? 2 2, ← r.numberAt? 8 4, ← r.numberAt? 12 4, ← r.numberAt? 16 2⟩

/-- Reads a section header. -/
def SectionHeader.read? (b : Bytes) (offset : Nat) : Option SectionHeader := do
  let r ← b.slice? offset sectionHeaderSize
  let name ← r.slice? 0 8
  pure ⟨name.toList, ← r.u32At? 8, ← r.u32At? 12, ← r.numberAt? 16 4, ← r.numberAt? 20 4,
    ← r.numberAt? 24 4, ← r.numberAt? 32 2, ← r.u32At? 36⟩

/-- Reads a record of the symbol table. -/
def SymbolRecord.read? (b : Bytes) (offset : Nat) : Option SymbolRecord := do
  let r ← b.slice? offset symbolSize
  let name ← r.slice? 0 8
  pure ⟨name.toList, ← r.u32At? 8, ← r.u16At? 12, ← r.u16At? 14, ← r.u8At? 16, ← r.numberAt? 17 1⟩

/-- Reads the definition of a section. -/
def SectionDefinition.read? (b : Bytes) (offset : Nat) : Option SectionDefinition := do
  let r ← b.slice? offset symbolSize
  pure ⟨← r.numberAt? 12 2, ← r.u8At? 14⟩

/-- Reads a relocation. -/
def RawRelocation.read? (b : Bytes) (offset : Nat) : Option RawRelocation := do
  let r ← b.slice? offset relocationSize
  pure ⟨← r.u32At? 0, ← r.numberAt? 4 4, ← r.u16At? 8⟩

/-- Reads `count` relocations. -/
def relocationsAt? (b : Bytes) (offset count : Nat) : Option (List RawRelocation) :=
  if offset + count * relocationSize ≤ b.size then
    (List.range count).mapM fun i ↦ RawRelocation.read? b (offset + i * relocationSize)
  else none

/-- Whether data starts with the header of an x86_64 object file. -/
def isObject (data : Bytes) : Bool :=
  (Header.read? data).any fun h ↦ h.machine == machineAmd64

end LivePatch.Coff
