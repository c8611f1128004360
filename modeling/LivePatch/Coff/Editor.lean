import LivePatch.Coff.Layout
import LivePatch.Failure
import LivePatch.Paths.Path
import LivePatch.Text.CommandLine
import LivePatch.Text.Utf8

/-!
# Editing object files

Object files are edited in place before they are linked. The layout never changes: a removed symbol
gets a name and a pseudo-section that the linker passes over, a removed section loses its data and
relocations and is marked for removal, and directives are blanked out with spaces.
-/

namespace LivePatch

/-- Where a removed symbol is moved to. -/
inductive RemovalStrategy where
  /-- The pseudo-section of debug symbols. -/
  | debugSection
  /-- The pseudo-section of absolute symbols. -/
  | absolute
  deriving DecidableEq, Repr

namespace RemovalStrategy

/-- The section number of the pseudo-section. -/
def sectionNumber : RemovalStrategy → Int
  | .debugSection => -2
  | .absolute => -1

/-- Name of the pseudo-section. -/
def text : RemovalStrategy → String
  | .debugSection => "DebugSection"
  | .absolute => "Absolute"

/-- The section number as it is stored. -/
def storedNumber (s : RemovalStrategy) : UInt16 := UInt16.ofNat (0x10000 + s.sectionNumber).toNat

end RemovalStrategy

namespace Coff

/-- A symbol of an object file being edited. -/
structure EditorSymbol where
  index : Nat
  name : String
  value : UInt32
  sectionNumber : Int
  storageClass : UInt8
  auxCount : Nat
  deriving DecidableEq, Repr

namespace EditorSymbol

/-- The symbol that stands for a section and carries its definition. -/
def isSectionDefinition (s : EditorSymbol) : Bool :=
  s.storageClass == classStatic && 0 < s.auxCount && s.value == 0
    && s.name.toList.head? == some '.'

/-- Name of removed symbols. -/
def removedName : String := "&"

/-- Whether the symbol was removed. -/
def isRemoved (s : EditorSymbol) : Bool := s.name == removedName && s.storageClass == classNull

end EditorSymbol

/-- How one of several definitions of a section is chosen, and the section it goes along with. -/
structure Comdat where
  selection : UInt8
  associated : Nat
  deriving DecidableEq, Repr

/-- A section of an object file being edited. -/
structure EditorSection where
  number : Nat
  name : String
  characteristics : UInt32
  comdat : Option Comdat
  deriving DecidableEq, Repr

namespace EditorSection

/-- Whether the section can be discarded. -/
def isDiscardable (s : EditorSection) : Bool := hasFlag s.characteristics flagDiscardable

/-- Whether the section reaches the image. -/
def isPartOfImage (s : EditorSection) : Bool :=
  !hasFlag s.characteristics (flagInfo ||| flagRemove)

/-- Whether any of several definitions will do. -/
def isSelectAny (s : EditorSection) : Bool := s.comdat.any fun c ↦ c.selection == selectAny

/-- Whether the section goes along with another one. -/
def isAssociatedWith (s : EditorSection) (p : Nat → Bool) : Bool :=
  s.comdat.any fun c ↦ c.selection == selectAssociative && p c.associated

end EditorSection

/-- An object file being edited and where its tables lie. -/
structure Editor where
  data : Bytes
  strategy : RemovalStrategy
  sectionsAt : Nat
  sectionCount : Nat
  symbolsAt : Nat
  symbolCount : Nat
  stringsAt : Nat

/-- An edit, which keeps what it changed before it stopped short. -/
abbrev EditM := ExceptT Stop (StateM Editor)

namespace Editor

/-- Starts editing an object file whose tables fit. -/
def parse (data : Bytes) (strategy : RemovalStrategy) : Outcome Editor := do
  let h ← orFail .shortHeader (Header.read? data)
  if h.machine != machineAmd64 then fail (.foreignMachine h.machine)
  else
    let sectionsAt := headerSize + h.optionalSize
    let stringsAt := h.symbolPointer + h.symbolCount * symbolSize
    if data.size < sectionsAt + h.sectionCount * sectionHeaderSize ∨ data.size < stringsAt then
      fail .tablesPastEnd
    else
      pure ⟨data, strategy, sectionsAt, h.sectionCount, h.symbolPointer, h.symbolCount, stringsAt⟩

/-- Where the header of a section lies. -/
def headerAt (e : Editor) (number : Nat) : Outcome Nat :=
  if number = 0 ∨ e.sectionCount < number then fail (.sectionOutOfRange number)
  else .ok (e.sectionsAt + (number - 1) * sectionHeaderSize)

/-- The header of a section. -/
def header (e : Editor) (number : Nat) : Outcome SectionHeader := do
  let offset ← e.headerAt number
  orFail .truncatedSectionHeader (SectionHeader.read? e.data offset)

/-- Where a record of the symbol table lies. -/
def recordAt (e : Editor) (index : Nat) : Nat := e.symbolsAt + index * symbolSize

/-- A record of the symbol table. -/
def record (e : Editor) (index : Nat) : Outcome SymbolRecord :=
  if e.symbolCount ≤ index then fail (.symbolOutOfRange index)
  else orFail .truncatedSymbols (SymbolRecord.read? e.data (e.recordAt index))

/-- The text at an offset behind the symbol table, up to the first zero byte or the end. -/
def stringAt (e : Editor) (offset : Nat) : String :=
  String.ofList (Text.Utf8.lossy
    (Bytes.beforeNul (e.data.suffix (e.stringsAt + offset)).toList))

/-- A name that stands in its record. -/
def shortName (name : List UInt8) : List Char := Text.Utf8.lossy (Bytes.beforeNul name)

/-- The name of a symbol. -/
def symbolName (e : Editor) (r : SymbolRecord) : String :=
  if r.name.take 4 = [0, 0, 0, 0] then e.stringAt (Bytes.number (r.name.drop 4))
  else String.ofList (shortName r.name)

/-- The number that decimal digits stand for, with a plus sign in front of them or none. -/
def decimal? (text : List Char) : Option Nat :=
  let digits := if text.head? = some '+' then text.tail else text
  if digits.isEmpty || !digits.all Char.isDigit then none
  else some (digits.foldl (fun n c ↦ n * 10 + (c.toNat - '0'.toNat)) 0)

/-- The name of a section. -/
def sectionName (e : Editor) (h : SectionHeader) : String :=
  let name := shortName h.name
  match name with
  | '/' :: digits =>
    match decimal? digits with
    | some offset => e.stringAt offset
    | none => String.ofList name
  | _ => String.ofList name

/-- A symbol by its record. -/
def symbolOf (e : Editor) (index : Nat) (r : SymbolRecord) : EditorSymbol :=
  ⟨index, e.symbolName r, r.value,
    if r.sectionNumber.toNat < 0x8000 then r.sectionNumber.toNat
    else (r.sectionNumber.toNat : Int) - 0x10000,
    r.storageClass, r.auxCount⟩

/-- The symbols from an index on, without the auxiliary records behind them. At most `fuel` of
them are read. -/
def symbolsFrom (e : Editor) : Nat → Nat → Outcome (List EditorSymbol)
  | 0, _ => .ok []
  | fuel + 1, index =>
    if e.symbolCount ≤ index then .ok []
    else do
      let r ← e.record index
      let rest ← symbolsFrom e fuel (index + 1 + r.auxCount)
      pure (e.symbolOf index r :: rest)

/-- The symbols of the file. -/
def symbols (e : Editor) : Outcome (List EditorSymbol) := e.symbolsFrom e.symbolCount 0

/-- The definitions of sections that symbols carry, by section number. -/
def definitions (e : Editor) (symbols : List EditorSymbol) : Outcome (List (Nat × Comdat)) :=
  (symbols.filter fun s ↦ s.isSectionDefinition && 0 < s.sectionNumber).mapM fun s ↦ do
    let d ← orFail .truncatedSectionDefinition
      (SectionDefinition.read? e.data (e.recordAt (s.index + 1)))
    pure (s.sectionNumber.toNat, ⟨d.selection, d.associated⟩)

/-- The section of a number. Of several definitions the last one counts, and only for sections
that are chosen among several. -/
def sectionOf (e : Editor) (definitions : List (Nat × Comdat)) (number : Nat) :
    Outcome EditorSection := do
  let h ← e.header number
  let comdat :=
    if hasFlag h.characteristics flagComdat then definitions.reverse.lookup number else none
  pure ⟨number, e.sectionName h, h.characteristics, comdat⟩

/-- The sections of the file. -/
def sections (e : Editor) : Outcome (List EditorSection) := do
  let definitions ← e.definitions (← e.symbols)
  ((List.range e.sectionCount).map (· + 1)).mapM (e.sectionOf definitions)

/-- Where the relocations of a section lie and how many they are. With the overflow flag the first
record holds the count, which includes it. -/
def relocationTable (e : Editor) (number : Nat) : Outcome (Nat × Nat) := do
  let h ← e.header number
  if hasFlag h.characteristics flagOverflow then
    let first ← orFail .truncatedRelocations (RawRelocation.read? e.data h.relocationPointer)
    pure (h.relocationPointer + relocationSize, first.rva.toNat - 1)
  else pure (h.relocationPointer, h.relocationCount)

/-- The relocations of a section. -/
def relocations (e : Editor) (number : Nat) : Outcome (List RawRelocation) := do
  let (offset, count) ← e.relocationTable number
  if count = 0 then pure []
  else orFail (.truncatedRelocationsOf number) (relocationsAt? e.data offset count)

/-- Replaces bytes of the file. -/
def put (offset : Nat) (bytes : Bytes) : EditM Unit :=
  modify fun e ↦ { e with data := e.data.overwrite offset bytes }

/-- Changes the type of a relocation. -/
def setRelocationType (number relocation : Nat) (typ : UInt16) : EditM Unit := do
  let e ← get
  let (offset, count) ← e.relocationTable number
  if e.data.size < offset then throw .fault
  else if e.data.size < offset + count * relocationSize then
    fail (.truncatedRelocationsOf number)
  else if count ≤ relocation then fail .relocationOutOfRange
  else put (offset + relocation * relocationSize + 8) (Bytes.ofU16 typ)

/-- The bytes of a removed symbol's name. -/
def removedSymbolName : Bytes := #[0x26, 0, 0, 0, 0, 0, 0, 0]

/-- The bytes of a removed section's name. -/
def removedSectionName : Bytes := #[0x2e, 0x72, 0x65, 0x6d, 0x6f, 0x76, 0x65, 0]

/-- The record of a removed symbol, up to the count of auxiliary records. -/
def removedRecord (strategy : RemovalStrategy) : Bytes :=
  removedSymbolName ++ Bytes.ofU32 0 ++ Bytes.ofU16 strategy.storedNumber ++ Bytes.ofU16 0
    ++ #[classNull]

/-- Neutralizes a symbol: the linker neither resolves nor defines it any more. -/
def removeSymbol (index : Nat) : EditM Unit := do
  let e ← get
  let _ ← e.record index
  put (e.recordAt index) (removedRecord e.strategy)

/-- Empties the definition of a section in an auxiliary record: its length and its counts. -/
def clearDefinition (index : Nat) : EditM Unit := do
  let e ← get
  if e.symbolCount ≤ index then fail (.auxiliaryOutOfRange index)
  else put (e.recordAt index) (Bytes.fill 8 0)

/-- Drops a section from the link. -/
def removeSection (number : Nat) : EditM Unit := do
  let offset ← (← get).headerAt number
  put offset removedSectionName
  put (offset + 16) (Bytes.fill 20 0)
  put (offset + 36) (Bytes.ofU32 (flagRemove ||| flagDiscardable))
  let symbols ← (← get).symbols
  (symbols.filter fun s ↦ s.isSectionDefinition && s.sectionNumber == (number : Int)).forM fun s ↦
    clearDefinition (s.index + 1)

/-- The text of a directive section: what precedes its directives, and they themselves. -/
def splitMarks (text : List Char) : List Char × List Char :=
  (text.takeWhile fun c ↦ c.toNat == 0xfeff, Text.withoutMarks text)

/-- What was shown to the filter of directives, and how many of them it rejected. -/
structure Filtered where
  seen : List String
  removed : Nat
  deriving DecidableEq, Repr

/-- Blanks out every directive that a filter rejects. The others move together; the section keeps
its size. -/
def filterDirectives (keep : String → Bool) : EditM Filtered := do
  let e ← get
  let sections ← e.sections
  match sections.find? fun s ↦ s.name == ".drectve" with
  | none => pure ⟨[], 0⟩
  | some s =>
    let h ← e.header s.number
    let raw ← orFail .directivesOutOfBounds (e.data.slice? h.rawPointer h.rawSize)
    match Text.Utf8.strict? raw.toList with
    | none => pure ⟨[], 0⟩
    | some text =>
      let (marks, body) := splitMarks text
      let marksSize := Text.Utf8.size (String.ofList marks)
      let tokens := (Text.tokensFrom false [] body).map String.ofList
      let kept := tokens.filter keep
      let removed := tokens.length - kept.length
      if removed = 0 then pure ⟨tokens, 0⟩
      else
        let joined := Text.Utf8.encode (Text.join " " kept)
        put (h.rawPointer + marksSize) (joined.resize (h.rawSize - marksSize) 0x20)
        pure ⟨tokens, removed⟩

end Editor
end Coff
end LivePatch
