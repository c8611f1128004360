import LivePatch.Objects.Archive

/-!
# Big archives

The form of a static library whose file starts with a header of offsets. One of them leads to an
index of the members, which is laid out like a member itself. Numbers are written as in other
libraries, in wider fields.
-/

namespace LivePatch.BigArchive

open Archive (number? ascii)

/-- First bytes of a big archive. -/
def magic : List UInt8 := ascii "<bigaf>\n"

/-- Size of the file's header. -/
def fileHeaderSize : Nat := 128

/-- Size of a member's header up to its name. -/
def headerSize : Nat := 112

/-- Size of a field that holds an offset or a size. -/
def fieldSize : Nat := 20

/-- The two bytes between a member's name and its data. -/
def terminator : List UInt8 := [0x60, 0x0a]

/-- The number in a field that starts at an offset. -/
def field? (b : Bytes) (offset size : Nat) : Option Nat := do
  number? (← b.slice? offset size).toList

/-- The data of the member whose header lies at an offset, as its place and size. The terminator
stands at the first even place behind the name. -/
def range? (data : Bytes) (offset : Nat) : Option (Nat × Nat) := do
  let header ← data.slice? offset headerSize
  let nameSize ← field? header 108 4
  let _ ← data.slice? (offset + headerSize) nameSize
  let nameEnd := offset + headerSize + nameSize
  let mark := nameEnd + nameEnd % 2
  if (← data.slice? mark 2).toList ≠ terminator then none
  else pure (mark + 2, ← field? header 0 fieldSize)

/-- Checks the table of symbols that the file's header names: the one of 64-bit symbols, else the
other one. -/
def checkSymbols (data header : Bytes) : Option Unit := do
  let wide ← field? header 48 fieldSize
  if wide ≠ 0 then
    let _ ← range? data wide
  else
    let narrow ← field? header 28 fieldSize
    if narrow ≠ 0 then
      let _ ← range? data narrow

/-- The fields of the index that hold the members' offsets. -/
def index? (data : Bytes) : Option (List (List UInt8)) := do
  let header ← data.slice? 0 fileHeaderSize
  checkSymbols data header
  let indexAt ← field? header 8 fieldSize
  if indexAt = 0 then pure []
  else
    let (start, size) ← range? data indexAt
    let index ← data.slice? start size
    let count ← field? index 0 fieldSize
    let _ ← index.slice? fieldSize (count * fieldSize)
    (List.range count).mapM fun i ↦
      (index.slice? (fieldSize + i * fieldSize) fieldSize).map Array.toList

/-- The contents of the member that a field of the index names. -/
def member? (data : Bytes) (field : List UInt8) : Option Bytes := do
  let (start, size) ← range? data (← number? field)
  data.slice? start size

end LivePatch.BigArchive
