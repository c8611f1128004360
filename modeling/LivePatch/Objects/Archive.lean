import LivePatch.Coff.Reader
import LivePatch.Images.Format

/-!
# Static libraries

A static library is a sequence of members, each behind a header with its name and size. Some of the
first members are tables of the library itself. Object files among the others have weak symbols.
-/

namespace LivePatch.Archive

/-- Size of a member's header. -/
def headerSize : Nat := 60

/-- First bytes of a library. -/
def magic : List UInt8 := "!<arch>\n".toList.map fun c ↦ UInt8.ofNat c.toNat

/-- First bytes of a library whose members lie in files of their own. -/
def thinMagic : List UInt8 := "!<thin>\n".toList.map fun c ↦ UInt8.ofNat c.toNat

/-- A text as bytes. -/
def ascii (text : String) : List UInt8 := text.toList.map fun c ↦ UInt8.ofNat c.toNat

/-- A member: its name and where its data lies. -/
structure Member where
  name : List UInt8
  offset : Nat
  size : Nat

/-- A library being read. -/
structure Library where
  data : Bytes
  isThin : Bool
  /-- The table of names that do not fit their headers. -/
  names : Bytes

/-- The number of a field: decimal digits up to a space or the field's end. The field does not
start with a space. -/
def number? (field : List UInt8) : Option Nat :=
  if field.head? = some 0x20 then none
  else do
    let digits ← (field.takeWhile (· != 0x20)).mapM fun b ↦ Coff.File.decimalDigit? b
    let n := Coff.File.ofDigits 10 digits
    if n < 0x10000000000000000 then pure n else none

/-- Whether a byte is a decimal digit. -/
def isDigit (b : Option UInt8) : Bool := (b.bind Coff.File.decimalDigit?).isSome

/-- A name in the table of names: it ends with a slash before a line feed, or with a zero byte. -/
def listedName? (names : Bytes) (field : List UInt8) : Option (List UInt8) := do
  let offset ← number? field
  if names.size < offset then none
  else
    let rest := (names.suffix offset).toList
    let name := rest.takeWhile fun b ↦ b != 0x0a && b != 0
    match rest.drop name.length with
    | 0x0a :: _ => if name.getLast? = some 0x2f then pure name.dropLast else none
    | _ :: _ => pure name
    | [] => none

/-- The name of a member and where its data lies. A name can precede the data. -/
def named? (l : Library) (field : List UInt8) (offset size : Nat) : Option Member :=
  if field.head? = some 0x2f && isDigit field[1]? then
    (listedName? l.names field.tail).map fun name ↦ ⟨name, offset, size⟩
  else if field.take 3 = ascii "#1/" && isDigit field[3]? then do
    let len ← number? (field.drop 3)
    let name ← l.data.slice? offset len
    if len ≤ size then pure ⟨Bytes.beforeNul name.toList, offset + len, size - len⟩ else none
  else if field.head? = some 0x2f then some ⟨field.takeWhile (· != 0x20), offset, size⟩
  else
    let stop : UInt8 := if field.contains 0x2f then 0x2f else 0x20
    some ⟨field.takeWhile (· != stop), offset, size⟩

/-- Names of the tables that a thin library holds itself. -/
def ownTables : List (List UInt8) := [ascii "/", ascii "//", ascii "/SYM64/"]

/-- The member whose header lies at an offset, and where the next header lies. -/
def member? (l : Library) (offset : Nat) : Option (Member × Nat) := do
  let h ← l.data.slice? offset headerSize
  let field := h.toList
  let size ← number? ((field.drop 48).take 10)
  let start := offset + headerSize
  let m ← named? l (field.take 16) start size
  if field.drop 58 ≠ [0x60, 0x0a] then none
  else if l.isThin && !ownTables.contains m.name then pure ({ m with size := 0 }, start)
  else pure (m, start + size + size % 2)

/-- The data of a member. -/
def data? (l : Library) (m : Member) : Option Bytes := l.data.slice? m.offset m.size

/-- A library, where the next header lies, and where its ordinary members start. -/
structure Progress where
  library : Library
  next : Nat
  members : Nat

/-- Looks at the next member, if there is one, with a function that tells whether it is a table to
be passed over. -/
def look (p : Progress) (f : Member → Progress → Option (Option Progress)) : Option Progress :=
  if p.next < p.library.data.size then do
    let (m, next) ← member? p.library p.next
    match ← f m { p with next := next } with
    | some q => pure { q with members := q.next }
    | none => pure { p with next := next }
  else some p

/-- Takes the table of names if that is what a member is. -/
def takeNames (m : Member) (p : Progress) : Option (Option Progress) :=
  if m.name = ascii "//" then do
    let names ← data? p.library m
    pure (some { p with library := { p.library with names := names } })
  else some none

/-- Passes over a member of a name. -/
def takeNamed (name : String) (m : Member) (p : Progress) : Option (Option Progress) :=
  some (if m.name = ascii name then some p else none)

/-- Passes over the second table of symbols and what may follow it, or takes the names. -/
def afterSymbols (p : Progress) : Option Progress :=
  if p.next < p.library.data.size then do
    let (m, next) ← member? p.library p.next
    let q := { p with next := next }
    if m.name = ascii "/" then do
      let r ← look { q with members := next } takeNames
      look r fun n s ↦
        if r.members = r.next then takeNamed "/<ECSYMBOLS>/" n s else some none
    else
      match ← takeNames m q with
      | some r => pure { r with members := r.next }
      | none => pure p
  else some p

/-- Names of the tables of symbols that nothing follows. -/
def loneTables : List (List UInt8) :=
  [ascii "__.SYMDEF", ascii "__.SYMDEF SORTED", ascii "__.SYMDEF_64", ascii "__.SYMDEF_64 SORTED"]

/-- Passes over the tables that a library starts with. -/
def leadingTables (l : Library) : Option Progress :=
  let p : Progress := ⟨l, 8, 8⟩
  if p.next < l.data.size then do
    let (m, next) ← member? l p.next
    let q : Progress := ⟨l, next, next⟩
    if m.name = ascii "/" then afterSymbols q
    else if m.name = ascii "/SYM64/" then look q takeNames
    else if m.name = ascii "//" then do
      let names ← data? l m
      pure { q with library := { l with names := names } }
    else if loneTables.contains m.name then pure q
    else pure p
  else some p

/-- Reads the tables of a library and tells where its members start. -/
def parse? (data : Bytes) : Option (Library × Nat) := do
  let start ← data.slice? 0 8
  if start.toList ≠ magic ∧ start.toList ≠ thinMagic then none
  else
    let p ← leadingTables ⟨data, start.toList == thinMagic, #[]⟩
    pure (p.library, p.members)

/-- The contents of the members from an offset on. At most `fuel` members are read; an error of
one ends everything. -/
def contentsFrom (l : Library) : Nat → Nat → Option (List Bytes)
  | 0, _ => some []
  | fuel + 1, offset =>
    if l.data.size ≤ offset then some []
    else do
      let (m, next) ← member? l offset
      let data ← data? l m
      let rest ← contentsFrom l fuel next
      pure (data :: rest)

/-- First bytes of the object files that are looked into. -/
def objectMagics : List (List UInt8) :=
  [[0x64, 0x86], [0x4c, 0x01], [0xc4, 0x01], [0x64, 0xaa], [0x41, 0xa6]]

/-- The symbol table of an image as that of an object file. A table that does not fit is none. -/
def imageSymbols? (data : Bytes) : Option Coff.File := do
  let h ← (ImageFormat.Headers.read? .wide data).or (ImageFormat.Headers.read? .narrow data)
  let stringsAt := h.symbolPointer + h.symbolCount * Coff.symbolSize
  match if h.symbolPointer = 0 then none else data.numberAt? stringsAt 4 with
  | some length =>
    pure ⟨data, h.sections, h.symbolPointer, h.symbolCount, some ⟨stringsAt, stringsAt + length⟩⟩
  | none => pure ⟨data, h.sections, 0, 0, none⟩

/-- The object file or image that a member is, if it is one that can be read. -/
def object? (data : Bytes) : Option Coff.File := do
  let start ← data.slice? 0 16
  let first := start.toList.take 2
  if objectMagics.contains first then Coff.File.parse? data
  else if first = [0x4d, 0x5a] then imageSymbols? data
  else none

/-- Names of the weak symbols of a member. Members that are no object files have none. -/
def weakSymbols? (data : Bytes) : Option (List String) :=
  match object? data with
  | none => some []
  | some f => (f.symbols.filter fun s ↦ s.2.isWeak).mapM fun (index, r) ↦ f.symbolName? index r

end LivePatch.Archive
