import LivePatch.Bytes
import LivePatch.Coff.Layout
import LivePatch.Failure
import LivePatch.X86.Jump

/-!
# The image format

Linked images start with two headers and a table of sections. This module finds its way through
them: the fields of the headers, the file ranges behind addresses relative to the image's base, and
the base relocations, which list the fields that hold absolute addresses.
-/

namespace LivePatch.ImageFormat

/-- Size of the first header. -/
def dosHeaderSize : Nat := 64

/-- The widths an image's addresses can have. -/
inductive Width where
  | narrow
  | wide
  deriving DecidableEq, Repr

namespace Width

/-- The number by which the optional header tells its width. -/
def magic : Width → Nat
  | .narrow => 0x10b
  | .wide => 0x20b

/-- Size of the fixed part of the optional header. -/
def optionalSize : Width → Nat
  | .narrow => 96
  | .wide => 112

end Width

/-- A named window of the image that the headers point at. -/
structure Directory where
  rva : UInt32
  size : Nat

/-- The headers of an image, as far as they are used. -/
structure Headers where
  /-- Where the second header starts. -/
  start : Nat
  symbolPointer : Nat
  symbolCount : Nat
  entryPoint : UInt32
  /-- Base of images with wide addresses. -/
  base : UInt64
  imageSize : UInt32
  headersSize : Nat
  directories : List Directory
  sections : List Coff.SectionHeader

/-- The section table. -/
def sectionsAt? (data : Bytes) (offset count : Nat) : Option (List Coff.SectionHeader) :=
  if offset + count * Coff.sectionHeaderSize ≤ data.size then
    (List.range count).mapM fun i ↦
      Coff.SectionHeader.read? data (offset + i * Coff.sectionHeaderSize)
  else none

/-- The directories behind the fixed part of the optional header. -/
def directoriesAt? (data : Bytes) (offset count room : Nat) : Option (List Directory) :=
  if count * 8 ≤ room then
    (List.range count).mapM fun i ↦ do
      pure ⟨← data.u32At? (offset + 8 * i), ← data.numberAt? (offset + 8 * i + 4) 4⟩
  else none

/-- Reads the headers of an image whose addresses have a width. -/
def Headers.read? (width : Width) (data : Bytes) : Option Headers := do
  let dos ← data.slice? 0 dosHeaderSize
  let start ← dos.numberAt? 60 4
  let nt ← data.slice? start (24 + width.optionalSize)
  let optionalSize ← nt.numberAt? 20 2
  if (← dos.numberAt? 0 2) ≠ 0x5a4d ∨ (← nt.numberAt? 0 4) ≠ 0x4550
      ∨ (← nt.numberAt? 24 2) ≠ width.magic ∨ optionalSize < width.optionalSize
      ∨ data.size < start + 24 + optionalSize then none
  else
    let count ← nt.numberAt? (24 + width.optionalSize - 4) 4
    let directories ← directoriesAt? data (start + 24 + width.optionalSize) count
      (optionalSize - width.optionalSize)
    let sections ← sectionsAt? data (start + 24 + optionalSize) (← nt.numberAt? 6 2)
    pure ⟨start, ← nt.numberAt? 12 4, ← nt.numberAt? 16 4, ← nt.u32At? (24 + 16),
      ← nt.u64At? (24 + 24), ← nt.u32At? (24 + 56), ← nt.numberAt? (24 + 60) 4, directories,
      sections⟩

/-- Where the field that holds the image's base lies. -/
def Headers.baseAt (h : Headers) : Nat := h.start + 24 + 24

/-- The file range behind an address in a section: where it starts and how long it is. What is
only in memory or only in the file does not count. -/
def sectionRange? (s : Coff.SectionHeader) (rva : UInt32) : Option (Nat × Nat) :=
  let size := min s.virtualSize.toNat s.rawSize
  if s.virtualAddress ≤ rva then
    let offset := (rva - s.virtualAddress).toNat
    if offset < size ∧ s.rawPointer + offset < 0x100000000 then
      some (s.rawPointer + offset, size - offset)
    else none
  else none

/-- The file range behind an address, in the first section that has one. -/
def Headers.range? (h : Headers) (rva : UInt32) : Option (Nat × Nat) :=
  h.sections.findSome? fun s ↦ sectionRange? s rva

/-- The bytes behind an address up to the end of its section, in the first section that has them
in the file. -/
def Headers.dataAt? (h : Headers) (data : Bytes) (rva : UInt32) : Option Bytes :=
  h.sections.findSome? fun s ↦ do
    let (offset, size) ← sectionRange? s rva
    data.slice? offset size

/-- A field that holds an absolute address. -/
structure Fixup where
  rva : UInt32
  /-- Whether the field has 64 bits; else it has 32. -/
  isWide : Bool
  deriving DecidableEq, Repr

/-- The base relocations of an image, none when it has no directory for them. -/
def Headers.relocations? (h : Headers) (data : Bytes) : Outcome (Option Bytes) :=
  match h.directories[5]? with
  | none => .ok none
  | some d =>
    if d.rva = 0 then .ok none
    else
      match (h.dataAt? data d.rva).bind fun b ↦ b.slice? 0 d.size with
      | some b => .ok (some b)
      | none => fail .malformed

/-- The fields that the entries of a block list, on the block's page. An entry of zero fills up,
and so does the kind zero. -/
def entryFixups (page : UInt32) : List UInt16 → Outcome (List Fixup)
  | [] => .ok []
  | entry :: rest => do
    let rva := page + (entry &&& 0xfff).toUInt32
    let kind := (entry >>> 12).toNat
    if entry = 0 ∨ kind = 0 then entryFixups page rest
    else if kind = 10 then return ⟨rva, true⟩ :: (← entryFixups page rest)
    else if kind = 3 then return ⟨rva, false⟩ :: (← entryFixups page rest)
    else fail (.unknownFixup kind rva)

/-- The 16-bit words of bytes. -/
def words : List UInt8 → List UInt16
  | a :: b :: rest => UInt16.ofNat (a.toNat + 256 * b.toNat) :: words rest
  | _ => []

/-- The fields that blocks of base relocations list. At most `fuel` blocks are read. -/
def blockFixups : Nat → Bytes → Outcome (List Fixup)
  | 0, _ => .ok []
  | fuel + 1, b =>
    if b.isEmpty then .ok []
    else
      match b.u32At? 0, b.numberAt? 4 4 with
      | some page, some size =>
        if size ≤ 8 ∨ size % 4 ≠ 0 ∨ b.size < size then fail .malformed
        else do
          let here ← entryFixups page (words (b.extract 8 size).toList)
          let rest ← blockFixups fuel (b.suffix size)
          pure (here ++ rest)
      | _, _ => fail .malformed

/-- All fields of an image that hold absolute addresses. -/
def Headers.fixups (h : Headers) (data : Bytes) : Outcome (List Fixup) := do
  match ← h.relocations? data with
  | none => pure []
  | some b => blockFixups b.size b

end LivePatch.ImageFormat
