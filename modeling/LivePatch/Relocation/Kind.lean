import LivePatch.Text.Number

/-!
# Kinds of relocations

How a relocation computes the value it writes, and which kinds can be computed anew in a running
process.
-/

namespace LivePatch

/-- How the value of a relocated field is computed. -/
inductive RelocationKind where
  /-- Offset of 32 bits from the start of the destination's section. -/
  | sectionRelative
  /-- Displacement of 32 bits from the end of the field and `extra` more bytes. -/
  | relative (extra : UInt8)
  /-- Address of 32 bits. -/
  | narrowVa
  /-- Address of 32 bits relative to the image base. -/
  | narrowRva
  /-- Address of 64 bits. -/
  | wideVa
  | unknown (number : UInt16)
  deriving DecidableEq, Repr

namespace RelocationKind

/-- The number of the kind in an object file that relocates nothing. -/
def absoluteNumber : UInt16 := 0

/-- The number of image-relative fields. -/
def narrowRvaNumber : UInt16 := 3

/-- The number of section-relative fields. -/
def sectionRelativeNumber : UInt16 := 0xb

/-- The kind of a number in an object file; the number for no relocation has none. -/
def ofNumber? (n : UInt16) : Option RelocationKind :=
  if n = absoluteNumber then none
  else if n = 1 then some .wideVa
  else if n = 2 then some .narrowVa
  else if n = narrowRvaNumber then some .narrowRva
  else if 4 ≤ n && n ≤ 9 then some (.relative (n - 4).toUInt8)
  else if n = sectionRelativeNumber then some .sectionRelative
  else some (.unknown n)

/-- Size of the relocated field. -/
def size : RelocationKind → Nat
  | .wideVa => 8
  | _ => 4

/-- Whether the field can be computed anew in a running process. -/
def isPatchable : RelocationKind → Bool
  | .sectionRelative => false
  | .unknown _ => false
  | _ => true

/-- Name of a kind. -/
def text : RelocationKind → String
  | .sectionRelative => "SectionRelative"
  | .relative extra => "Relative(" ++ Text.decimal extra.toNat ++ ")"
  | .narrowVa => "NarrowVa"
  | .narrowRva => "NarrowRva"
  | .wideVa => "WideVa"
  | .unknown n => "Unknown(" ++ Text.decimal n.toNat ++ ")"

/-- Kinds that go without a number. -/
def plain : List RelocationKind := [.sectionRelative, .narrowVa, .narrowRva, .wideVa]

/-- A kind as listings show it. -/
def describe : RelocationKind → String
  | .relative extra => "Relative \x7b extra: " ++ Text.decimal extra.toNat ++ " \x7d"
  | k => k.text

end RelocationKind
end LivePatch
