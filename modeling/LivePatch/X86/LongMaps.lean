import LivePatch.X86.Rule

/-!
# Opcode maps of the long vector prefix

The maps behind the four-byte vector prefix. The vector length is 0 for 128, 1 for 256 and 2 for
512 bits. Unless a rule says otherwise, its target is a vector whose elements a mask may select,
memory is not broadcast, and rounding cannot be controlled.
-/

namespace LivePatch.X86

open Rule

/-- Encodings with an extra source. -/
private def combining (first last : Nat) (selectors : List Selector) : Rule :=
  ((span first last).under selectors).sourced

/-- Encodings without an extra source. -/
private def single (first last : Nat) (selectors : List Selector) : Rule :=
  (span first last).under selectors

/-- With the wide bit clear. -/
private def narrow (r : Rule) : Rule := r.whenWide .clear

/-- With the wide bit set. -/
private def broad (r : Rule) : Rule := r.whenWide .set

/-- On 128 bits, without a mask. -/
private def short (r : Rule) : Rule := (r.sized [0]).demanding .unmasked

/-- Into the operand: memory keeps its masked elements. -/
private def storing (r : Rule) : Rule := r.demanding .mergingMemory

/-- Into a mask register. -/
private def comparing (r : Rule) : Rule := (r.demanding .maskTarget).demanding .merging

/-- Into a general register. -/
private def extracting (r : Rule) : Rule := (r.demanding .generalTarget).demanding .unmasked

/-- Elements of memory that a vector of indices and a mask select. -/
private def selecting (r : Rule) : Rule :=
  ((r.on .indexed).demanding .masked).demanding .merging

/-- Both widths: packed single numbers without, packed double numbers with the wide bit. -/
private def packed (r : Rule) : List Rule := [narrow (r.under [.plain]), broad (r.under [.p66])]

/-- Both widths of scalar numbers. -/
private def scalar (r : Rule) : List Rule := [narrow (r.under [.pF3]), broad (r.under [.pF2])]

/-- The first map. -/
def longMap1 : List Rule :=
  packed (one 0x10) ++ packed (storing (one 0x11)) ++ scalar ((one 0x10).on .memory)
    ++ scalar (((one 0x11).on .memory).demanding .merging)
    ++ scalar (((span 0x10 0x11).on .register).sourced)
    ++ packed ((short (one 0x13)).on .memory) ++ packed ((short (one 0x17)).on .memory)
    ++ packed (((span 0x14 0x15).sourced).broadcasting)
    ++ packed (one 0x28) ++ packed (storing (one 0x29))
    ++ packed (((one 0x2b).on .memory).demanding .unmasked)
    ++ packed (((span 0x2e 0x2f).rounding).demanding .unmasked)
    ++ packed (((one 0x51).broadcasting).rounding) ++ scalar (((one 0x51).sourced).rounding)
    ++ packed (((span 0x54 0x57).sourced).broadcasting)
    ++ packed ((((span 0x58 0x59).sourced).broadcasting).rounding)
    ++ scalar (((span 0x58 0x59).sourced).rounding)
    ++ packed (((one 0x5a).broadcasting).rounding) ++ scalar (((one 0x5a).sourced).rounding)
    ++ packed ((((span 0x5c 0x5f).sourced).broadcasting).rounding)
    ++ scalar (((span 0x5c 0x5f).sourced).rounding)
    ++ packed ((comparing ((((one 0xc2).sourced).broadcasting).rounding)).followedBy .byte)
    ++ scalar ((comparing (((one 0xc2).sourced).rounding)).followedBy .byte)
    ++ packed ((((one 0xc6).sourced).broadcasting).followedBy .byte) ++
  [ narrow (short (combining 0x12 0x12 [.plain])),
    broad ((short (combining 0x12 0x12 [.p66])).on .memory),
    narrow (single 0x12 0x12 [.pF3]), broad (single 0x12 0x12 [.pF2]),
    narrow (short (combining 0x16 0x16 [.plain])),
    broad ((short (combining 0x16 0x16 [.p66])).on .memory), narrow (single 0x16 0x16 [.pF3]),
    ((combining 0x2a 0x2a [.pF3, .pF2]).rounding).demanding .unmasked,
    extracting ((single 0x2c 0x2d [.pF3, .pF2]).rounding),
    ((single 0x5b 0x5b [.plain]).broadcasting).rounding,
    narrow (((single 0x5b 0x5b [.p66, .pF3]).broadcasting).rounding),
    combining 0x60 0x61 [.p66], narrow ((combining 0x62 0x62 [.p66]).broadcasting),
    combining 0x63 0x63 [.p66], comparing (combining 0x64 0x65 [.p66]),
    narrow (comparing ((combining 0x66 0x66 [.p66]).broadcasting)), combining 0x67 0x69 [.p66],
    narrow ((combining 0x6a 0x6b [.p66]).broadcasting),
    broad ((combining 0x6c 0x6d [.p66]).broadcasting), short (single 0x6e 0x6e [.p66]),
    single 0x6f 0x6f [.p66, .pF3, .pF2],
    (narrow ((single 0x70 0x70 [.p66]).broadcasting)).followedBy .byte,
    (single 0x70 0x70 [.pF3, .pF2]).followedBy .byte,
    ((combining 0x71 0x71 [.p66]).group [2, 4, 6]).followedBy .byte,
    (((combining 0x72 0x72 [.p66]).group [0, 1, 4]).broadcasting).followedBy .byte,
    (narrow (((combining 0x72 0x72 [.p66]).group [2, 6]).broadcasting)).followedBy .byte,
    (broad (((combining 0x73 0x73 [.p66]).group [2, 6]).broadcasting)).followedBy .byte,
    (((combining 0x73 0x73 [.p66]).group [3, 7]).demanding .unmasked).followedBy .byte,
    comparing (combining 0x74 0x75 [.p66]),
    narrow (comparing ((combining 0x76 0x76 [.p66]).broadcasting)),
    ((single 0x78 0x79 [.plain, .p66]).broadcasting).rounding,
    extracting ((single 0x78 0x79 [.pF3, .pF2]).rounding),
    ((single 0x7a 0x7a [.p66, .pF3, .pF2]).broadcasting).rounding,
    ((single 0x7b 0x7b [.p66]).broadcasting).rounding,
    ((combining 0x7b 0x7b [.pF3, .pF2]).rounding).demanding .unmasked,
    short (single 0x7e 0x7e [.p66]), broad (short (single 0x7e 0x7e [.pF3])),
    storing (single 0x7f 0x7f [.p66, .pF3, .pF2]),
    (short (combining 0xc4 0xc4 [.p66])).followedBy .byte,
    (extracting (((single 0xc5 0xc5 [.p66]).on .register).sized [0])).followedBy .byte,
    combining 0xd1 0xd1 [.p66], narrow (combining 0xd2 0xd2 [.p66]),
    broad (combining 0xd3 0xd3 [.p66]), broad ((combining 0xd4 0xd4 [.p66]).broadcasting),
    combining 0xd5 0xd5 [.p66], broad (short (single 0xd6 0xd6 [.p66])),
    combining 0xd8 0xda [.p66], (combining 0xdb 0xdb [.p66]).broadcasting,
    combining 0xdc 0xde [.p66], (combining 0xdf 0xdf [.p66]).broadcasting,
    combining 0xe0 0xe5 [.p66], broad (((single 0xe6 0xe6 [.p66, .pF2]).broadcasting).rounding),
    ((single 0xe6 0xe6 [.pF3]).broadcasting).rounding,
    narrow (((single 0xe7 0xe7 [.p66]).on .memory).demanding .unmasked),
    combining 0xe8 0xea [.p66], (combining 0xeb 0xeb [.p66]).broadcasting,
    combining 0xec 0xee [.p66], (combining 0xef 0xef [.p66]).broadcasting,
    combining 0xf1 0xf1 [.p66], narrow (combining 0xf2 0xf2 [.p66]),
    broad (combining 0xf3 0xf3 [.p66]), broad ((combining 0xf4 0xf4 [.p66]).broadcasting),
    combining 0xf5 0xf5 [.p66], (combining 0xf6 0xf6 [.p66]).demanding .unmasked,
    combining 0xf8 0xf9 [.p66],
    narrow ((combining 0xfa 0xfa [.p66]).broadcasting),
    broad ((combining 0xfb 0xfb [.p66]).broadcasting), combining 0xfc 0xfd [.p66],
    narrow ((combining 0xfe 0xfe [.p66]).broadcasting) ]

/-- Fused multiplications and additions of one row: two shapes that alternate signs, then packed
and scalar shapes in turn. -/
private def fused (row : Nat) (isNarrow : Bool) : List Rule :=
  let width (r : Rule) : Rule := if isNarrow then narrow r else r
  let packedShape (k : Nat) : Rule :=
    width (((combining (row + k) (row + k) [.p66]).broadcasting).rounding)
  let scalarShape (k : Nat) : Rule := width ((combining (row + k) (row + k) [.p66]).rounding)
  [6, 7, 8, 10, 12, 14].map packedShape ++ [9, 11, 13, 15].map scalarShape

/-- The second map. -/
def longMap2 : List Rule :=
  [ combining 0x00 0x00 [.p66], combining 0x04 0x04 [.p66], combining 0x0b 0x0b [.p66],
    narrow ((combining 0x0c 0x0c [.p66]).broadcasting),
    broad ((combining 0x0d 0x0d [.p66]).broadcasting), broad (combining 0x10 0x12 [.p66]),
    narrow (storing (single 0x10 0x15 [.pF3])), narrow ((single 0x13 0x13 [.p66]).rounding),
    (combining 0x14 0x15 [.p66]).broadcasting,
    ((combining 0x16 0x16 [.p66]).sized [1, 2]).broadcasting,
    narrow (single 0x18 0x18 [.p66]), (single 0x19 0x19 [.p66]).sized [1, 2],
    ((single 0x1a 0x1a [.p66]).on .memory).sized [1, 2],
    ((single 0x1b 0x1b [.p66]).on .memory).sized [2], single 0x1c 0x1d [.p66],
    narrow ((single 0x1e 0x1e [.p66]).broadcasting), broad ((single 0x1f 0x1f [.p66]).broadcasting),
    single 0x20 0x24 [.p66], narrow (single 0x25 0x25 [.p66]),
    narrow (storing (single 0x20 0x25 [.pF3])),
    comparing (combining 0x26 0x26 [.p66, .pF3]),
    comparing ((combining 0x27 0x27 [.p66, .pF3]).broadcasting),
    broad ((combining 0x28 0x28 [.p66]).broadcasting),
    ((single 0x28 0x28 [.pF3]).on .register).demanding .unmasked,
    broad (comparing ((combining 0x29 0x29 [.p66]).broadcasting)),
    (((single 0x29 0x29 [.pF3]).on .register).demanding .unmasked).demanding .maskTarget,
    narrow (((single 0x2a 0x2a [.p66]).on .memory).demanding .unmasked),
    broad (((single 0x2a 0x2a [.pF3]).on .register).demanding .unmasked),
    narrow ((combining 0x2b 0x2b [.p66]).broadcasting),
    ((combining 0x2c 0x2c [.p66]).broadcasting).rounding, (combining 0x2d 0x2d [.p66]).rounding,
    single 0x30 0x34 [.p66], narrow (single 0x35 0x35 [.p66]),
    narrow (storing (single 0x30 0x35 [.pF3])),
    ((combining 0x36 0x36 [.p66]).sized [1, 2]).broadcasting,
    broad (comparing ((combining 0x37 0x37 [.p66]).broadcasting)), combining 0x38 0x38 [.p66],
    ((single 0x38 0x38 [.pF3]).on .register).demanding .unmasked,
    (combining 0x39 0x39 [.p66]).broadcasting,
    (((single 0x39 0x39 [.pF3]).on .register).demanding .unmasked).demanding .maskTarget,
    combining 0x3a 0x3a [.p66],
    narrow (((single 0x3a 0x3a [.pF3]).on .register).demanding .unmasked),
    (combining 0x3b 0x3b [.p66]).broadcasting, combining 0x3c 0x3c [.p66],
    (combining 0x3d 0x3d [.p66]).broadcasting, combining 0x3e 0x3e [.p66],
    (combining 0x3f 0x40 [.p66]).broadcasting,
    ((single 0x42 0x42 [.p66]).broadcasting).rounding, (combining 0x43 0x43 [.p66]).rounding,
    (single 0x44 0x44 [.p66]).broadcasting, (combining 0x45 0x47 [.p66]).broadcasting,
    (single 0x4c 0x4c [.p66]).broadcasting, combining 0x4d 0x4d [.p66],
    (single 0x4e 0x4e [.p66]).broadcasting, combining 0x4f 0x4f [.p66],
    narrow ((combining 0x50 0x53 [.p66]).broadcasting),
    narrow ((combining 0x52 0x52 [.pF3]).broadcasting),
    narrow (((combining 0x52 0x53 [.pF2]).on .memory).sized [2]),
    single 0x54 0x54 [.p66], (single 0x55 0x55 [.p66]).broadcasting,
    narrow (single 0x58 0x58 [.p66]), single 0x59 0x59 [.p66],
    ((single 0x5a 0x5a [.p66]).on .memory).sized [1, 2],
    ((single 0x5b 0x5b [.p66]).on .memory).sized [2], single 0x62 0x62 [.p66],
    storing (single 0x63 0x63 [.p66]), (combining 0x64 0x65 [.p66]).broadcasting,
    combining 0x66 0x66 [.p66],
    (comparing ((combining 0x68 0x68 [.pF2]).broadcasting)).demanding .unmasked,
    broad (combining 0x70 0x70 [.p66]), (combining 0x71 0x71 [.p66]).broadcasting,
    broad (combining 0x72 0x72 [.p66]), narrow ((single 0x72 0x72 [.pF3]).broadcasting),
    narrow ((combining 0x72 0x72 [.pF2]).broadcasting),
    (combining 0x73 0x73 [.p66]).broadcasting, combining 0x75 0x75 [.p66],
    (combining 0x76 0x77 [.p66]).broadcasting, narrow (single 0x78 0x79 [.p66]),
    narrow ((single 0x7a 0x7b [.p66]).on .register), (single 0x7c 0x7c [.p66]).on .register,
    combining 0x7d 0x7d [.p66], (combining 0x7e 0x7f [.p66]).broadcasting,
    broad ((combining 0x83 0x83 [.p66]).broadcasting), single 0x88 0x89 [.p66],
    storing (single 0x8a 0x8b [.p66]), combining 0x8d 0x8d [.p66],
    narrow (comparing (combining 0x8f 0x8f [.p66])),
    (selecting (single 0x90 0x93 [.p66])).demanding .ownIndex,
    narrow (((combining 0x9a 0x9a [.pF2]).on .memory).sized [2]),
    narrow ((combining 0x9b 0x9b [.pF2]).on .memory), selecting (single 0xa0 0xa3 [.p66]),
    narrow (((combining 0xaa 0xaa [.pF2]).on .memory).sized [2]),
    narrow ((combining 0xab 0xab [.pF2]).on .memory),
    broad ((combining 0xb4 0xb5 [.p66]).broadcasting), (single 0xc4 0xc4 [.p66]).broadcasting,
    (selecting ((single 0xc6 0xc7 [.p66]).group [1, 2, 5, 6])).sized [2],
    (((single 0xc8 0xc8 [.p66]).sized [2]).broadcasting).rounding,
    (((single 0xca 0xca [.p66]).sized [2]).broadcasting).rounding,
    (combining 0xcb 0xcb [.p66]).rounding,
    (((single 0xcc 0xcc [.p66]).sized [2]).broadcasting).rounding,
    (combining 0xcd 0xcd [.p66]).rounding, narrow (combining 0xcf 0xcf [.p66]),
    (combining 0xdc 0xdf [.p66]).demanding .unmasked ]
    ++ fused 0x90 false ++ fused 0xa0 false ++ fused 0xb0 false

/-- The third map; all of its encodings end in a byte. -/
def longMap3 : List Rule :=
  [ broad (((single 0x00 0x01 [.p66]).sized [1, 2]).broadcasting),
    (combining 0x03 0x03 [.p66]).broadcasting, narrow ((single 0x04 0x04 [.p66]).broadcasting),
    broad ((single 0x05 0x05 [.p66]).broadcasting),
    narrow (((single 0x08 0x08 [.plain, .p66]).broadcasting).rounding),
    broad (((single 0x09 0x09 [.p66]).broadcasting).rounding),
    narrow ((combining 0x0a 0x0a [.plain, .p66]).rounding),
    broad ((combining 0x0b 0x0b [.p66]).rounding), combining 0x0f 0x0f [.p66],
    short (single 0x14 0x17 [.p66]), (combining 0x18 0x18 [.p66]).sized [1, 2],
    storing ((single 0x19 0x19 [.p66]).sized [1, 2]), (combining 0x1a 0x1a [.p66]).sized [2],
    storing ((single 0x1b 0x1b [.p66]).sized [2]),
    narrow (storing ((single 0x1d 0x1d [.p66]).rounding)),
    comparing ((combining 0x1e 0x1f [.p66]).broadcasting), short (combining 0x20 0x20 [.p66]),
    narrow (short (combining 0x21 0x21 [.p66])), short (combining 0x22 0x22 [.p66]),
    ((combining 0x23 0x23 [.p66]).sized [1, 2]).broadcasting,
    (combining 0x25 0x25 [.p66]).broadcasting,
    ((single 0x26 0x26 [.p66]).broadcasting).rounding,
    narrow (((single 0x26 0x26 [.plain]).broadcasting).rounding),
    (combining 0x27 0x27 [.p66]).rounding, narrow ((combining 0x27 0x27 [.plain]).rounding),
    (combining 0x38 0x38 [.p66]).sized [1, 2], storing ((single 0x39 0x39 [.p66]).sized [1, 2]),
    (combining 0x3a 0x3a [.p66]).sized [2], storing ((single 0x3b 0x3b [.p66]).sized [2]),
    comparing (combining 0x3e 0x3f [.p66]), narrow (combining 0x42 0x42 [.p66]),
    ((combining 0x43 0x43 [.p66]).sized [1, 2]).broadcasting,
    (combining 0x44 0x44 [.p66]).demanding .unmasked,
    ((combining 0x50 0x50 [.p66]).broadcasting).rounding, (combining 0x51 0x51 [.p66]).rounding,
    ((combining 0x54 0x54 [.p66]).broadcasting).rounding, (combining 0x55 0x55 [.p66]).rounding,
    ((single 0x56 0x56 [.p66]).broadcasting).rounding,
    narrow (((single 0x56 0x56 [.plain]).broadcasting).rounding),
    (combining 0x57 0x57 [.p66]).rounding, narrow ((combining 0x57 0x57 [.plain]).rounding),
    comparing ((single 0x66 0x66 [.p66]).broadcasting),
    narrow (comparing ((single 0x66 0x66 [.plain]).broadcasting)),
    comparing (single 0x67 0x67 [.p66]), narrow (comparing (single 0x67 0x67 [.plain])),
    broad (combining 0x70 0x70 [.p66]), (combining 0x71 0x71 [.p66]).broadcasting,
    broad (combining 0x72 0x72 [.p66]), (combining 0x73 0x73 [.p66]).broadcasting,
    narrow (comparing (((combining 0xc2 0xc2 [.plain]).broadcasting).rounding)),
    narrow (comparing ((combining 0xc2 0xc2 [.pF3]).rounding)),
    broad ((combining 0xce 0xcf [.p66]).broadcasting) ].map fun r ↦ r.followedBy .byte

/-- The fifth map: half-precision numbers. -/
def longMap5 : List Rule :=
  [ narrow ((single 0x10 0x10 [.pF3]).on .memory),
    narrow (((single 0x11 0x11 [.pF3]).on .memory).demanding .merging),
    narrow ((combining 0x10 0x11 [.pF3]).on .register),
    narrow ((combining 0x1d 0x1d [.plain]).rounding),
    narrow (((single 0x1d 0x1d [.p66]).broadcasting).rounding),
    ((combining 0x2a 0x2a [.pF3]).rounding).demanding .unmasked,
    extracting ((single 0x2c 0x2d [.pF3]).rounding),
    narrow (((single 0x2e 0x2f [.plain]).rounding).demanding .unmasked),
    narrow (((single 0x51 0x51 [.plain]).broadcasting).rounding),
    narrow ((combining 0x51 0x51 [.pF3]).rounding),
    narrow (((combining 0x58 0x59 [.plain]).broadcasting).rounding),
    narrow ((combining 0x58 0x59 [.pF3]).rounding),
    narrow (((single 0x5a 0x5a [.plain]).broadcasting).rounding),
    broad (((single 0x5a 0x5a [.p66]).broadcasting).rounding),
    narrow ((combining 0x5a 0x5a [.pF3]).rounding), broad ((combining 0x5a 0x5a [.pF2]).rounding),
    ((single 0x5b 0x5b [.plain]).broadcasting).rounding,
    narrow (((single 0x5b 0x5b [.p66, .pF3]).broadcasting).rounding),
    narrow (((combining 0x5c 0x5f [.plain]).broadcasting).rounding),
    narrow ((combining 0x5c 0x5f [.pF3]).rounding), short (single 0x6e 0x6e [.p66]),
    narrow (((single 0x78 0x79 [.plain, .p66]).broadcasting).rounding),
    extracting ((single 0x78 0x79 [.pF3]).rounding),
    narrow (((single 0x7a 0x7b [.p66]).broadcasting).rounding),
    ((single 0x7a 0x7a [.pF2]).broadcasting).rounding,
    ((combining 0x7b 0x7b [.pF3]).rounding).demanding .unmasked,
    narrow (((single 0x7c 0x7c [.plain, .p66]).broadcasting).rounding),
    narrow (((single 0x7d 0x7d Selector.all).broadcasting).rounding),
    short (single 0x7e 0x7e [.p66]) ]

/-- Products of complex numbers, which are not written over their sources. -/
private def complexProduct (opcode : Nat) : Rule :=
  (narrow ((combining opcode opcode [.pF3, .pF2]).rounding)).demanding .ownTarget

/-- The sixth map: half-precision numbers. -/
def longMap6 : List Rule :=
  [ narrow (((single 0x13 0x13 [.p66]).broadcasting).rounding),
    narrow ((combining 0x13 0x13 [.plain]).rounding),
    narrow (((combining 0x2c 0x2c [.p66]).broadcasting).rounding),
    narrow ((combining 0x2d 0x2d [.p66]).rounding),
    narrow (((single 0x42 0x42 [.p66]).broadcasting).rounding),
    narrow ((combining 0x43 0x43 [.p66]).rounding),
    narrow ((single 0x4c 0x4c [.p66]).broadcasting), narrow (combining 0x4d 0x4d [.p66]),
    narrow ((single 0x4e 0x4e [.p66]).broadcasting), narrow (combining 0x4f 0x4f [.p66]),
    (complexProduct 0x56).broadcasting, complexProduct 0x57, (complexProduct 0xd6).broadcasting,
    complexProduct 0xd7 ]
    ++ fused 0x90 true ++ fused 0xa0 true ++ fused 0xb0 true

end LivePatch.X86
