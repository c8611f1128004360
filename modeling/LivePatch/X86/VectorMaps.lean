import LivePatch.X86.Rule

/-!
# Opcode maps of vector encodings

The maps behind the two- and three-byte vector prefixes and behind the extended-operation prefix.
The vector length is 0 for 128 and 1 for 256 bits.
-/

namespace LivePatch.X86

open Rule

/-- Encodings with three operands. -/
private def three (first last : Nat) (selectors : List Selector) : Rule :=
  ((span first last).under selectors).sourced

/-- Encodings with two operands. -/
private def two (first last : Nat) (selectors : List Selector) : Rule :=
  (span first last).under selectors

/-- An operation on three mask registers. -/
private def masks (first last : Nat) (selectors : List Selector) : Rule :=
  ((((three first last selectors).on .register).sized [1]).demanding .maskTarget).demanding
    .maskSource

/-- An encoding of 128 bits whose target is a mask register. -/
private def intoMask (first last : Nat) (selectors : List Selector) : Rule :=
  ((two first last selectors).sized [0]).demanding .maskTarget

/-- An operation on three tile registers. -/
private def tiles (opcode : Nat) (selectors : List Selector) : Rule :=
  ((((three opcode opcode selectors).on .register).sized [0]).whenWide .clear).demanding .threeTiles

/-- The first map of the short vector prefixes. -/
def vectorMap1 : List Rule :=
  [ two 0x10 0x11 [.plain, .p66], (two 0x10 0x11 [.pF3, .pF2]).on .memory,
    (three 0x10 0x11 [.pF3, .pF2]).on .register,
    (three 0x12 0x12 [.plain]).sized [0], ((three 0x12 0x12 [.p66]).on .memory).sized [0],
    two 0x12 0x12 [.pF3, .pF2], ((two 0x13 0x13 [.plain, .p66]).on .memory).sized [0],
    three 0x14 0x15 [.plain, .p66], (three 0x16 0x16 [.plain]).sized [0],
    ((three 0x16 0x16 [.p66]).on .memory).sized [0], two 0x16 0x16 [.pF3],
    ((two 0x17 0x17 [.plain, .p66]).on .memory).sized [0],
    two 0x28 0x29 [.plain, .p66], three 0x2a 0x2a [.pF3, .pF2],
    (two 0x2b 0x2b [.plain, .p66]).on .memory, two 0x2c 0x2d [.pF3, .pF2],
    two 0x2e 0x2f [.plain, .p66],
    masks 0x41 0x42 [.plain, .p66], (intoMask 0x44 0x44 [.plain, .p66]).on .register,
    masks 0x45 0x47 [.plain, .p66], masks 0x4a 0x4a [.plain, .p66], masks 0x4b 0x4b [.plain],
    (masks 0x4b 0x4b [.p66]).whenWide .clear,
    (two 0x50 0x50 [.plain, .p66]).on .register, two 0x51 0x51 [.plain, .p66],
    three 0x51 0x51 [.pF3, .pF2], two 0x52 0x53 [.plain], three 0x52 0x53 [.pF3],
    three 0x54 0x57 [.plain, .p66], three 0x58 0x59 Selector.all, two 0x5a 0x5a [.plain, .p66],
    three 0x5a 0x5a [.pF3, .pF2], two 0x5b 0x5b [.plain, .p66, .pF3],
    three 0x5c 0x5f Selector.all, three 0x60 0x6d [.p66], (two 0x6e 0x6e [.p66]).sized [0],
    two 0x6f 0x6f [.p66, .pF3], (two 0x70 0x70 [.p66, .pF3, .pF2]).followedBy .byte,
    (((three 0x71 0x72 [.p66]).on .register).group [2, 4, 6]).followedBy .byte,
    (((three 0x73 0x73 [.p66]).on .register).group [2, 3, 6, 7]).followedBy .byte,
    three 0x74 0x76 [.p66], (two 0x77 0x77 [.plain]).on .absent,
    three 0x7c 0x7d [.p66, .pF2], (two 0x7e 0x7e [.p66, .pF3]).sized [0],
    two 0x7f 0x7f [.p66, .pF3],
    intoMask 0x90 0x90 [.plain, .p66], (intoMask 0x91 0x91 [.plain, .p66]).on .memory,
    ((intoMask 0x92 0x92 [.plain, .p66]).on .register).whenWide .clear,
    (intoMask 0x92 0x92 [.pF2]).on .register,
    (((two 0x93 0x93 [.plain, .p66]).on .register).sized [0]).whenWide .clear,
    ((two 0x93 0x93 [.pF2]).on .register).sized [0],
    (intoMask 0x98 0x99 [.plain, .p66]).on .register,
    (((two 0xae 0xae [.plain]).on .memory).group [2, 3]).sized [0],
    (three 0xc2 0xc2 Selector.all).followedBy .byte,
    ((three 0xc4 0xc4 [.p66]).sized [0]).followedBy .byte,
    (((two 0xc5 0xc5 [.p66]).on .register).sized [0]).followedBy .byte,
    (three 0xc6 0xc6 [.plain, .p66]).followedBy .byte, three 0xd0 0xd0 [.p66, .pF2],
    three 0xd1 0xd5 [.p66], (two 0xd6 0xd6 [.p66]).sized [0],
    (two 0xd7 0xd7 [.p66]).on .register, three 0xd8 0xe5 [.p66],
    two 0xe6 0xe6 [.p66, .pF3, .pF2], (two 0xe7 0xe7 [.p66]).on .memory, three 0xe8 0xef [.p66],
    (two 0xf0 0xf0 [.pF2]).on .memory, three 0xf1 0xf6 [.p66],
    ((two 0xf7 0xf7 [.p66]).on .register).sized [0], three 0xf8 0xfe [.p66] ]

/-- The second map of the short vector prefixes. -/
def vectorMap2 : List Rule :=
  [ three 0x00 0x0b [.p66], (three 0x0c 0x0d [.p66]).whenWide .clear,
    (two 0x0e 0x0f [.p66]).whenWide .clear, (two 0x13 0x13 [.p66]).whenWide .clear,
    ((three 0x16 0x16 [.p66]).sized [1]).whenWide .clear, two 0x17 0x17 [.p66],
    (two 0x18 0x18 [.p66]).whenWide .clear, ((two 0x19 0x19 [.p66]).sized [1]).whenWide .clear,
    (((two 0x1a 0x1a [.p66]).on .memory).sized [1]).whenWide .clear, two 0x1c 0x1e [.p66],
    two 0x20 0x25 [.p66], three 0x28 0x29 [.p66], (two 0x2a 0x2a [.p66]).on .memory,
    three 0x2b 0x2b [.p66], ((three 0x2c 0x2f [.p66]).on .memory).whenWide .clear,
    two 0x30 0x35 [.p66], ((three 0x36 0x36 [.p66]).sized [1]).whenWide .clear,
    three 0x37 0x40 [.p66], (two 0x41 0x41 [.p66]).sized [0], three 0x45 0x45 [.p66],
    (three 0x46 0x46 [.p66]).whenWide .clear, three 0x47 0x47 [.p66],
    ((((two 0x49 0x49 [.plain, .p66]).on .memory).group [0]).sized [0]).whenWide .clear,
    (((two 0x49 0x49 [.plain]).on (.exactly [0xc0])).sized [0]).whenWide .clear,
    ((intoMask 0x49 0x49 [.pF2]).on
      (.exactly [0xc0, 0xc8, 0xd0, 0xd8, 0xe0, 0xe8, 0xf0, 0xf8])).whenWide .clear,
    ((intoMask 0x4b 0x4b [.p66, .pF3, .pF2]).on .indexed).whenWide .clear,
    (three 0x50 0x51 Selector.all).whenWide .clear, (three 0x52 0x53 [.p66]).whenWide .clear,
    (two 0x58 0x59 [.p66]).whenWide .clear,
    (((two 0x5a 0x5a [.p66]).on .memory).sized [1]).whenWide .clear,
    tiles 0x5c [.pF3, .pF2], tiles 0x5e Selector.all, tiles 0x6c [.plain, .p66],
    (two 0x72 0x72 [.pF3]).whenWide .clear, (two 0x78 0x79 [.p66]).whenWide .clear,
    (three 0x8c 0x8c [.p66]).on .memory, (three 0x8e 0x8e [.p66]).on .memory,
    ((three 0x90 0x93 [.p66]).on .indexed).demanding .threeVectors, three 0x96 0x9f [.p66],
    three 0xa6 0xaf [.p66],
    ((two 0xb0 0xb0 Selector.all).on .memory).whenWide .clear,
    ((two 0xb1 0xb1 [.p66, .pF3]).on .memory).whenWide .clear,
    (three 0xb4 0xb5 [.p66]).whenWide .set, three 0xb6 0xbf [.p66],
    (((three 0xcb 0xcb [.pF2]).on .register).sized [1]).whenWide .clear,
    (((two 0xcc 0xcd [.pF2]).on .register).sized [1]).whenWide .clear,
    (three 0xcf 0xcf [.p66]).whenWide .clear,
    (three 0xd2 0xd3 [.plain, .p66, .pF3]).whenWide .clear,
    ((three 0xda 0xda [.plain, .p66]).sized [0]).whenWide .clear,
    (three 0xda 0xda [.pF3, .pF2]).whenWide .clear, (two 0xdb 0xdb [.p66]).sized [0],
    three 0xdc 0xdf [.p66],
    ((three 0xe0 0xef [.p66]).on .memory).sized [0], (three 0xf2 0xf2 [.plain]).sized [0],
    ((three 0xf3 0xf3 [.plain]).group [1, 2, 3]).sized [0],
    (three 0xf5 0xf5 [.plain, .pF3, .pF2]).sized [0], (three 0xf6 0xf6 [.pF2]).sized [0],
    (three 0xf7 0xf7 Selector.all).sized [0] ]

/-- The third map of the short vector prefixes; all of its encodings end in a byte. -/
def vectorMap3 : List Rule :=
  [ ((two 0x00 0x01 [.p66]).sized [1]).whenWide .set, (three 0x02 0x02 [.p66]).whenWide .clear,
    (two 0x04 0x05 [.p66]).whenWide .clear, ((three 0x06 0x06 [.p66]).sized [1]).whenWide .clear,
    two 0x08 0x09 [.p66], three 0x0a 0x0f [.p66], (two 0x14 0x17 [.p66]).sized [0],
    ((three 0x18 0x18 [.p66]).sized [1]).whenWide .clear,
    ((two 0x19 0x19 [.p66]).sized [1]).whenWide .clear, (two 0x1d 0x1d [.p66]).whenWide .clear,
    (three 0x20 0x22 [.p66]).sized [0], (intoMask 0x30 0x33 [.p66]).on .register,
    ((three 0x38 0x38 [.p66]).sized [1]).whenWide .clear,
    ((two 0x39 0x39 [.p66]).sized [1]).whenWide .clear, three 0x40 0x40 [.p66],
    (three 0x41 0x41 [.p66]).sized [0], three 0x42 0x42 [.p66], three 0x44 0x44 [.p66],
    ((three 0x46 0x46 [.p66]).sized [1]).whenWide .clear, three 0x48 0x49 [.p66],
    (three 0x4a 0x4c [.p66]).whenWide .clear, three 0x5c 0x5f [.p66],
    (two 0x60 0x63 [.p66]).sized [0], three 0x68 0x6f [.p66], three 0x78 0x7f [.p66],
    (three 0xce 0xcf [.p66]).whenWide .set, ((three 0xde 0xde [.p66]).sized [0]).whenWide .clear,
    (two 0xdf 0xdf [.p66]).sized [0],
    (two 0xf0 0xf0 [.pF2]).sized [0] ].map fun r ↦ r.followedBy .byte

/-- The first map of the extended operations; all of its encodings end in a byte. -/
def extendedMap8 : List Rule :=
  [ ((three 0x85 0x87 [.plain]).sized [0]).whenWide .clear,
    ((three 0x8e 0x8f [.plain]).sized [0]).whenWide .clear,
    ((three 0x95 0x97 [.plain]).sized [0]).whenWide .clear,
    ((three 0x9e 0x9f [.plain]).sized [0]).whenWide .clear,
    (three 0xa2 0xa2 [.plain]).sized [0, 1], (three 0xa3 0xa3 [.plain]).sized [0],
    ((three 0xa6 0xa6 [.plain]).sized [0]).whenWide .clear,
    ((three 0xb6 0xb6 [.plain]).sized [0]).whenWide .clear,
    ((two 0xc0 0xc3 [.plain]).sized [0]).whenWide .clear,
    ((three 0xcc 0xcf [.plain]).sized [0]).whenWide .clear,
    ((three 0xec 0xef [.plain]).sized [0]).whenWide .clear ].map fun r ↦ r.followedBy .byte

/-- The second map of the extended operations. -/
def extendedMap9 : List Rule :=
  [ ((three 0x01 0x01 [.plain]).group [1, 2, 3, 4, 5, 6, 7]).sized [0],
    ((three 0x02 0x02 [.plain]).group [1, 6]).sized [0],
    (((two 0x12 0x12 [.plain]).on .register).group [0, 1]).sized [0],
    ((two 0x80 0x81 [.plain]).sized [0, 1]).whenWide .clear,
    ((two 0x82 0x83 [.plain]).sized [0]).whenWide .clear, (three 0x90 0x9b [.plain]).sized [0],
    ((two 0xc1 0xc3 [.plain]).sized [0]).whenWide .clear,
    ((two 0xc6 0xc7 [.plain]).sized [0]).whenWide .clear,
    ((two 0xcb 0xcb [.plain]).sized [0]).whenWide .clear,
    ((two 0xd1 0xd3 [.plain]).sized [0]).whenWide .clear,
    ((two 0xd6 0xd7 [.plain]).sized [0]).whenWide .clear,
    ((two 0xdb 0xdb [.plain]).sized [0]).whenWide .clear,
    ((two 0xe1 0xe3 [.plain]).sized [0]).whenWide .clear ]

/-- The third map of the extended operations; all of its encodings end in four bytes. -/
def extendedMap10 : List Rule :=
  [ (two 0x10 0x10 [.plain]).sized [0], ((three 0x12 0x12 [.plain]).group [0, 1]).sized [0] ].map
    fun r ↦ r.followedBy .four

end LivePatch.X86
