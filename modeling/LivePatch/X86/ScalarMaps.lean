import LivePatch.X86.Rule

/-!
# Opcode maps of scalar encodings

The one-byte map, the two-byte map and the two three-byte maps in 64-bit mode, and the operations
that a suffix byte selects.
-/

namespace LivePatch.X86

open Rule

/-- Encodings without an operand byte. -/
private def bare (first last : Nat) : Rule := (span first last).on .absent

/-- The two-operand arithmetic of one row: with memory first, with a register first, and with an
immediate operand. -/
private def arithmetic (first : Nat) (lockable : Bool) : List Rule :=
  [{ span first (first + 1) with lockable := lockable }, span (first + 2) (first + 3),
    (bare (first + 4) (first + 4)).followedBy .byte,
    (bare (first + 5) (first + 5)).followedBy .operand]

/-- Encodings of one opcode byte. -/
def oneByteMap : List Rule :=
  arithmetic 0x00 true ++ arithmetic 0x08 true ++ arithmetic 0x10 true ++ arithmetic 0x18 true
    ++ arithmetic 0x20 true ++ arithmetic 0x28 true ++ arithmetic 0x30 true
    ++ arithmetic 0x38 false ++
  [ bare 0x50 0x5f, one 0x63, (bare 0x68 0x68).followedBy .operand,
    (one 0x69).followedBy .operand, (bare 0x6a 0x6a).followedBy .byte,
    (one 0x6b).followedBy .byte, bare 0x6c 0x6f, (bare 0x70 0x7f).followedBy .byte,
    ((one 0x80).group [0, 1, 2, 3, 4, 5, 6]).followedBy .byte |>.locked,
    ((one 0x80).group [7]).followedBy .byte,
    ((one 0x81).group [0, 1, 2, 3, 4, 5, 6]).followedBy .operand |>.locked,
    ((one 0x81).group [7]).followedBy .operand,
    ((one 0x83).group [0, 1, 2, 3, 4, 5, 6]).followedBy .byte |>.locked,
    ((one 0x83).group [7]).followedBy .byte,
    span 0x84 0x85, (span 0x86 0x87).locked, span 0x88 0x8b,
    (one 0x8c).group [0, 1, 2, 3, 4, 5], (one 0x8d).on .memory,
    (one 0x8e).group [0, 2, 3, 4, 5], (one 0x8f).group [0],
    bare 0x90 0x99, bare 0x9b 0x9f, (bare 0xa0 0xa3).followedBy .address, bare 0xa4 0xa7,
    (bare 0xa8 0xa8).followedBy .byte, (bare 0xa9 0xa9).followedBy .operand, bare 0xaa 0xaf,
    (bare 0xb0 0xb7).followedBy .byte, (bare 0xb8 0xbf).followedBy .full,
    (span 0xc0 0xc1).followedBy .byte, (bare 0xc2 0xc2).followedBy .word, bare 0xc3 0xc3,
    ((one 0xc6).group [0]).followedBy .byte, ((one 0xc6).on (.exactly [0xf8])).followedBy .byte,
    ((one 0xc7).group [0]).followedBy .operand,
    ((one 0xc7).on (.exactly [0xf8])).followedBy .operand,
    (bare 0xc8 0xc8).followedBy .three, bare 0xc9 0xc9, (bare 0xca 0xca).followedBy .word,
    bare 0xcb 0xcc, (bare 0xcd 0xcd).followedBy .byte, bare 0xcf 0xcf,
    span 0xd0 0xd3, bare 0xd7 0xd7,
    one 0xd8,
    ((one 0xd9).on .memory).group [0, 2, 3, 4, 5, 6, 7],
    (one 0xd9).on .register |>.group [0, 1, 3, 6, 7],
    (one 0xd9).on (.exactly
      [0xd0, 0xe0, 0xe1, 0xe4, 0xe5, 0xe8, 0xe9, 0xea, 0xeb, 0xec, 0xed, 0xee]),
    (one 0xda).on .memory, ((one 0xda).on .register).group [0, 1, 2, 3],
    (one 0xda).on (.exactly [0xe9]),
    ((one 0xdb).on .memory).group [0, 1, 2, 3, 5, 7],
    ((one 0xdb).on .register).group [0, 1, 2, 3, 5, 6],
    (one 0xdb).on (.exactly [0xe0, 0xe1, 0xe2, 0xe3, 0xe4]),
    one 0xdc,
    ((one 0xdd).on .memory).group [0, 1, 2, 3, 4, 6, 7],
    ((one 0xdd).on .register).group [0, 1, 2, 3, 4, 5],
    (one 0xde).on .memory, ((one 0xde).on .register).group [0, 1, 2, 4, 5, 6, 7],
    (one 0xde).on (.exactly [0xd9]),
    (one 0xdf).on .memory, ((one 0xdf).on .register).group [0, 1, 2, 3, 5, 6],
    (one 0xdf).on (.exactly [0xe0]),
    (bare 0xe0 0xe7).followedBy .byte, (bare 0xe8 0xe9).followedBy .four,
    (bare 0xeb 0xeb).followedBy .byte, bare 0xec 0xef,
    bare 0xf1 0xf1, bare 0xf4 0xf5,
    ((one 0xf6).group [0, 1]).followedBy .byte, ((one 0xf6).group [2, 3]).locked,
    (one 0xf6).group [4, 5, 6, 7],
    ((one 0xf7).group [0, 1]).followedBy .operand, ((one 0xf7).group [2, 3]).locked,
    (one 0xf7).group [4, 5, 6, 7],
    bare 0xf8 0xfd, ((one 0xfe).group [0, 1]).locked, ((one 0xff).group [0, 1]).locked,
    (one 0xff).group [2, 4, 6], ((one 0xff).on .memory).group [3, 5] ]

/-- Encodings behind the byte 0x0f. -/
def twoByteMap : List Rule :=
  [ (one 0x00).group [0, 1, 2, 3, 4, 5], ((one 0x00).group [6]).under [.pF2],
    ((one 0x01).on .memory).group [0, 1, 2, 3, 4, 6, 7],
    (((one 0x01).on .memory).group [5]).under [.pF3],
    ((one 0x01).on .register).group [4, 6],
    ((one 0x01).on (.exactly [0xc0, 0xc1, 0xc2, 0xc3, 0xc4, 0xc5, 0xc7, 0xc8, 0xc9, 0xcb, 0xcf,
      0xd0, 0xd1, 0xd4, 0xd5, 0xd6, 0xd7, 0xfb, 0xfc])).under [.plain],
    ((one 0x01).on (.exactly [0xc6])).under [.plain, .pF3, .pF2],
    (one 0x01).on (.exactly [0xd8, 0xd9, 0xda, 0xdb, 0xdc, 0xdd, 0xde, 0xdf, 0xf8, 0xf9]),
    ((one 0x01).on (.exactly [0xca])).under [.plain, .pF3, .pF2],
    ((one 0x01).on (.exactly [0xcc, 0xcd, 0xce, 0xcf])).under [.p66],
    ((one 0x01).on (.exactly [0xe8])).under [.plain, .pF3, .pF2],
    ((one 0x01).on (.exactly [0xe9])).under [.pF2],
    ((one 0x01).on (.exactly [0xea, 0xec, 0xed])).under [.pF3],
    ((one 0x01).on (.exactly [0xee, 0xef])).under [.plain, .pF3],
    ((one 0x01).on (.exactly [0xfa, 0xfd])).under [.plain, .pF3],
    ((one 0x01).on (.exactly [0xfe, 0xff])).under [.plain, .pF3, .pF2],
    span 0x02 0x03, bare 0x05 0x09, bare 0x0b 0x0b, one 0x0d, bare 0x0e 0x0e,
    span 0x10 0x11, (one 0x12).under [.plain, .pF3, .pF2], ((one 0x12).on .memory).under [.p66],
    ((one 0x13).on .memory).under [.plain, .p66], (span 0x14 0x15).under [.plain, .p66],
    (one 0x16).under [.plain, .pF3], ((one 0x16).on .memory).under [.p66],
    ((one 0x17).on .memory).under [.plain, .p66], span 0x18 0x1f,
    (span 0x28 0x29).under [.plain, .p66], one 0x2a, (one 0x2b).on .memory, span 0x2c 0x2d,
    (span 0x2e 0x2f).under [.plain, .p66], bare 0x30 0x35, (bare 0x37 0x37).under [.plain],
    span 0x40 0x4f,
    ((one 0x50).on .register).under [.plain, .p66], one 0x51,
    (span 0x52 0x53).under [.plain, .pF3], (span 0x54 0x57).under [.plain, .p66],
    span 0x58 0x5a, (one 0x5b).under [.plain, .p66, .pF3], span 0x5c 0x5f,
    (span 0x60 0x6b).under [.plain, .p66], (span 0x6c 0x6d).under [.p66],
    (one 0x6e).under [.plain, .p66], (one 0x6f).under [.plain, .p66, .pF3],
    (one 0x70).followedBy .byte,
    ((((span 0x71 0x72).on .register).group [2, 4, 6]).under [.plain, .p66]).followedBy .byte,
    ((((one 0x73).on .register).group [2, 6]).under [.plain, .p66]).followedBy .byte,
    ((((one 0x73).on .register).group [3, 7]).under [.p66]).followedBy .byte,
    (span 0x74 0x76).under [.plain, .p66], (bare 0x77 0x77).under [.plain],
    (one 0x78).under [.plain],
    ((((one 0x78).on .register).group [0]).under [.p66]).followedBy .word,
    (((one 0x78).on .register).under [.pF2]).followedBy .word,
    (one 0x79).under [.plain], ((one 0x79).on .register).under [.p66, .pF2],
    (span 0x7c 0x7d).under [.p66, .pF2], (span 0x7e 0x7f).under [.plain, .p66, .pF3],
    (bare 0x80 0x8f).followedBy .four, span 0x90 0x9f, bare 0xa0 0xa2, one 0xa3,
    (one 0xa4).followedBy .byte, one 0xa5,
    ((((one 0xa6).on .register).group [0]).under [.pF3]).demanding .shortAddress,
    (((one 0xa6).on .register).group [1, 2, 3, 4, 5, 6, 7]).under [.pF3],
    ((one 0xa7).on .register).group [0],
    (((one 0xa7).on .register).group [1, 2, 3, 4, 5, 6, 7]).under [.pF3],
    bare 0xa8 0xaa, (one 0xab).locked, (one 0xac).followedBy .byte, one 0xad,
    ((one 0xae).on .memory).under [.plain],
    (((one 0xae).on .memory).group [6, 7]).under [.p66],
    (((one 0xae).on .memory).group [6]).under [.pF3],
    (((one 0xae).group [4]).under [.pF3]).demanding .fullOperand,
    (((one 0xae).on .register).group [5, 6, 7]).under [.plain],
    (((one 0xae).on .register).group [6]).under [.p66, .pF2],
    (((one 0xae).on .register).group [0, 1, 2, 3, 5, 6]).under [.pF3],
    one 0xaf, (span 0xb0 0xb1).locked, (one 0xb2).on .memory, (one 0xb3).locked,
    (span 0xb4 0xb5).on .memory, span 0xb6 0xb7, (one 0xb8).under [.pF3], one 0xb9,
    ((one 0xba).group [4]).followedBy .byte,
    (((one 0xba).group [5, 6, 7]).followedBy .byte).locked, (one 0xbb).locked,
    span 0xbc 0xbf, (span 0xc0 0xc1).locked, (one 0xc2).followedBy .byte,
    ((one 0xc3).on .memory).under [.plain],
    ((one 0xc4).under [.plain, .p66]).followedBy .byte,
    (((one 0xc5).on .register).under [.plain, .p66]).followedBy .byte,
    ((one 0xc6).under [.plain, .p66]).followedBy .byte,
    (((one 0xc7).on .memory).group [1]).locked,
    (((one 0xc7).on .memory).group [3, 4, 5, 7]).under [.plain],
    (((one 0xc7).on .memory).group [6]).under [.plain, .p66, .pF3],
    (((one 0xc7).on .register).group [6, 7]).under [.plain, .p66, .pF3],
    bare 0xc8 0xcf, (one 0xd0).under [.p66, .pF2], (span 0xd1 0xd5).under [.plain, .p66],
    (one 0xd6).under [.p66], ((one 0xd6).on .register).under [.pF3, .pF2],
    ((one 0xd7).on .register).under [.plain, .p66], (span 0xd8 0xe5).under [.plain, .p66],
    (one 0xe6).under [.p66, .pF3, .pF2], ((one 0xe7).on .memory).under [.plain, .p66],
    (span 0xe8 0xef).under [.plain, .p66], ((one 0xf0).on .memory).under [.pF2],
    (span 0xf1 0xf6).under [.plain, .p66], ((one 0xf7).on .register).under [.plain, .p66],
    (span 0xf8 0xfe).under [.plain, .p66], one 0xff ]

/-- Encodings behind the bytes 0x0f 0x38. -/
def threeByteMap38 : List Rule :=
  [ (span 0x00 0x0b).under [.plain, .p66], (one 0x10).under [.p66], (span 0x14 0x15).under [.p66],
    (one 0x17).under [.p66], (span 0x1c 0x1e).under [.plain, .p66], (span 0x20 0x25).under [.p66],
    (span 0x28 0x29).under [.p66], ((one 0x2a).on .memory).under [.p66], (one 0x2b).under [.p66],
    (span 0x30 0x35).under [.p66], (span 0x37 0x41).under [.p66],
    ((span 0x80 0x82).on .memory).under [.p66], (span 0xc8 0xcd).under [.plain],
    (one 0xcf).under [.p66], (((one 0xd8).on .memory).group [0, 1, 2, 3]).under [.pF3],
    (span 0xdb 0xdf).under [.p66], ((span 0xdc 0xdf).on .memory).under [.pF3],
    ((one 0xdc).on .register).under [.pF3],
    ((span 0xf0 0xf1).on .memory).under [.plain, .p66], (span 0xf0 0xf1).under [.pF2],
    ((one 0xf5).on .memory).under [.p66], ((one 0xf6).on .memory).under [.plain],
    (one 0xf6).under [.p66, .pF3], ((one 0xf8).on .memory).under [.p66, .pF3, .pF2],
    ((one 0xf9).on .memory).under [.plain], ((span 0xfa 0xfb).on .register).under [.pF3],
    (one 0xfc).on .memory ]

/-- Encodings behind the bytes 0x0f 0x3a; all of them end in a byte. -/
def threeByteMap3a : List Rule :=
  [ (span 0x08 0x0e).under [.p66], (one 0x0f).under [.plain, .p66], (span 0x14 0x17).under [.p66],
    (span 0x20 0x22).under [.p66], (span 0x40 0x42).under [.p66], (one 0x44).under [.p66],
    (span 0x60 0x63).under [.p66], (one 0xcc).under [.plain], (span 0xce 0xcf).under [.p66],
    (one 0xdf).under [.p66], ((one 0xf0).on (.exactly [0xc0])).under [.pF3] ].map
    fun r ↦ r.followedBy .byte

/-- The suffix bytes behind 0x0f 0x0f that select an operation. -/
def suffixOperations : List Nat :=
  [0x0c, 0x0d, 0x1c, 0x1d, 0x8a, 0x8e, 0x90, 0x94, 0x96, 0x97, 0x9a, 0x9e, 0xa0, 0xa4, 0xa6, 0xa7,
    0xaa, 0xae, 0xb0, 0xb4, 0xb6, 0xb7, 0xbb, 0xbf]

end LivePatch.X86
