import LivePatch.Bytes
import LivePatch.Failure
import LivePatch.Word
import LivePatch.X86.LongMaps
import LivePatch.X86.ScalarMaps
import LivePatch.X86.VectorMaps

/-!
# Instruction lengths

How many bytes the instruction at the start of some code takes in 64-bit mode: prefixes, opcode,
operand byte, index byte, displacement and what follows. Undefined encodings and encodings that the
code ends in have no length.
-/

namespace LivePatch.X86

/-- The longest instruction. -/
def maxLength : Nat := 15

/-- What the prefixes of an instruction ask for. -/
structure Prefixes where
  /-- Operands of 16 bits. -/
  shortOperand : Bool
  /-- Addresses of 32 bits. -/
  shortAddress : Bool
  /-- The last repeat prefix. -/
  repeated : Option Selector
  lock : Bool
  /-- The register extension right before the opcode. -/
  extension : Option Nat

namespace Prefixes

/-- No prefix. -/
def none : Prefixes := ⟨false, false, Option.none, false, Option.none⟩

/-- The wide-operand bit of the register extension. -/
def wide (p : Prefixes) : Bool := (p.extension.map fun x ↦ x / 8 % 2 == 1).getD false

/-- The bit of the register extension that belongs to the register field. -/
def highRegister (p : Prefixes) : Bool := (p.extension.map fun x ↦ x / 4 % 2 == 1).getD false

/-- The prefix that selects among instructions of one opcode. -/
def selector (p : Prefixes) : Selector :=
  p.repeated.getD (if p.shortOperand then .p66 else .plain)

/-- Whether a vector prefix may follow. -/
def isClean (p : Prefixes) : Bool :=
  p.extension.isNone && p.repeated.isNone && !p.shortOperand && !p.lock

/-- The prefixes with one more byte, if that byte is a prefix. A register extension counts only
right before the opcode. -/
def extend? (p : Prefixes) (b : Nat) : Option Prefixes :=
  if b / 16 = 4 then some { p with extension := some (b % 16) }
  else
    let p := { p with extension := Option.none }
    if [0x26, 0x2e, 0x36, 0x3e, 0x64, 0x65].contains b then some p
    else if b = 0x66 then some { p with shortOperand := true }
    else if b = 0x67 then some { p with shortAddress := true }
    else if b = 0xf0 then some { p with lock := true }
    else if b = 0xf2 then some { p with repeated := some .pF2 }
    else if b = 0xf3 then some { p with repeated := some .pF3 }
    else Option.none

end Prefixes

/-- The prefixes of code and the code behind them. -/
def splitPrefixes (p : Prefixes) : List UInt8 → Prefixes × List UInt8
  | [] => (p, [])
  | b :: rest =>
    match p.extend? b.toNat with
    | some q => splitPrefixes q rest
    | none => (p, b :: rest)

/-- Bytes that the operand byte and what belongs to it take. -/
def operandLength (m : Nat) (next : Option Nat) : Nat :=
  let mode := m / 64
  let base := m % 8
  if mode = 3 then 1
  else
    let index := if base = 4 then 1 else 0
    let displacement :=
      if mode = 1 then 1
      else if mode = 2 then 4
      else if base = 5 then 4
      else if base = 4 && (next.map fun s ↦ s % 8 == 5).getD false then 4
      else 0
    1 + index + displacement

/-- Bytes that follow the operand bytes. -/
def tailLength (p : Prefixes) (wide : Bool) : Tail → Nat
  | .nothing => 0
  | .byte => 1
  | .word => 2
  | .three => 3
  | .four => 4
  | .operand => if p.shortOperand && !wide then 2 else 4
  | .full => if wide then 8 else if p.shortOperand then 2 else 4
  | .address => if p.shortAddress then 4 else 8

/-- Length of an encoding behind its opcode, by the rule that admits it. -/
def lengthBehind (p : Prefixes) (wide : Bool) (r : Rule) (code : List UInt8) : Nat :=
  let operand :=
    match r.operand, code with
    | .absent, _ => 0
    | _, [] => 1
    | .forced, _ => 1
    | _, m :: rest => operandLength m.toNat (rest.head?.map UInt8.toNat)
  operand + tailLength p wide r.tail

/-- Whether the lock prefix, if it is there, is one that the rule admits. -/
def lockAllowed (p : Prefixes) (r : Rule) (code : List UInt8) : Bool :=
  !p.lock || (r.lockable && (code.head?.map fun m ↦ m.toNat / 64 != 3).getD false)

/-- The encoding of scalar code behind its opcode. -/
def scalarEncoding (p : Prefixes) (opcode : Nat) (code : List UInt8) : Encoding :=
  Encoding.scalar opcode p.selector (code.head?.map UInt8.toNat) p.wide p.shortOperand
    p.shortAddress

/-- Length of scalar code behind its opcode. -/
def scalarLength (p : Prefixes) (map : List Rule) (opcode : Nat) (code : List UInt8) :
    Option Nat := do
  let r ← lookup map (scalarEncoding p opcode code)
  if lockAllowed p r code then pure (lengthBehind p p.wide r code) else none

/-- Moves to and from control and debug registers: the operand is a register whatever its mode
says, and only the registers that exist can be named. -/
def systemMove? (p : Prefixes) (opcode : Nat) (code : List UInt8) : Option Nat := do
  let m ← code.head?
  let number := m.toNat / 8 % 8 + (if p.highRegister then 8 else 0)
  let defined :=
    if opcode = 0x20 || opcode = 0x22 then [0, 2, 3, 4, 8].contains number else number < 8
  if defined && !p.lock then pure 1 else none

/-- Length of code behind the bytes 0x0f 0x0f: the suffix selects the operation. -/
def suffixLength? (p : Prefixes) (code : List UInt8) : Option Nat := do
  let m ← code.head?
  let operand := operandLength m.toNat (code.tail.head?.map UInt8.toNat)
  let suffix ← code[operand]?
  if suffixOperations.contains suffix.toNat && !p.lock then pure (operand + 1) else none

/-- Length of code behind the byte 0x0f. -/
def escapedLength (p : Prefixes) : List UInt8 → Option Nat
  | [] => none
  | b :: rest =>
    let opcode := b.toNat
    if opcode = 0x38 then
      match rest with
      | [] => none
      | c :: code => (scalarLength p threeByteMap38 c.toNat code).map (· + 2)
    else if opcode = 0x3a then
      match rest with
      | [] => none
      | c :: code => (scalarLength p threeByteMap3a c.toNat code).map (· + 2)
    else if opcode = 0x0f then (suffixLength? p rest).map (· + 1)
    else if 0x20 ≤ opcode && opcode ≤ 0x23 then (systemMove? p opcode rest).map (· + 1)
    else (scalarLength p twoByteMap opcode rest).map (· + 1)

/-- Length of vector code behind its opcode. -/
def vectorLength (p : Prefixes) (map : List Rule) (e : Encoding) (code : List UInt8) :
    Option Nat := do
  let r ← lookup map e
  pure (lengthBehind p e.wide r code)

/-- The map of a vector prefix that a number selects. -/
def vectorMap : Nat → List Rule
  | 1 => vectorMap1
  | 2 => vectorMap2
  | 3 => vectorMap3
  | _ => []

/-- The map of the extended-operation prefix that a number selects. -/
def extendedMap : Nat → List Rule
  | 8 => extendedMap8
  | 9 => extendedMap9
  | 10 => extendedMap10
  | _ => []

/-- The map of the long vector prefix that a number selects. -/
def longMap : Nat → List Rule
  | 1 => longMap1
  | 2 => longMap2
  | 3 => longMap3
  | 5 => longMap5
  | 6 => longMap6
  | _ => []

/-- What the last byte of a short vector prefix and the inverted extension bits in front of it say:
the number that selects the prefix, the vector length, the extra source register and the extensions
of target, index and base. -/
def vectorEncoding (fields opcode : Nat) (code : List UInt8) (wide : Bool)
    (target index base : Nat) : Encoding :=
  let operand := code.head?.map UInt8.toNat
  let scaled := (code.tail.head?.map UInt8.toNat).getD 0
  let m := operand.getD 0
  { Encoding.scalar opcode (Selector.ofNumber (fields % 4)) operand wide false false with
    length := fields / 4 % 2
    target := m / 8 % 8 + 8 * target
    source := 15 - fields / 8 % 16
    base := m % 8 + 8 * base
    index := scaled / 8 % 8 + 8 * index }

/-- Length of code behind a short vector prefix of two payload bytes. -/
def longFormLength (p : Prefixes) (map : Nat → List Rule) : List UInt8 → Option Nat
  | b :: c :: opcode :: code =>
    let x := 7 - b.toNat / 32
    let e :=
      vectorEncoding c.toNat opcode.toNat code (c.toNat / 128 == 1) (x / 4) (x / 2 % 2) (x % 2)
    (vectorLength p (map (b.toNat % 32)) e code).map (· + 3)
  | _ => none

/-- Length of code behind a short vector prefix of one payload byte. -/
def shortFormLength (p : Prefixes) : List UInt8 → Option Nat
  | c :: opcode :: code =>
    let e := vectorEncoding c.toNat opcode.toNat code false (1 - c.toNat / 128) 0 0
    (vectorLength p vectorMap1 e code).map (· + 2)
  | _ => none

/-- The encoding that the three payload bytes of the long vector prefix describe. Control of
rounding with a register operand implies 512 bits. -/
def longEncoding (b c d opcode : Nat) (code : List UInt8) : Encoding :=
  let x := 15 - b / 16
  let e := vectorEncoding c opcode code (c / 128 == 1) (x / 8) (x / 4 % 2) (x / 2 % 2)
  let high := 1 - d / 8 % 2
  let broadcast := d / 16 % 2 == 1
  { e with
    length := if broadcast && e.isRegister then 2 else d / 32 % 4
    target := e.target + 16 * (x % 2)
    source := e.source + 16 * high
    base := e.base + 16 * (x / 4 % 2)
    index := e.index + 16 * high
    broadcast := broadcast
    mask := d % 8
    zeroing := d / 128 == 1 }

/-- Length of code behind the long vector prefix. Zeroing wants a mask. -/
def fourByteLength (p : Prefixes) : List UInt8 → Option Nat
  | b :: c :: d :: opcode :: code =>
    let e := longEncoding b.toNat c.toNat d.toNat opcode.toNat code
    if b.toNat / 8 % 2 = 0 && c.toNat / 4 % 2 = 1 && !(e.zeroing && e.mask == 0) then
      (vectorLength p (longMap (b.toNat % 8)) e code).map (· + 4)
    else none
  | _ => none

/-- Length of code behind its prefixes. -/
def opcodeLength (p : Prefixes) : List UInt8 → Option Nat
  | [] => none
  | b :: rest =>
    let opcode := b.toNat
    let isExtended :=
      opcode == 0x8f && (rest.head?.map fun m ↦ decide (8 ≤ m.toNat % 32)).getD false
    if opcode = 0x0f then (escapedLength p rest).map (· + 1)
    else if opcode = 0xc4 || opcode = 0xc5 || opcode = 0x62 || isExtended then
      if !p.isClean then none
      else if opcode = 0xc5 then (shortFormLength p rest).map (· + 1)
      else if opcode = 0x62 then (fourByteLength p rest).map (· + 1)
      else (longFormLength p (if isExtended then extendedMap else vectorMap) rest).map (· + 1)
    else (scalarLength p oneByteMap opcode rest).map (· + 1)

/-- Length of the instruction that code starts with. -/
def instructionLength? (code : List UInt8) : Option Nat := do
  let window := code.take maxLength
  let (p, rest) := splitPrefixes Prefixes.none window
  let length ← opcodeLength p rest
  let total := window.length - rest.length + length
  if total ≤ window.length then pure total else none

/-- Whole instructions from the start of code at an address, until at least `wanted` bytes are
covered; `covered` of them were before. The number of instructions is bounded by the code. -/
def coverFrom (address : UInt64) (wanted : Nat) : Nat → Nat → List UInt8 → Outcome Nat
  | 0, covered, _ => .ok covered
  | fuel + 1, covered, code =>
    if wanted ≤ covered then .ok covered
    else if code.isEmpty then do
      let stop ← orFault (Word.add64? address (UInt64.ofNat covered))
      fail (.outOfCode stop.toNat covered)
    else match instructionLength? code with
      | none => fail (.invalidInstruction (address + UInt64.ofNat covered))
      | some n => coverFrom address wanted fuel (covered + n) (code.drop n)

/-- Bytes of the whole instructions at the start of code that cover at least `wanted` bytes. -/
def covered (code : Bytes) (address : UInt64) (wanted : Nat) : Outcome Nat :=
  coverFrom address wanted (code.size + 1) 0 code.toList

end LivePatch.X86
