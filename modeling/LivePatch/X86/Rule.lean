/-!
# Encoding rules

An opcode map is a list of rules. A rule covers a span of opcodes and lists under which selecting
prefix, with which operand in the second opcode byte and in which vector length an encoding is
defined, and what follows its operand bytes. An encoding that no rule of its map admits is
undefined.
-/

namespace LivePatch.X86

/-- The prefix that selects among the instructions sharing an opcode, in the order of its two-bit
number in vector encodings. -/
inductive Selector where
  | plain
  | p66
  | pF3
  | pF2
  deriving DecidableEq, Repr

namespace Selector

/-- All selecting prefixes. -/
def all : List Selector := [.plain, .p66, .pF3, .pF2]

/-- The prefix of a two-bit number. -/
def ofNumber (n : Nat) : Selector :=
  if n = 1 then .p66 else if n = 2 then .pF3 else if n = 3 then .pF2 else .plain

end Selector

/-- What an encoding may name in its operand byte. -/
inductive Operand where
  /-- There is no operand byte. -/
  | absent
  /-- A register or memory. -/
  | any
  | memory
  /-- Memory with a scaled index. -/
  | indexed
  | register
  /-- A register, whatever the upper two bits are. -/
  | forced
  /-- One of the listed operand bytes. -/
  | exactly (bytes : List Nat)
  deriving DecidableEq, Repr

/-- The bytes behind the operand bytes. -/
inductive Tail where
  | nothing
  | byte
  | word
  | three
  | four
  /-- Two bytes with 16-bit operands, else four. -/
  | operand
  /-- As many bytes as the operands have. -/
  | full
  /-- As many bytes as addresses have. -/
  | address
  deriving DecidableEq, Repr

/-- A condition on a one-bit field. -/
inductive Bit where
  | any
  | clear
  | set
  deriving DecidableEq, Repr

/-- Whether a bit meets a condition. -/
def Bit.admits : Bit → Bool → Bool
  | .any, _ => true
  | .clear, b => !b
  | .set, b => b

/-- An encoding as its prefixes and operand bytes describe it, displacement and immediate bytes
apart. Register numbers include the bits that prefixes add to them. -/
structure Encoding where
  opcode : Nat
  selector : Selector
  /-- The operand byte, if the code goes on. -/
  operand : Option Nat
  /-- The wide-operand bit. -/
  wide : Bool
  /-- The vector length field. -/
  length : Nat
  /-- The register in the register field of the operand byte. -/
  target : Nat
  /-- The register in the extra source field. -/
  source : Nat
  /-- The register in the lower field of the operand byte. -/
  base : Nat
  /-- The register in the index field behind the operand byte. -/
  index : Nat
  /-- The broadcast or rounding bit. -/
  broadcast : Bool
  /-- The register that masks the elements of the result; 0 masks none. -/
  mask : Nat
  /-- Masked elements become zero. -/
  zeroing : Bool
  /-- Operands of 16 bits are asked for. -/
  shortOperand : Bool
  /-- Addresses of 32 bits are asked for. -/
  shortAddress : Bool

namespace Encoding

/-- An encoding without a vector prefix. -/
def scalar (opcode : Nat) (selector : Selector) (operand : Option Nat) (wide shortOperand
    shortAddress : Bool) : Encoding :=
  ⟨opcode, selector, operand, wide, 0, 0, 0, 0, 0, false, 0, false, shortOperand, shortAddress⟩

/-- Whether the operand is a register. -/
def isRegister (e : Encoding) : Bool := (e.operand.map fun m ↦ m / 64 == 3).getD false

end Encoding

/-- What the fields of an encoding have to meet beyond naming the operation. -/
inductive Demand where
  /-- The target is one of the eight mask or tile registers. -/
  | maskTarget
  /-- The extra source is one of the eight mask registers. -/
  | maskSource
  /-- The target is one of the sixteen general registers. -/
  | generalTarget
  /-- The target is neither the extra source nor the operand's register. -/
  | ownTarget
  /-- The target is not the index. -/
  | ownIndex
  /-- Target, extra source and index are three registers. -/
  | threeVectors
  /-- Target, extra source and operand are three tile registers. -/
  | threeTiles
  /-- There is a mask. -/
  | masked
  /-- There is no mask. -/
  | unmasked
  /-- Masked elements are kept. -/
  | merging
  /-- Masked elements are kept where the operand is memory. -/
  | mergingMemory
  /-- Operands of 16 bits are not asked for. -/
  | fullOperand
  /-- Addresses of 32 bits are asked for. -/
  | shortAddress
  deriving DecidableEq, Repr

/-- Whether an encoding meets a demand. -/
def Demand.met (e : Encoding) : Demand → Bool
  | .maskTarget => e.target < 8
  | .maskSource => e.source < 8
  | .generalTarget => e.target < 16
  | .ownTarget => e.target != e.source && !(e.isRegister && e.target == e.base)
  | .ownIndex => e.target != e.index
  | .threeVectors => e.target != e.index && e.source != e.index && e.target != e.source
  | .threeTiles =>
    e.target < 8 && e.source < 8 && e.base < 8 && e.target != e.source && e.target != e.base
      && e.source != e.base
  | .masked => e.mask != 0
  | .unmasked => e.mask == 0
  | .merging => !e.zeroing
  | .mergingMemory => e.isRegister || !e.zeroing
  | .fullOperand => !e.shortOperand
  | .shortAddress => e.shortAddress

/-- A span of opcodes and when they are defined. -/
structure Rule where
  first : Nat
  last : Nat
  selectors : List Selector
  operand : Operand
  /-- Admitted numbers in the register field of the operand byte. -/
  numbers : List Nat
  tail : Tail
  /-- The lock prefix is admitted with a memory operand. -/
  lockable : Bool
  /-- Condition on the wide-operand bit. -/
  wide : Bit
  /-- Admitted vector lengths. -/
  lengths : List Nat
  /-- The extra source register is used. -/
  source : Bool
  /-- One element of memory may be broadcast. -/
  broadcasts : Bool
  /-- Rounding or exceptions may be controlled where the operand is a register. -/
  rounds : Bool
  demands : List Demand

namespace Rule

/-- The rule for a span of opcodes with any operand and nothing behind it. -/
def span (first last : Nat) : Rule :=
  ⟨first, last, Selector.all, .any, [0, 1, 2, 3, 4, 5, 6, 7], .nothing, false, .any, [0, 1, 2],
    false, false, false, []⟩

/-- The rule for one opcode. -/
def one (opcode : Nat) : Rule := span opcode opcode

/-- Restricts the selecting prefix. -/
def under (r : Rule) (selectors : List Selector) : Rule := { r with selectors := selectors }

/-- Restricts the operand. -/
def on (r : Rule) (operand : Operand) : Rule := { r with operand := operand }

/-- Restricts the register field of the operand byte. -/
def group (r : Rule) (numbers : List Nat) : Rule := { r with numbers := numbers }

/-- Adds bytes behind the operand. -/
def followedBy (r : Rule) (tail : Tail) : Rule := { r with tail := tail }

/-- Admits the lock prefix with a memory operand. -/
def locked (r : Rule) : Rule := { r with lockable := true }

/-- Restricts the wide-operand bit. -/
def whenWide (r : Rule) (bit : Bit) : Rule := { r with wide := bit }

/-- Restricts the vector length. -/
def sized (r : Rule) (lengths : List Nat) : Rule := { r with lengths := lengths }

/-- Uses the extra source register. -/
def sourced (r : Rule) : Rule := { r with source := true }

/-- Admits the broadcast of one element of memory. -/
def broadcasting (r : Rule) : Rule := { r with broadcasts := true }

/-- Admits control of rounding or exceptions with a register operand. -/
def rounding (r : Rule) : Rule := { r with rounds := true }

/-- Adds a demand. -/
def demanding (r : Rule) (demand : Demand) : Rule := { r with demands := demand :: r.demands }

/-- Whether the operand byte is one that the rule admits. -/
def admitsOperand (r : Rule) (operand : Option Nat) : Bool :=
  match r.operand, operand with
  | .absent, _ => true
  | _, none => false
  | kind, some m =>
    let isRegister := m / 64 == 3
    r.numbers.contains (m / 8 % 8) &&
      match kind with
      | .absent | .any | .forced => true
      | .memory => !isRegister
      | .indexed => !isRegister && m % 8 == 4
      | .register => isRegister
      | .exactly bytes => bytes.contains m

/-- Whether the extra source is used, or names no register. The highest bit of its field belongs to
the index where memory has a scaled index of vectors. -/
def admitsSource (r : Rule) (e : Encoding) : Bool :=
  r.source || e.source == 0 || (r.operand == .indexed && e.source % 16 == 0)

/-- Whether the broadcast or rounding bit is clear or means something with the operand. -/
def admitsBroadcast (r : Rule) (e : Encoding) : Bool :=
  !e.broadcast || (if e.isRegister then r.rounds else r.broadcasts)

/-- Whether an encoding is one that the rule admits. -/
def admits (r : Rule) (e : Encoding) : Bool :=
  r.first ≤ e.opcode && e.opcode ≤ r.last && r.selectors.contains e.selector
    && r.admitsOperand e.operand && r.wide.admits e.wide && r.lengths.contains e.length
    && r.admitsSource e && r.admitsBroadcast e && r.demands.all fun d ↦ d.met e

end Rule

/-- The rule of a map that admits an encoding. -/
def lookup (map : List Rule) (e : Encoding) : Option Rule := map.find? fun r ↦ r.admits e

end LivePatch.X86
