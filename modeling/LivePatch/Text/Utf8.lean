import LivePatch.Bytes

/-!
# UTF-8

Decoding of octets into characters, one octet at a time. A sequence that breaks off is reported
once, for its longest beginning that could have been continued, and decoding goes on with the octet
that broke it.

Texts can also be cut at offsets that count octets. An offset inside a character cuts nothing.
-/

namespace LivePatch.Text.Utf8

/-- A character of which some octets are still owed. The next one lies between `low` and `high`. -/
structure Pending where
  code : Nat
  owed : Nat
  low : UInt8
  high : UInt8

/-- What an octet between characters starts. -/
inductive Start where
  | whole (c : Char)
  | more (p : Pending)
  | broken

/-- What the first octet of a character says about it. -/
def start (b : UInt8) : Start :=
  let n := b.toNat
  if n < 0x80 then .whole (Char.ofNat n)
  else if 0xc2 ≤ n && n ≤ 0xdf then .more ⟨n - 0xc0, 1, 0x80, 0xbf⟩
  else if n = 0xe0 then .more ⟨0, 2, 0xa0, 0xbf⟩
  else if n = 0xed then .more ⟨0xd, 2, 0x80, 0x9f⟩
  else if 0xe1 ≤ n && n ≤ 0xef then .more ⟨n - 0xe0, 2, 0x80, 0xbf⟩
  else if n = 0xf0 then .more ⟨0, 3, 0x90, 0xbf⟩
  else if 0xf1 ≤ n && n ≤ 0xf3 then .more ⟨n - 0xf0, 3, 0x80, 0xbf⟩
  else if n = 0xf4 then .more ⟨4, 3, 0x80, 0x8f⟩
  else .broken

/-- Decodes octets behind the beginning of a character, if one is pending. Broken sequences are
`none`. -/
def decode : Option Pending → List UInt8 → List (Option Char)
  | none, [] => []
  | some _, [] => [none]
  | none, b :: rest =>
    match start b with
    | .whole c => some c :: decode none rest
    | .more p => decode (some p) rest
    | .broken => none :: decode none rest
  | some p, b :: rest =>
    if p.low ≤ b && b ≤ p.high then
      let code := p.code * 64 + (b.toNat - 0x80)
      if p.owed ≤ 1 then some (Char.ofNat code) :: decode none rest
      else decode (some ⟨code, p.owed - 1, 0x80, 0xbf⟩) rest
    else none :: match start b with
      | .whole c => some c :: decode none rest
      | .more q => decode (some q) rest
      | .broken => none :: decode none rest

/-- The character that stands for a broken sequence. -/
def replacement : Char := Char.ofNat 0xfffd

/-- The text of octets, with a replacement character for every broken sequence. -/
def lossy (bytes : List UInt8) : List Char :=
  (decode none bytes).map fun c ↦ c.getD replacement

/-- The text of octets, absent when some sequence is broken. -/
def strict? (bytes : List UInt8) : Option (List Char) :=
  (decode none bytes).mapM id

/-- Octets of a text. -/
def encode (s : String) : Bytes := s.toUTF8.data

/-- Number of octets that a text takes. -/
def size (s : String) : Nat := s.utf8ByteSize

/-! ## Offsets into a text -/

/-- A text behind its first octets, absent when they end inside a character or past the end. -/
def drop? : Nat → List Char → Option (List Char)
  | 0, text => some text
  | _ + 1, [] => none
  | n + 1, c :: rest => if n + 1 < c.utf8Size then none else drop? (n + 1 - c.utf8Size) rest

/-- The first octets of a text, absent when they end inside a character or past the end. -/
def take? : Nat → List Char → Option (List Char)
  | 0, _ => some []
  | _ + 1, [] => none
  | n + 1, c :: rest =>
    if n + 1 < c.utf8Size then none else (take? (n + 1 - c.utf8Size) rest).map (c :: ·)

/-- The octets of a text from one offset to another. -/
def slice? (start stop : Nat) (text : List Char) : Option (List Char) :=
  (drop? start text).bind (take? (stop - start))

end LivePatch.Text.Utf8
