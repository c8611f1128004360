/-!
# Ranges of code points

Membership of a character in a property that is given as inclusive ranges of code points.
-/

namespace LivePatch.Text

/-- Whether a character's code point lies in one of the inclusive ranges. -/
def inRanges (ranges : List (Nat × Nat)) (c : Char) : Bool :=
  ranges.any fun (first, last) ↦ first ≤ c.toNat && c.toNat ≤ last

/-! ### Blank characters

The White_Space property of the Unicode standard. Command lines are split at these characters and
tool output made of nothing else is not worth forwarding. -/

/-- Code points with the White_Space property. -/
def blankRanges : List (Nat × Nat) :=
  [(0x9, 0xd), (0x20, 0x20), (0x85, 0x85), (0xa0, 0xa0), (0x1680, 0x1680), (0x2000, 0x200a),
    (0x2028, 0x2029), (0x202f, 0x202f), (0x205f, 0x205f), (0x3000, 0x3000)]

/-- Whether a character is white space. -/
def isBlank (c : Char) : Bool := inRanges blankRanges c

/-- A space is blank. -/
theorem isBlank_space : isBlank ' ' = true := by decide

end LivePatch.Text
