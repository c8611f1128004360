/-!
# Number text

How numbers stand in messages, names and listings: decimal, lower-case hexadecimal with or without
padding, and columns of a fixed width.
-/

namespace LivePatch.Text

/-- Decimal digits of a number. -/
def decimal (n : Nat) : String := String.ofList (Nat.toDigits 10 n)

/-- Decimal digits of an integer behind a minus sign where it is negative. -/
def signed : Int → String
  | .ofNat n => decimal n
  | .negSucc n => "-" ++ decimal (n + 1)

/-- Decimal digits of an integer that always show its sign. -/
def explicitlySigned (i : Int) : String :=
  if i < 0 then signed i else "+" ++ signed i

/-- Lower-case hexadecimal digits of a number, without padding. -/
def hex (n : Nat) : String := String.ofList (Nat.toDigits 16 n)

/-- A number in the form addresses are written in. -/
def address (n : Nat) : String := "0x" ++ hex n

/-- A text that repeats one character. -/
def fill (c : Char) (count : Nat) : String := String.ofList (List.replicate count c)

/-- A text moved to the right end of a column. -/
def padLeft (width : Nat) (c : Char) (text : String) : String :=
  fill c (width - text.length) ++ text

/-- A text at the left end of a column. -/
def padRight (width : Nat) (text : String) : String :=
  text ++ fill ' ' (width - text.length)

/-- Hexadecimal digits, at least `width` of them. -/
def paddedHex (width n : Nat) : String := padLeft width '0' (hex n)

/-- Texts with a separator between neighbours. -/
def join (separator : String) : List String → String
  | [] => ""
  | [text] => text
  | text :: rest => text ++ separator ++ join separator rest

end LivePatch.Text
