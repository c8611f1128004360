import LivePatch.Text.Ranges
import LivePatch.Text.Number

/-!
# Command lines

Options and directives are kept as the one line they were recorded in. This module splits such a
line into tokens, finds options in it and reads the directive that forces a symbol to be included.
-/

namespace LivePatch.Text

/-- Tokens of the rest of a line, behind the `current` one: blanks end a token except between
double quotes, which stay part of it. -/
def tokensFrom (quoted : Bool) (current : List Char) : List Char → List (List Char)
  | [] => if current.isEmpty then [] else [current]
  | c :: rest =>
    if c = '"' then tokensFrom (!quoted) (current ++ [c]) rest
    else if isBlank c && !quoted then
      if current.isEmpty then tokensFrom quoted [] rest else current :: tokensFrom quoted [] rest
    else tokensFrom quoted (current ++ [c]) rest

/-- Tokens of a line, quoted runs kept together. -/
def tokens (line : String) : List String :=
  (tokensFrom false [] line.toList).map String.ofList

/-- A text without the given character at its two ends. -/
def trim (c : Char) (text : List Char) : List Char :=
  ((text.dropWhile (· == c)).reverse.dropWhile (· == c)).reverse

/-- A text without the double quotes around it. -/
def unquoted (text : String) : String := String.ofList (trim '"' text.toList)

/-- Whether a token gives an option, behind a slash or a dash. Options match as beginnings. -/
def isOption (option token : List Char) : Bool :=
  match trim '"' token with
  | c :: body => (c == '/' || c == '-') && option.isPrefixOf body
  | [] => false

/-- Whether a compiler or linker command line carries an option. -/
def hasOption (line option : String) : Bool :=
  (tokens line).any fun token ↦ isOption option.toList token.toList

/-- Whether two texts differ in nothing but the case of ASCII letters. -/
def sameIgnoringCase (a b : List Char) : Bool :=
  a.map Char.toLower == b.map Char.toLower

/-- The parts of a text before and behind the first occurrence of a character. -/
def splitOnce (c : Char) (text : List Char) : Option (List Char × List Char) :=
  match text.dropWhile (· != c) with
  | [] => none
  | _ :: rest => some (text.takeWhile (· != c), rest)

/-- The symbol that a directive forces to be included, if it is such a directive. -/
def includedSymbol? (directive : String) : Option String :=
  match directive.toList with
  | c :: body =>
    if c == '/' || c == '-' then
      match splitOnce ':' body with
      | some (name, symbol) =>
        if sameIgnoringCase name "include".toList then some (String.ofList (trim '"' symbol))
        else none
      | none => none
    else none
  | [] => none

/-- Characters of a text without the byte-order marks it starts with. -/
def withoutMarks (text : List Char) : List Char :=
  text.dropWhile fun c ↦ c.toNat == 0xfeff

end LivePatch.Text
