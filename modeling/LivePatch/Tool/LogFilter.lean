import LivePatch.Failure
import LivePatch.Text.CommandLine
import LivePatch.Text.Utf8
import LivePatch.Tool.Pattern

/-!
# Log filters

Which log messages are shown is chosen by a list of directives between commas. A directive is a
level, or the name of a target, which spans of the target and which fields of the spans it is about,
and a level behind an equals sign. The program has no use for what a directive says, but it refuses
to start with one that does not read.

Offsets into a directive count octets, and they are counted without the blanks it starts with, while
the texts between them are taken out of the whole directive: blanks before a level spoil it, and an
offset that ends up inside a character is a fault.
-/

namespace LivePatch.Tool.LogFilter

/-- Names of the levels. -/
def levels : List String := ["error", "warn", "info", "debug", "trace", "off"]

/-- A text without the sign it may start with. -/
def unsigned : List Char → List Char
  | '+' :: rest => rest
  | '-' :: rest => rest
  | text => text

/-- The number that a text of decimal digits stands for, which may have a plus sign. -/
def number? (text : List Char) : Option Nat :=
  let digits := match text with
    | '+' :: rest => rest
    | _ => text
  if digits.isEmpty || !digits.all Char.isDigit then none
  else some (digits.foldl (fun n c ↦ 10 * n + (c.toNat - '0'.toNat)) 0)

/-- Whether a text is a level: its name in any case, or a number up to five. No text is one. -/
def isLevel (text : List Char) : Bool :=
  text.isEmpty || (number? text).any (· ≤ 5)
    || levels.any fun l ↦ Text.sameIgnoringCase l.toList text

/-! ## Values of fields -/

/-- Whether a text is the exponent of a number, or nothing. -/
def isExponent : List Char → Bool
  | [] => true
  | c :: rest =>
    c.toLower == 'e' && !(unsigned rest).isEmpty && (unsigned rest).all Char.isDigit

/-- Whether a text is a number without a sign. Digits may stand on either side of the point. -/
def isDecimal (text : List Char) : Bool :=
  match text.takeWhile Char.isDigit, text.dropWhile Char.isDigit with
  | whole, '.' :: rest =>
    !(whole.isEmpty && (rest.takeWhile Char.isDigit).isEmpty)
      && isExponent (rest.dropWhile Char.isDigit)
  | whole, rest => !whole.isEmpty && isExponent rest

/-- Whether a text is a number, or the name of what is no finite number. -/
def isNumber (text : List Char) : Bool :=
  isDecimal (unsigned text)
    || ["inf", "infinity", "nan"].any fun n ↦ Text.sameIgnoringCase n.toList (unsigned text)

/-- Whether a field reads. A field without a value has to be there; a value that is no number is a
pattern. -/
def isField (text : List Char) : Bool :=
  match Text.splitOnce '=' text with
  | none => true
  | some (_, behind) =>
    let value := behind.takeWhile (· != '=')
    isNumber value || Pattern.isUsable value

/-! ## Directives -/

/-- A directive that does not read. -/
def refuse {α : Type} : Outcome α := fail .invalidFilter

/-- Goes on when something holds. -/
def require (holds : Bool) : Outcome Unit := if holds then .ok () else refuse

/-- Where the reading of a directive stands. Texts begin at offsets. -/
inductive Scan where
  | start
  /-- In a level or the name of a target. -/
  | name
  /-- In the name of a span. -/
  | span (offset : Nat)
  /-- In a field of a span. -/
  | field (offset : Nat)
  /-- Behind the fields of a span. -/
  | fields
  /-- Behind a target. -/
  | target
  /-- In the level of a target. -/
  | level (offset : Nat)
  deriving DecidableEq, Repr

/-- Whether a character can begin a name. -/
def startsName (c : Char) : Bool := ['-', ':', '_'].contains c || Text.isAlphanumeric c

/-- The text between two offsets into a directive. -/
def slice (text : List Char) (start stop : Nat) : Outcome (List Char) :=
  orFault (Text.Utf8.slice? start stop text)

/-- Reads one more character, at an offset, of a directive. -/
def step (text : List Char) (i : Nat) (c : Char) : Scan → Outcome Scan
  | .start => do
    if c == '[' then return .span (i + 1)
    require (startsName c)
    return .name
  | .name => do
    if c == '=' then
      let _ ← slice text 0 i
      return .level (i + 1)
    if c == '[' then
      let _ ← slice text 0 i
      return .span (i + 1)
    return .name
  | .span start => do
    if c == ']' then
      let _ ← slice text start i
      return .target
    if c == '\x7b' then
      let _ ← slice text start i
      return .field (i + 1)
    return .span start
  | .field start => do
    if c == '\x7d' then
      let field ← slice text start i
      require (!field.isEmpty && isField field)
      return .fields
    return .field start
  | .fields => do
    require (c == ']')
    return .target
  | .target => do
    require (c == '=')
    return .level (i + 1)
  | .level start => return .level start

/-- Reads the characters from an offset on. -/
def scan (text : List Char) : Nat → List Char → Scan → Outcome Scan
  | _, [], s => .ok s
  | i, c :: rest, s => do scan text (i + c.utf8Size) rest (← step text i c s)

/-- A text without the blanks at its ends. -/
def stripped (text : List Char) : List Char :=
  ((text.dropWhile Text.isBlank).reverse.dropWhile Text.isBlank).reverse

/-- Reads a directive. -/
def directive (text : List Char) : Outcome Unit := do
  match ← scan text 0 (stripped text) .start with
  | .name => return
  | .target => return
  | .level start => require (isLevel (← orFault (Text.Utf8.drop? start text)))
  | _ => refuse

/-- Texts between the commas of a text. -/
def parts (text : List Char) : List (List Char) :=
  (text.splitOnP (· == ',')).filter fun part ↦ !part.isEmpty

/-- Reads a filter up to the first directive that does not read. -/
def read (filter : String) : Outcome Unit := (parts filter.toList).forM directive

end LivePatch.Tool.LogFilter
