import LivePatch.Text.Alphanumeric
import LivePatch.Text.Ranges

/-!
# Patterns

A log filter may compare a field with a regular expression. No expression is ever matched here, but
one that does not read spoils the filter, and so does one that asks for what the matcher lacks. The
matcher knows ASCII alone: where an expression is about Unicode, which is usual, it has no classes
of characters, no edges of words and no letters that differ in case. Where Unicode is turned off an
expression is about octets instead, and must not match any that are no ASCII characters.

A closing brace ends a field, so a pattern never holds one, and whatever needs one does not read.
Expressions are read from left to right with the groups that are open kept on a stack. Of the parts
that were read only their depth is remembered, because it is limited.
-/

namespace LivePatch.Tool.Pattern

/-- How deeply the parts of a pattern may be nested. -/
def maxDepth : Nat := 250

/-- Depth of parts that stand side by side. Alone or absent ones form no part of their own. -/
def depthOf : List Nat → Nat
  | [] => 0
  | [depth] => depth
  | depth :: depths => 1 + depths.foldl max depth

/-! ## Flags -/

/-- What the flags in force say about reading. -/
structure Mode where
  ignoresCase : Bool
  isUnicode : Bool
  /-- Blanks and comments count for nothing. -/
  isVerbose : Bool
  deriving DecidableEq, Repr

/-- The mode that a pattern starts in. -/
def Mode.usual : Mode := ⟨false, true, false⟩

/-- Letters of the flags, and the sign that turns off those behind it. -/
def flagLetters : List Char := ['-', 'i', 'm', 's', 'U', 'u', 'R', 'x']

/-- The mode with a flag turned on or off. Most flags do not matter to reading. -/
def Mode.set (flag : Char) (isOn : Bool) (m : Mode) : Mode :=
  match flag with
  | 'i' => { m with ignoresCase := isOn }
  | 'u' => { m with isUnicode := isOn }
  | 'x' => { m with isVerbose := isOn }
  | _ => m

/-- Reads flags up to the character that ends them: the mode, the flags and the rest of the text.
No flag is given twice, and the sign does not come last. -/
def flags (m : Mode) (seen : List Char) : List Char → Option (Mode × List Char × List Char)
  | [] => none
  | c :: rest =>
    if c == ':' || c == ')' then
      if seen.head? == some '-' then none else some (m, seen, c :: rest)
    else if seen.contains c || !flagLetters.contains c then none
    else flags (m.set c (!seen.contains '-')) (c :: seen) rest

/-- A text behind the blanks and comments it starts with. -/
def behindBlanks (isComment : Bool) : List Char → List Char
  | [] => []
  | c :: rest =>
    if isComment then behindBlanks (c != '\n') rest
    else if Text.isBlank c then behindBlanks false rest
    else if c == '#' then behindBlanks true rest
    else c :: rest

/-- A text behind what counts for nothing. -/
def Mode.skip (m : Mode) (text : List Char) : List Char :=
  if m.isVerbose then behindBlanks false text else text

/-- The next character that counts, as far as one can tell without reading on: a number sign is
passed over, but not the comment behind it. -/
def Mode.peek? (m : Mode) (text : List Char) : Option Char :=
  if m.isVerbose then
    match text.dropWhile Text.isBlank with
    | '#' :: rest => (rest.dropWhile Text.isBlank).head?
    | rest => rest.head?
  else text.head?

/-! ## Characters -/

/-- A character that stands for itself. -/
structure Literal where
  char : Char
  /-- It is spelled as the number of an octet. -/
  isOctet : Bool
  deriving DecidableEq, Repr

/-- What a single character or an escape stands for. -/
inductive Atom where
  | literal (l : Literal)
  /-- An edge of a word, or else of a line or the text. -/
  | edge (isOfWord : Bool)
  /-- One of the classes that have letters. -/
  | shorthand (isNegated : Bool)
  deriving DecidableEq, Repr

/-- The value of a hexadecimal digit. -/
def hexDigit? (c : Char) : Option Nat :=
  if c.isDigit then some (c.toNat - '0'.toNat)
  else if 'a' ≤ c.toLower && c.toLower ≤ 'f' then some (c.toLower.toNat - 'a'.toNat + 10)
  else none

/-- Reads a number of hexadecimal digits. -/
def hexDigits (m : Mode) : Nat → Nat → List Char → Option (Nat × List Char)
  | 0, value, text => some (value, text)
  | count + 1, value, text =>
    match m.skip text with
    | [] => none
    | c :: rest => (hexDigit? c).bind fun digit ↦ hexDigits m count (16 * value + digit) rest

/-- Reads the character that a number of hexadecimal digits stand for. -/
def numbered (m : Mode) (count : Nat) (text : List Char) : Option (Atom × List Char) := do
  let (value, rest) ← hexDigits m count 0 text
  if value.isValidChar then some (.literal ⟨Char.ofNat value, count == 2⟩, rest) else none

/-- Letters behind a backslash that stand for control characters. -/
def controls : List (Char × Nat) :=
  [('a', 0x7), ('f', 0xc), ('t', 0x9), ('n', 0xa), ('r', 0xd), ('v', 0xb)]

/-- Reads an escape behind its backslash. Classes that need the tables of Unicode do not read. -/
def escape (m : Mode) : List Char → Option (Atom × List Char)
  | [] => none
  | c :: rest =>
    if c == 'x' then numbered m 2 rest
    else if c == 'u' then numbered m 4 rest
    else if c == 'U' then numbered m 8 rest
    else if ['d', 's', 'w'].contains c then some (.shorthand false, rest)
    else if ['D', 'S', 'W'].contains c then some (.shorthand true, rest)
    else if ['A', 'z'].contains c then some (.edge false, rest)
    else if ['b', 'B', '<', '>'].contains c then some (.edge true, rest)
    else match controls.lookup c with
      | some value => some (.literal ⟨Char.ofNat value, false⟩, rest)
      | none =>
        if c.toNat < 0x80 && !c.isAlphanum then some (.literal ⟨c, false⟩, rest) else none

/-- Whether a shorthand can be matched. -/
def Mode.hasShorthand (m : Mode) (isNegated : Bool) : Bool := !m.isUnicode && !isNegated

/-- Whether an atom can be matched outside of a set. -/
def Mode.hasAtom (m : Mode) : Atom → Bool
  | .literal l => if m.isUnicode then !m.ignoresCase else !(l.isOctet && 0x80 ≤ l.char.toNat)
  | .edge isOfWord => !(isOfWord && m.isUnicode)
  | .shorthand isNegated => m.hasShorthand isNegated

/-! ## Sets -/

/-- A set in brackets that is being read. -/
structure OpenSet where
  /-- Depths of the members since the last operator, latest first. -/
  members : List Nat
  /-- Depth of what the last operator combines them with. -/
  left : Option Nat
  /-- Nothing but dashes was read, which are members here. -/
  isFresh : Bool
  deriving DecidableEq, Repr

namespace OpenSet

/-- A set of which nothing was read. -/
def start : OpenSet := ⟨[], none, true⟩

/-- Depth of what is in the brackets. -/
def depth (s : OpenSet) : Nat :=
  match s.left with
  | none => depthOf s.members
  | some left => 1 + max left (depthOf s.members)

/-- One more member. -/
def add (depth : Nat) (s : OpenSet) : OpenSet :=
  { s with members := depth :: s.members, isFresh := false }

/-- An operator: what was read is combined with what follows. -/
def combine (s : OpenSet) : OpenSet := ⟨[], some s.depth, false⟩

end OpenSet

/-- Names of classes in a set. -/
def classNames : List String :=
  ["alnum", "alpha", "ascii", "blank", "cntrl", "digit", "graph", "lower", "print", "punct",
    "space", "upper", "word", "xdigit"]

/-- Reads a class that is given by its name, behind the bracket: whether it is negated, and the
rest. A bracket that no name of a class follows begins a set. -/
def named? : List Char → Option (Bool × List Char)
  | ':' :: text =>
    let (isNegated, body) := match text with
      | '^' :: body => (true, body)
      | body => (false, body)
    match body.dropWhile (· != ':') with
    | ':' :: ']' :: rest =>
      if classNames.contains (String.ofList (body.takeWhile (· != ':'))) then
        some (isNegated, rest)
      else none
    | _ => none
  | _ => none

/-- Whether a class that is given by its name can be matched. -/
def Mode.hasClass (m : Mode) (isNegated : Bool) : Bool :=
  if m.isUnicode then !m.ignoresCase else !isNegated

/-- Whether a character can be matched in a set. -/
def Mode.hasMember (m : Mode) (l : Literal) : Bool :=
  if m.isUnicode then !m.ignoresCase else l.char.toNat < 0x80

/-- Whether an atom can be a member of a set. -/
def Mode.isMember (m : Mode) : Atom → Bool
  | .literal l => m.hasMember l
  | .edge _ => false
  | .shorthand isNegated => m.hasShorthand isNegated

/-- Whether two atoms are the ends of a range. -/
def Mode.isRange (m : Mode) : Atom → Atom → Bool
  | .literal first, .literal last =>
    m.hasMember first && m.hasMember last && first.char ≤ last.char
  | _, _ => false

/-- Reads an atom in a set, where most characters stand for themselves. -/
def atom (m : Mode) : List Char → Option (Atom × List Char)
  | [] => none
  | '\\' :: rest => escape m rest
  | c :: rest => some (.literal ⟨c, false⟩, rest)

/-- Reads a range or a single member of a set. A dash before another, or before the end of the set,
makes no range. -/
def range (m : Mode) (text : List Char) : Option (List Char) := do
  let (first, rest) ← atom m text
  match m.skip rest with
  | '-' :: behind =>
    if [some ']', some '-'].contains (m.peek? behind) then
      if m.isMember first then some ('-' :: behind) else none
    else do
      let (last, rest) ← atom m (m.skip behind)
      if m.isRange first last then some rest else none
  | rest => if m.isMember first then some rest else none

/-- Reads the bracket that opens a set, up to its members. The complement of a set of octets holds
some that are no characters. -/
def openSet (m : Mode) (text : List Char) : Option (List Char) :=
  match m.skip text with
  | '^' :: rest => if m.isUnicode then some rest else none
  | rest => some rest

/-- Reads a set and those in it to the end of the outermost: its depth and the rest of the text. -/
def set (m : Mode) : Nat → List OpenSet → OpenSet → List Char → Option (Nat × List Char)
  | 0, _, _, _ => none
  | fuel + 1, outer, s, text =>
    match m.skip text with
    | [] => none
    | c :: rest =>
      if s.isFresh && (c == '-' || (c == ']' && s.members.isEmpty)) then
        if m.hasMember ⟨c, false⟩ then
          set m fuel outer { s.add 0 with isFresh := c == '-' } rest
        else none
      else match c, rest with
        | '[', rest => match named? rest with
          | some (isNegated, rest) =>
            if m.hasClass isNegated then set m fuel outer (s.add 0) rest else none
          | none => (openSet m rest).bind (set m fuel (s :: outer) OpenSet.start)
        | ']', rest => match outer with
          | [] => some (1 + s.depth, rest)
          | around :: outer => set m fuel outer (around.add (1 + s.depth)) rest
        | '&', '&' :: rest => set m fuel outer s.combine rest
        | '-', '-' :: rest => set m fuel outer s.combine rest
        | '~', '~' :: rest => set m fuel outer s.combine rest
        | c, rest => (range m (c :: rest)).bind (set m fuel outer (s.add 0))

/-! ## Groups -/

/-- A part of a pattern. -/
structure Item where
  depth : Nat
  /-- It may be repeated. Flags may not. -/
  isRepeatable : Bool
  deriving DecidableEq, Repr

/-- A group that is being read, or the pattern itself. -/
structure OpenGroup where
  /-- The mode around the group. -/
  mode : Mode
  /-- Parts of the alternative that is being read, latest first. -/
  items : List Item
  /-- Depths of the alternatives before it, latest first. -/
  alternatives : List Nat
  deriving DecidableEq, Repr

namespace OpenGroup

/-- A group of which nothing was read. -/
def start (m : Mode) : OpenGroup := ⟨m, [], []⟩

/-- Depth of the alternative that is being read. -/
def alternativeDepth (g : OpenGroup) : Nat := depthOf (g.items.map Item.depth)

/-- Depth of what is in the group. -/
def depth (g : OpenGroup) : Nat := depthOf (g.alternativeDepth :: g.alternatives)

/-- One more part. -/
def add (item : Item) (g : OpenGroup) : OpenGroup := { g with items := item :: g.items }

/-- The alternative ends and another begins. -/
def next (g : OpenGroup) : OpenGroup :=
  { g with items := [], alternatives := g.alternativeDepth :: g.alternatives }

/-- The last part is repeated. -/
def repeated? (g : OpenGroup) : Option OpenGroup :=
  match g.items with
  | ⟨depth, true⟩ :: items => some { g with items := ⟨1 + depth, true⟩ :: items }
  | _ => none

end OpenGroup

/-- What was read of a pattern. -/
structure Reading where
  mode : Mode
  /-- The innermost group that is open. -/
  group : OpenGroup
  /-- The groups around it, from the inside out. -/
  outer : List OpenGroup
  /-- Names that were given to groups. -/
  names : List (List Char)
  deriving DecidableEq, Repr

namespace Reading

/-- Nothing was read. -/
def start : Reading := ⟨Mode.usual, OpenGroup.start Mode.usual, [], []⟩

/-- One more part, which may be repeated. -/
def add (depth : Nat) (r : Reading) : Reading := { r with group := r.group.add ⟨depth, true⟩ }

/-- A group opens. -/
def push (inside : Mode) (r : Reading) : Reading :=
  { r with mode := inside, group := OpenGroup.start r.mode, outer := r.group :: r.outer }

/-- The innermost group closes, and its flags are no longer in force. -/
def pop? (r : Reading) : Option Reading :=
  match r.outer with
  | [] => none
  | around :: outer =>
    some { r with
      mode := r.group.mode
      group := around.add ⟨1 + r.group.depth, true⟩
      outer := outer }

/-- Whether a text can be the name of a group. -/
def isName : List Char → Bool
  | [] => false
  | c :: rest =>
    (c == '_' || Text.isAlphabetic c)
      && rest.all fun c ↦ ['_', '.', '[', ']'].contains c || Text.isAlphanumeric c

/-- Reads the name of a group and opens it. -/
def openNamed (r : Reading) (text : List Char) : Option (Reading × List Char) :=
  let name := text.takeWhile (· != '>')
  match text.dropWhile (· != '>') with
  | [] => none
  | _ :: rest =>
    if isName name && !r.names.contains name then
      some ({ r.push r.mode with names := name :: r.names }, rest)
    else none

/-- Reads the beginning of a group behind its parenthesis, or flags in parentheses. -/
def openGroup (r : Reading) (text : List Char) : Option (Reading × List Char) :=
  match r.mode.skip text with
  | '?' :: 'P' :: '<' :: rest => r.openNamed rest
  | '?' :: '<' :: rest => r.openNamed rest
  | '?' :: rest => do
    let (mode, seen, rest) ← flags r.mode [] rest
    match rest with
    | ')' :: rest =>
      if seen.isEmpty then none
      else some ({ r with mode := mode, group := r.group.add ⟨0, false⟩ }, rest)
    | rest => some (r.push mode, rest.drop 1)
  | rest => some (r.push r.mode, rest)

/-- A text behind the question mark that makes a repetition short. -/
def behindBrevity : List Char → List Char
  | '?' :: rest => rest
  | rest => rest

/-- Adds an atom that can be matched. -/
def addAtom? (r : Reading) (a : Atom) : Option Reading :=
  if r.mode.hasAtom a then some (r.add 0) else none

/-- Reads what a character begins. A dot stands for an octet where Unicode is turned off. -/
def step (r : Reading) (c : Char) (rest : List Char) : Option (Reading × List Char) :=
  match c with
  | '(' => r.openGroup rest
  | ')' => r.pop?.map (·, rest)
  | '|' => some ({ r with group := r.group.next }, rest)
  | '[' => do
    let rest ← openSet r.mode rest
    let (depth, rest) ← set r.mode (rest.length + 1) [] OpenSet.start rest
    return (r.add depth, rest)
  | '?' | '*' | '+' => do
    let group ← r.group.repeated?
    return ({ r with group := group }, behindBrevity rest)
  | '\x7b' => none
  | '\\' => do
    let (a, rest) ← escape r.mode rest
    return (← r.addAtom? a, rest)
  | '.' => if r.mode.isUnicode then some (r.add 0, rest) else none
  | '^' | '$' => some (r.add 0, rest)
  | c => (r.addAtom? (.literal ⟨c, false⟩)).map (·, rest)

/-- Reads a text to its end. -/
def finish? : Nat → Reading → List Char → Option Reading
  | 0, _, _ => none
  | fuel + 1, r, text =>
    match r.mode.skip text with
    | [] => some r
    | c :: rest => (r.step c rest).bind fun (r, rest) ↦ finish? fuel r rest

end Reading

/-- Whether a matcher can be made of a pattern: it reads, no group stays open, and its parts are not
nested too deeply. Every step takes at least one character. -/
def isUsable (text : List Char) : Bool :=
  (Reading.finish? (text.length + 1) Reading.start text).any fun r ↦
    r.outer.isEmpty && r.group.depth ≤ maxDepth

end LivePatch.Tool.Pattern
