import LivePatch.Text.CommandLine

/-!
# Words of a command line

A command line is a list of words. Options are spelled `--name`, `--name value`, `--name=value`,
`-n`, `-n value`, `-nvalue` or `-n=value`; the word `--` makes everything behind it an operand. A
grammar says which options a command has, which of them want a value, and which operands it takes.

A value that stands in a word of its own is only looked at when the next option or the end of the
line settles it, so the first complaint about a line is not always about its first mistake.
-/

namespace LivePatch.Tool

/-- What is wrong with a command line, or asked for instead of a run. -/
inductive UsageError where
  /-- Nothing was given at all. -/
  | nothingGiven
  /-- No command was named. -/
  | missingCommand
  /-- An operand or an option that has to be there is missing. -/
  | missingArgument
  /-- An option or an operand that the command does not have. -/
  | unknownArgument
  /-- A word that names no command. -/
  | unknownCommand
  /-- A value that an option does not accept, or none where one is wanted. -/
  | invalidValue
  /-- A value for an option that wants none. -/
  | unwantedValue
  /-- An option that may be given once was given again. -/
  | repeated
  /-- Help was asked for, on a command or on the whole, in full or in short. -/
  | help (command : Option String) (isFull : Bool)
  /-- The version was asked for. -/
  | version
  deriving DecidableEq, Repr

/-- Name of what is wrong or asked for. -/
def UsageError.text : UsageError → String
  | .nothingGiven => "DisplayHelpOnMissingArgumentOrSubcommand"
  | .missingCommand => "MissingSubcommand"
  | .missingArgument => "MissingRequiredArgument"
  | .unknownArgument => "UnknownArgument"
  | .unknownCommand => "InvalidSubcommand"
  | .invalidValue => "InvalidValue"
  | .unwantedValue => "TooManyValues"
  | .repeated => "ArgumentConflict"
  | .help _ _ => "DisplayHelp"
  | .version => "DisplayVersion"

/-- How a word reads, going by its dashes. -/
inductive Piece where
  /-- Everything behind it is an operand. -/
  | escape
  /-- An option with a long name, and the value attached to it. -/
  | long (name : String) (value : Option String)
  /-- Options with one-letter names, the last of which may have a value attached. -/
  | short (letters : List Char)
  | plain
  deriving DecidableEq, Repr

/-- How a word reads. A single dash is an ordinary word. -/
def Piece.ofWord (word : String) : Piece :=
  match word.toList with
  | ['-', '-'] => .escape
  | '-' :: '-' :: body => match Text.splitOnce '=' body with
    | some (name, value) => .long (String.ofList name) (some (String.ofList value))
    | none => .long (String.ofList body) none
  | '-' :: c :: letters => .short (c :: letters)
  | _ => .plain

/-- What an option of a command is for. -/
inductive OptionKind (κ : Type) where
  /-- It wants a value. -/
  | value (key : κ)
  /-- It stands for itself. -/
  | flag (key : κ)
  /-- It asks for help, in full or in short. -/
  | help (isFull : Bool)
  | version

/-- The options and operands of a command. -/
structure Grammar (κ : Type) where
  /-- The command, unless this is the grammar of what precedes every command. -/
  command : Option String
  long : List (String × OptionKind κ)
  short : List (Char × OptionKind κ)
  /-- What the operands are, and whether there may be any number of them. -/
  operand : Option (κ × Bool)
  /-- Words that name a command. -/
  commands : List String
  /-- Whether a value is fit for an option or operand. -/
  accepts : κ → String → Bool
  /-- Whether values add up when an option is given again. -/
  accumulates : κ → Bool

/-- What was read of a command line so far. -/
structure Reading (κ : Type) where
  /-- Options and operands that are settled, with their values. -/
  given : List (κ × List String)
  /-- An option or operand whose values are not settled yet. -/
  pending : Option (κ × List String)
  /-- The next ordinary word is a value of the option that is pending. -/
  isAwaiting : Bool
  /-- Nothing but operands follows. -/
  isTrailing : Bool
  /-- Number of operands that cannot be added to. -/
  operands : Nat

namespace Reading

variable {κ : Type}

/-- Nothing was read. -/
def start : Reading κ := ⟨[], none, false, false, 0⟩

/-- Whether an option or operand was given. -/
def has [BEq κ] (r : Reading κ) (key : κ) : Bool := r.given.any fun g ↦ g.1 == key

/-- All values of an option or operand, in order. -/
def values [BEq κ] (r : Reading κ) (key : κ) : List String :=
  r.given.flatMap fun g ↦ if g.1 == key then g.2 else []

/-- The value of an option or operand that has one. -/
def value? [BEq κ] (r : Reading κ) (key : κ) : Option String := (r.values key).head?

/-- One more value for the option that awaits it. -/
def supply (r : Reading κ) (word : String) : Reading κ :=
  { r with
    pending := r.pending.map fun p ↦ (p.1, p.2 ++ [word])
    isAwaiting := false }

end Reading

/-- How far a command line was read: to its end, or to a word that names a command. -/
structure Parsed (κ : Type) where
  reading : Reading κ
  /-- The command, and the words behind it. -/
  command : Option (String × List String)

namespace Grammar

variable {κ : Type} [BEq κ]

/-- Takes values for an option or operand: at least one, not a second time unless values add up,
and only such as are accepted. -/
def accept (g : Grammar κ) (key : κ) (values : List String) (r : Reading κ) :
    Except UsageError (Reading κ) :=
  if values.isEmpty then .error .invalidValue
  else if !g.accumulates key && r.has key then .error .repeated
  else if !values.all (g.accepts key) then .error .invalidValue
  else .ok { r with given := r.given ++ [(key, values)] }

/-- Settles the values that are pending. -/
def settle (g : Grammar κ) (r : Reading κ) : Except UsageError (Reading κ) :=
  match r.pending with
  | none => .ok r
  | some (key, values) => g.accept key values { r with pending := none }

/-- Takes an option that stands for itself. -/
def raise (g : Grammar κ) (key : κ) (r : Reading κ) : Except UsageError (Reading κ) := do
  let r ← g.settle r
  if r.has key then .error .repeated
  else .ok { r with given := r.given ++ [(key, [])], isAwaiting := false }

/-- Takes an option that wants a value, which may be attached to it. -/
def take (g : Grammar κ) (key : κ) (attached : Option String) (r : Reading κ) :
    Except UsageError (Reading κ) := do
  let r ← g.settle r
  match attached with
  | some value => return { ← g.accept key [value] r with isAwaiting := false }
  | none => return { r with pending := some (key, []), isAwaiting := true }

/-- Stops for an answer to the user, after everything before it was settled. -/
def stop (g : Grammar κ) (answer : UsageError) (r : Reading κ) : Except UsageError (Reading κ) := do
  let _ ← g.settle r
  .error answer

/-- Takes an option that is not given a value. -/
def bare (g : Grammar κ) (kind : OptionKind κ) (r : Reading κ) : Except UsageError (Reading κ) :=
  match kind with
  | .value key => g.take key none r
  | .flag key => g.raise key r
  | .help isFull => g.stop (.help g.command isFull) r
  | .version => g.stop .version r

/-- Takes an option with a long name. -/
def longOption (g : Grammar κ) (name : String) (value : Option String) (r : Reading κ) :
    Except UsageError (Reading κ) :=
  match g.long.lookup name with
  | none => .error .unknownArgument
  | some (.value key) => g.take key value r
  | some kind => if value.isSome then .error .unwantedValue else g.bare kind r

/-- The value behind the letter of an option in the same word, if there is one. -/
def attachedValue : List Char → Option String
  | [] => none
  | '=' :: value => some (String.ofList value)
  | value => some (String.ofList value)

/-- Takes options with one-letter names. The first that wants a value ends them. -/
def shortOptions (g : Grammar κ) : List Char → Reading κ → Except UsageError (Reading κ)
  | [], r => .ok r
  | c :: letters, r => match g.short.lookup c with
    | none => .error .unknownArgument
    | some (.value key) => g.take key (attachedValue letters) r
    | some kind => do g.shortOptions letters (← g.bare kind r)

/-- The complaint about an operand where none can stand. -/
def surplus (g : Grammar κ) (word : String) (r : Reading κ) : UsageError :=
  if g.commands.isEmpty || (r.isTrailing && g.commands.contains word) then .unknownArgument
  else .unknownCommand

/-- Takes an operand. -/
def takeOperand (g : Grammar κ) (word : String) (r : Reading κ) :
    Except UsageError (Reading κ) :=
  match g.operand with
  | none => .error (g.surplus word r)
  | some (key, isMany) =>
    if !isMany && r.operands != 0 then .error (g.surplus word r)
    else match r.pending with
      | some (pending, values) =>
        if pending == key && isMany then .ok { r with pending := some (key, values ++ [word]) }
        else do
          let r ← g.settle r
          return { r with pending := some (key, [word]), operands := r.operands + 1 }
      | none => .ok { r with pending := some (key, [word]), operands := r.operands + 1 }

/-- Reads words up to the end or to a command. -/
def read (g : Grammar κ) : List String → Reading κ → Except UsageError (Parsed κ)
  | [], r => .ok ⟨r, none⟩
  | word :: rest, r =>
    if r.isTrailing then do g.read rest (← g.takeOperand word r)
    else if !r.isAwaiting && g.commands.contains word then .ok ⟨r, some (word, rest)⟩
    else match Piece.ofWord word with
      | .escape => g.read rest { r with isTrailing := true }
      | .long name value => do g.read rest (← g.longOption name value r)
      | .short letters => do g.read rest (← g.shortOptions letters r)
      | .plain =>
        if r.isAwaiting then g.read rest (r.supply word)
        else do g.read rest (← g.takeOperand word r)

/-- Reads the words of a command to the end. -/
def readAll (g : Grammar κ) (words : List String) : Except UsageError (Reading κ) := do
  g.settle (← g.read words Reading.start).reading

end Grammar
end LivePatch.Tool
