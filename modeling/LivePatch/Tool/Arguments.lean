import LivePatch.Build.Settings
import LivePatch.Tool.Grammar

/-!
# Arguments of the command-line program

The program does one of three things with object files and images. Its settings are the settings of
a session; they precede the command.
-/

namespace LivePatch.Tool

/-- What the program is to do. -/
inductive Command where
  /-- List the symbols, relocations and directives of object files. -/
  | inspect (objects : List Path)
  /-- Remove symbols from an object file. -/
  | strip (object : Path) (symbols : List String)
  /-- Replace the entry point of an image by a stub. -/
  | disableEntry (image : Path)
  deriving DecidableEq, Repr

/-- A well-formed command line. -/
structure Configuration where
  logLevel : String
  settings : Settings
  command : Command
  deriving DecidableEq, Repr

/-- Options that precede the command. -/
inductive Choice where
  | logLevel
  | compiler
  | compilerFallbackOnly
  | compilerOptions
  | linker
  | linkerFallbackOnly
  | linkerOptions
  | splitAmalgamations
  | weakSymbols
  | linkerFlavor
  | singleProcess
  deriving DecidableEq, Repr

/-- Options and operands of a command. -/
inductive Item where
  | file
  | symbol
  deriving DecidableEq, Repr

/-- The name of a policy for weak symbols. -/
def weakSymbolsText : WeakSymbolPolicy → String
  | .forceInclude => "force-include"
  | .linkerDefault => "linker-default"

/-- The policy for weak symbols of a name. -/
def weakSymbolsOf? (name : String) : Option WeakSymbolPolicy :=
  [.forceInclude, .linkerDefault].find? fun p ↦ weakSymbolsText p == name

/-- The name of a family of linkers. -/
def linkerFlavorText : LinkerFlavor → String
  | .msvc => "msvc"
  | .lld => "lld"

/-- The family of linkers of a name. -/
def linkerFlavorOf? (name : String) : Option LinkerFlavor :=
  [.msvc, .lld].find? fun f ↦ linkerFlavorText f == name

/-- The command that explains the others. -/
def helpCommand : String := "help"

/-- Names of the commands that do something. -/
def commandNames : List String := ["inspect", "strip", "disable-entry"]

/-- What may precede the command. -/
def choices : Grammar Choice where
  command := none
  long := [("log-level", .value .logLevel), ("compiler", .value .compiler),
    ("compiler-fallback-only", .flag .compilerFallbackOnly),
    ("compiler-options", .value .compilerOptions), ("linker", .value .linker),
    ("linker-fallback-only", .flag .linkerFallbackOnly),
    ("linker-options", .value .linkerOptions), ("split-amalgamations", .flag .splitAmalgamations),
    ("weak-symbols", .value .weakSymbols), ("linker-flavor", .value .linkerFlavor),
    ("single-process", .flag .singleProcess), ("help", .help true), ("version", .version)]
  short := [('h', .help false), ('V', .version)]
  operand := none
  commands := commandNames ++ [helpCommand]
  accepts
    | .compiler, value => !value.isEmpty
    | .linker, value => !value.isEmpty
    | .weakSymbols, value => (weakSymbolsOf? value).isSome
    | .linkerFlavor, value => (linkerFlavorOf? value).isSome
    | _, _ => true
  accumulates _ := false

/-- What may follow a command. -/
def items (command : String) : Grammar Item where
  command := some command
  long := if command == "strip" then [("symbol", .value .symbol), ("help", .help true)]
    else [("help", .help true)]
  short := if command == "strip" then [('s', .value .symbol), ('h', .help false)]
    else [('h', .help false)]
  operand := some (.file, command == "inspect")
  commands := []
  accepts
    | .file, value => !value.isEmpty
    | .symbol, _ => true
  accumulates
    | .file => command == "inspect"
    | .symbol => true

/-- The command that a line names, with everything that it needs. -/
def commandOf (name : String) (words : List String) : Except UsageError Command := do
  let r ← (items name).readAll words
  let files := (r.values .file).map Path.mk
  if name == "inspect" then
    if files.isEmpty then .error .missingArgument else .ok (.inspect files)
  else match files.head? with
    | none => .error .missingArgument
    | some file =>
      if name == "disable-entry" then .ok (.disableEntry file)
      else if r.has .symbol then .ok (.strip file (r.values .symbol))
      else .error .missingArgument

/-- The answer to the command that explains the others. -/
def explained : List String → UsageError
  | [] => .help none true
  | [name] =>
    if commandNames.contains name || name == helpCommand then .help (some name) true
    else .unknownCommand
  | _ => .unknownCommand

/-- The settings that were chosen. -/
def settingsOf (r : Reading Choice) : Settings where
  compiler := (r.value? .compiler).map Path.mk
  compilerFallbackOnly := r.has .compilerFallbackOnly
  compilerOptions := (r.value? .compilerOptions).getD ""
  linker := (r.value? .linker).map Path.mk
  linkerFallbackOnly := r.has .linkerFallbackOnly
  linkerOptions := (r.value? .linkerOptions).getD ""
  splitAmalgamations := r.has .splitAmalgamations
  weakSymbols := ((r.value? .weakSymbols).bind weakSymbolsOf?).getD .forceInclude
  linkerFlavor := (r.value? .linkerFlavor).bind linkerFlavorOf?
  singleProcess := r.has .singleProcess

/-- The level of log messages unless another is chosen. -/
def defaultLogLevel : String := "info"

/-- Reads a command line. -/
def parse (words : List String) : Except UsageError Configuration := do
  let parsed ← choices.read words Reading.start
  match parsed.command with
  | none =>
    let r ← choices.settle parsed.reading
    .error (if r.given.isEmpty then .nothingGiven else .missingCommand)
  | some (name, rest) =>
    if name == helpCommand then .error (explained rest)
    else
      let command ← commandOf name rest
      let r ← choices.settle parsed.reading
      .ok ⟨(r.value? .logLevel).getD defaultLogLevel, settingsOf r, command⟩

end LivePatch.Tool
