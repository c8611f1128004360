import LivePatch.Tool.Arguments

/-!
# Help

What the command-line program says about itself and about command lines that it cannot run. The
program as a whole explains itself in short, with everything about an option on one line, or in
full, with its values explained one by one. The commands have one text each.
-/

namespace LivePatch.Tool

/-- The name the program goes by. -/
def programName : String := "hotlink"

/-- The version in words. -/
def versionText : String := programName ++ " 0.1.0\n"

/-- What a help text says about a command, an operand or an option. -/
structure Entry where
  /-- What is typed, in the column where entries of its kind begin. -/
  form : String
  about : String
  /-- The value when none is given. -/
  usual : Option String
  /-- The values it can have, with what they mean. -/
  values : List (String × Option String)
  deriving DecidableEq, Repr

namespace Entry

/-- An entry without values. -/
def plain (form about : String) : Entry := ⟨form, about, none, []⟩

/-- Remarks about the values: the usual one, and those that the entry does not explain. -/
def remarks (e : Entry) (isExplained : Bool) : List String :=
  e.usual.toList.map ("[default: " ++ · ++ "]")
    ++ if e.values.isEmpty || isExplained then []
      else ["[possible values: " ++ Text.join ", " (e.values.map Prod.fst) ++ "]"]

/-- The line that explains a value. -/
def valueLine (width : Nat) (value : String × Option String) : String :=
  "- " ++ match value.2 with
    | some about => Text.padRight (width + 2) (value.1 ++ ":") ++ about
    | none => value.1

/-- The margin of what is said about an option of the whole program. -/
def margin : String := "\n" ++ Text.fill ' ' 10

/-- An option of the whole program, in short. -/
def brief (e : Entry) : String :=
  "  " ++ e.form ++ margin ++ Text.join " " (e.about :: e.remarks false) ++ "\n"

/-- An option of the whole program, in full. -/
def full (e : Entry) : String :=
  let isExplained := e.values.any fun v ↦ v.2.isSome
  let width := (e.values.map fun v ↦ v.1.length).foldl max 0
  let explained := if isExplained then
      "\n" ++ margin ++ Text.join margin ("Possible values:" :: e.values.map (valueLine width))
    else ""
  let remarks := e.remarks isExplained
  "  " ++ e.form ++ margin ++ e.about ++ explained
    ++ (if remarks.isEmpty then "" else margin ++ margin ++ Text.join margin remarks) ++ "\n"

/-- Entries on one line each, with what they are about in one column. -/
def table (entries : List Entry) : String :=
  let width := (entries.map fun e ↦ e.form.length).foldl max 0
  String.join (entries.map fun e ↦
    "  " ++ Text.padRight width e.form ++ "  " ++ e.about ++ "\n")

end Entry

/-- What the commands are for. -/
def commandAbout : String → String
  | "inspect" => "Print the symbols, relocations and directives of object files"
  | "strip" =>
    "Strip symbols from an object file in place. A `.bak` copy is kept next to it"
  | "disable-entry" => "Replace the entry point of an image with a stub that returns success"
  | "help" => "Print this message or the help of the given subcommand(s)"
  | _ => "Live-patching engine for natively compiled x86_64 modules"

/-- What is said about the policies for weak symbols. -/
def weakSymbolsAbout : WeakSymbolPolicy → String
  | .forceInclude => "Emit `/INCLUDE:` for every weak library symbol so the linker resolves it "
    ++ "the same way it did for the original module"
  | .linkerDefault => "Leave weak symbol resolution to the linker"

/-- Options of the whole program. -/
def optionEntries (isFull : Bool) : List Entry :=
  [⟨"    --log-level <LOG_LEVEL>", "Set the logging level", some defaultLogLevel, []⟩,
    .plain "    --compiler <COMPILER>"
      "Compiler used instead of the one recorded in the build metadata",
    .plain "    --compiler-fallback-only"
      "Only use --compiler when the recorded compiler no longer exists",
    ⟨"    --compiler-options <COMPILER_OPTIONS>",
      "Extra options appended to every compiler invocation", some "\"\"", []⟩,
    .plain "    --linker <LINKER>"
      "Linker used instead of the one recorded in the build metadata",
    .plain "    --linker-fallback-only"
      "Only use --linker when the recorded linker no longer exists",
    ⟨"    --linker-options <LINKER_OPTIONS>", "Extra options appended to every link",
      some "\"\"", []⟩,
    .plain "    --split-amalgamations"
      ("Compile the parts of an amalgamated (unity) file separately once one of them "
        ++ "changes"),
    ⟨"    --weak-symbols <WEAK_SYMBOLS>", "Treatment of weak symbols from static libraries",
      some (weakSymbolsText .forceInclude),
      [.forceInclude, .linkerDefault].map fun p ↦ (weakSymbolsText p, some (weakSymbolsAbout p))⟩,
    ⟨"    --linker-flavor <LINKER_FLAVOR>",
      "Linker flavour, detected from the linker file name when not given", none,
      [.msvc, .lld].map fun f ↦ (linkerFlavorText f, none)⟩,
    .plain "    --single-process"
      "Refuse to install existing patches into processes attached later",
    .plain "-h, --help"
      ("Print help (see " ++ (if isFull then "a summary with '-h'" else "more with '--help'")
        ++ ")"),
    .plain "-V, --version" "Print version"]

/-- The beginning of a help text: what the program or command does and how it is used. -/
def preamble (command usage : String) : String :=
  commandAbout command ++ "\n\nUsage: " ++ programName ++ " " ++ usage ++ "\n\n"

/-- What the whole program does. -/
def generalHelp (isFull : Bool) : String :=
  let options := optionEntries isFull
  preamble "" "[OPTIONS] <COMMAND>"
    ++ "Commands:\n"
    ++ Entry.table ((commandNames ++ [helpCommand]).map fun c ↦ .plain c (commandAbout c))
    ++ "\nOptions:\n"
    ++ if isFull then Text.join "\n" (options.map Entry.full)
      else String.join (options.map Entry.brief)

/-- The option that asks for the help of a command. -/
def helpEntry : Entry := .plain "-h, --help" "Print help"

/-- The help of a command with operands and options. -/
def commandHelp (command usage operand : String) (options : List Entry) : String :=
  preamble command usage ++ "Arguments:\n" ++ Entry.table [.plain operand ""]
    ++ "\nOptions:\n" ++ Entry.table options

/-- How a command is used, and what for. -/
def helpText (command : Option String) (isFull : Bool) : String :=
  match command with
  | some "inspect" =>
    commandHelp "inspect" "inspect <OBJECTS>..." "<OBJECTS>..." [helpEntry]
  | some "strip" =>
    commandHelp "strip" "strip --symbol <SYMBOLS> <OBJECT>" "<OBJECT>"
      [.plain "-s, --symbol <SYMBOLS>" "", helpEntry]
  | some "disable-entry" =>
    commandHelp "disable-entry" "disable-entry <IMAGE>" "<IMAGE>" [helpEntry]
  | some "help" =>
    preamble "help" "help [COMMAND]..." ++ "Arguments:\n"
      ++ Entry.table [.plain "[COMMAND]..." "Print help for the subcommand(s)"]
  | _ => generalHelp isFull

/-- What is wrong with a command line. -/
def usageText : UsageError → String
  | .nothingGiven => generalHelp false
  | .missingCommand => "error: a command is required\n"
  | .missingArgument => "error: a required argument is missing\n"
  | .unknownArgument => "error: unexpected argument\n"
  | .unknownCommand => "error: unrecognized command\n"
  | .invalidValue => "error: invalid or missing value of an option\n"
  | .unwantedValue => "error: unexpected value of an option\n"
  | .repeated => "error: an option cannot be used multiple times\n"
  | .help command isFull => helpText command isFull
  | .version => versionText

end LivePatch.Tool
