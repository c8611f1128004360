import LivePatch.Agent.Command

/-!
# Failures

Why an operation stopped. An error has a cause and the contexts it passed through on its way out,
outermost first; its text is put together here and nowhere else. A fault is no error: machine
arithmetic left its range or an access left its table, and nothing below the operation that met it
answers for it.
-/

namespace LivePatch

/-! ### Calls on a process

The calls through which the engine works on a target process. Every one of them can be refused,
the calls on single threads also because of the thread they name. -/

/-- The names of the calls. -/
inductive CallName where
  | suspend | resume | readMemory | writeMemory | flushInstructionCache | threads
  | threadContext | setThreadContext | threadPriority | setThreadPriority
  | allocate | free | isRangeFree
  deriving DecidableEq, Repr

namespace CallName

/-- The written name of a call. -/
def text : CallName → String
  | .suspend => "suspend"
  | .resume => "resume"
  | .readMemory => "read_memory"
  | .writeMemory => "write_memory"
  | .flushInstructionCache => "flush_instruction_cache"
  | .threads => "threads"
  | .threadContext => "thread_context"
  | .setThreadContext => "set_thread_context"
  | .threadPriority => "thread_priority"
  | .setThreadPriority => "set_thread_priority"
  | .allocate => "allocate"
  | .free => "free"
  | .isRangeFree => "is_range_free"

/-- All calls. -/
def all : List CallName :=
  [.suspend, .resume, .readMemory, .writeMemory, .flushInstructionCache, .threads, .threadContext,
    .setThreadContext, .threadPriority, .setThreadPriority, .allocate, .free, .isRangeFree]

/-- The call of a written name. -/
def ofText? (text : String) : Option CallName := all.find? fun c ↦ c.text == text

end CallName

/-- A call, as far as it can be told before it is made. -/
structure Call where
  name : CallName
  /-- The thread that the call is about. -/
  thread : Option UInt32

/-! ### Errors -/

/-- The last reason of an error. -/
inductive Cause where
  /-- The operating system refused. -/
  | system
  /-- A binary file does not have the format it should have. -/
  | malformed
  /-- A collaborator reported an error in words of its own. -/
  | reported (text : String)
  -- Object files
  | shortHeader
  | foreignMachine (machine : UInt16)
  | tablesPastEnd
  | sectionOutOfRange (number : Nat)
  | truncatedSectionHeader
  | symbolOutOfRange (index : Nat)
  | auxiliaryOutOfRange (index : Nat)
  | truncatedSymbols
  | truncatedSectionDefinition
  | truncatedRelocations
  | truncatedRelocationsOf (number : Nat)
  | relocationOutOfRange
  | directivesOutOfBounds
  -- Images
  | crossesHeaders (rva : UInt32)
  | notInFile (rva : UInt32) (image : Path)
  | crossesSection (len : Nat) (rva : UInt32)
  | readPastEnd
  | writePastEnd
  | unknownFixup (kind : Nat) (rva : UInt32)
  -- Instructions and fields
  | outOfCode (address : Nat) (covered : Nat)
  | invalidInstruction (address : UInt64)
  | displacementTooLong (field value target : UInt64)
  | addressTooWide (target field : UInt64)
  | offsetTooWide (target field : UInt64)
  | fieldSize (field : UInt64) (got expected : Nat)
  | outsideImage (rva : UInt32)
  -- Processes
  | accessViolation (address : UInt64) (len : Nat)
  | notSuspended (pid : UInt32)
  | noThread (thread pid : UInt32)
  | notAllocated (address : UInt64)
  | refused (call : CallName)
  | notLoaded (image : Nat) (pid : UInt32)
  -- Agents
  | brokenPipe
  | unexpectedReply (reply : Reply) (command : Command)
  | unexpectedLoadReply (reply : Reply)
  -- Sessions
  | alreadyRegistered (pid : UInt32)
  | notRegistered (pid : UInt32)
  | patchNotLoaded (patch : Path) (pid : UInt32)
  | patchOutOfReach (patch : Path) (base : UInt64)
  | nothingToStrip (object : Path)
  -- The command-line program
  | invalidFilter
  deriving DecidableEq, Repr

/-- What was being done when an error arose. -/
inductive Context where
  | opening (file : Path)
  | parsingObject (file : Path)
  | reading (file : Path)
  | parsing (file : Path)
  | writing (file : Path)
  | backingUp (file : Path)
  | restoring (file : Path)
  | readingImage (file : Path)
  | notAnImage (file : Path)
  | writingImage (file : Path)
  | parsingLibrary
  | readingMemory (len : Nat) (rva : UInt32)
  | writingMemory (len : Nat) (rva : UInt32)
  | restoringThread (thread : UInt32)
  | gatheringTables (module : Path)
  | gatheringLinker (module : Path)
  | activating (patch : Path)
  | logLevel
  deriving DecidableEq, Repr

/-- A cause and the contexts around it, outermost first. -/
structure Error where
  contexts : List Context
  cause : Cause
  deriving DecidableEq, Repr

/-- Who an error comes from. -/
inductive ErrorKind where
  | system
  | format
  | engine
  deriving DecidableEq, Repr

/-- Name of who an error comes from. -/
def ErrorKind.text : ErrorKind → String
  | .system => "io"
  | .format => "object"
  | .engine => "error"

/-- How an operation stops short. -/
inductive Stop where
  | error (e : Error)
  | fault
  deriving DecidableEq, Repr

/-- A result, or how the operation stopped short. -/
abbrev Outcome := Except Stop

namespace Cause

/-- An error of this cause, without context. -/
def toError (c : Cause) : Error := ⟨[], c⟩

/-- Who a cause comes from. -/
def kind : Cause → ErrorKind
  | .system => .system
  | .malformed => .format
  | _ => .engine

/-- A number of bytes in words. -/
def bytes (n : Nat) : String := Text.decimal n ++ " bytes"

/-- The text of a cause. What the operating system or a reader of binary formats would say is
replaced by a placeholder. -/
def message : Cause → String
  | .system => "<io>"
  | .malformed => "<object>"
  | .reported text => text
  | .shortHeader => "file too small for a COFF header"
  | .foreignMachine machine =>
    "unsupported machine " ++ Text.address machine.toNat
      ++ ", only x86_64 objects are supported"
  | .tablesPastEnd => "COFF tables extend past the end of the file"
  | .sectionOutOfRange number => "section number " ++ Text.decimal number ++ " out of range"
  | .truncatedSectionHeader => "truncated section header"
  | .symbolOutOfRange index => "symbol index " ++ Text.decimal index ++ " out of range"
  | .auxiliaryOutOfRange index => "aux record " ++ Text.decimal index ++ " out of range"
  | .truncatedSymbols => "truncated symbol table"
  | .truncatedSectionDefinition => "truncated section definition"
  | .truncatedRelocations => "truncated relocation table"
  | .truncatedRelocationsOf number =>
    "truncated relocation table in section " ++ Text.decimal number
  | .relocationOutOfRange => "relocation index out of range"
  | .directivesOutOfBounds => "directive section out of bounds"
  | .crossesHeaders rva =>
    "range at RVA " ++ Text.address rva.toNat ++ " crosses the end of the headers"
  | .notInFile rva image =>
    "RVA " ++ Text.address rva.toNat ++ " is not backed by file data in " ++ image.text
  | .crossesSection len rva =>
    "range of " ++ bytes len ++ " at RVA " ++ Text.address rva.toNat
      ++ " crosses a section boundary"
  | .readPastEnd => "read past the end of the image"
  | .writePastEnd => "write past the end of the image"
  | .unknownFixup kind rva =>
    "unsupported base relocation type " ++ Text.decimal kind ++ " at RVA "
      ++ Text.address rva.toNat
  | .outOfCode address covered =>
    "ran out of code at " ++ Text.address address ++ " after " ++ bytes covered
  | .invalidInstruction address => "invalid instruction at " ++ Text.address address.toNat
  | .displacementTooLong field value target =>
    "Relocation overflow at VA " ++ Text.address field.toNat ++ ": displacement "
      ++ Text.address value.toNat ++ " exceeds 32-bit signed range. Target (S) is "
      ++ Text.address target.toNat ++ ". Ensure the patch is within 2GB of the module."
  | .addressTooWide target field =>
    "address " ++ Text.address target.toNat ++ " does not fit a 32-bit field at VA "
      ++ Text.address field.toNat
  | .offsetTooWide target field =>
    "RVA of " ++ Text.address target.toNat ++ " does not fit a 32-bit field at VA "
      ++ Text.address field.toNat
  | .fieldSize field got expected =>
    "relocation field at VA " ++ Text.address field.toNat ++ " is " ++ bytes got
      ++ ", expected " ++ Text.decimal expected
  | .outsideImage rva =>
    "function at RVA " ++ Text.address rva.toNat ++ " lies outside of its image"
  | .accessViolation address len =>
    "access violation at " ++ Text.address address.toNat ++ " (" ++ bytes len ++ ")"
  | .notSuspended pid => "process " ++ Text.decimal pid.toNat ++ " is not suspended"
  | .noThread thread pid =>
    "no thread " ++ Text.decimal thread.toNat ++ " in process " ++ Text.decimal pid.toNat
  | .notAllocated address => "nothing allocated at " ++ Text.address address.toNat
  | .refused call => "injected " ++ call.text ++ " failure"
  | .notLoaded image pid =>
    "image " ++ Text.decimal image ++ " is not loaded in process " ++ Text.decimal pid.toNat
  | .brokenPipe => "pipe broken"
  | .unexpectedReply reply command =>
    "unexpected reply " ++ reply.describe ++ " to " ++ command.describe
  | .unexpectedLoadReply reply =>
    "unexpected reply " ++ reply.describe ++ " to a load request"
  | .alreadyRegistered pid =>
    "process " ++ Text.decimal pid.toNat ++ " is already registered"
  | .notRegistered pid => "process " ++ Text.decimal pid.toNat ++ " is not registered"
  | .patchNotLoaded patch pid =>
    "failed to load patch " ++ patch.text ++ " into process " ++ Text.decimal pid.toNat
  | .patchOutOfReach patch base =>
    "patch " ++ patch.text ++ " at " ++ Text.address base.toNat
      ++ " is out of reach of the module"
  | .nothingToStrip object => "nothing to strip from " ++ object.text
  | .invalidFilter => "invalid filter directive"

end Cause

namespace Context

/-- The text of a context. -/
def message : Context → String
  | .opening file => "failed to open " ++ file.text
  | .parsingObject file => "failed to parse object file " ++ file.text
  | .reading file => "failed to read " ++ file.text
  | .parsing file => "failed to parse " ++ file.text
  | .writing file => "failed to write " ++ file.text
  | .backingUp file => "failed to back up " ++ file.text
  | .restoring file => "failed to restore " ++ file.text
  | .readingImage file => "failed to read image " ++ file.text
  | .notAnImage file => file.text ++ " is not a 64-bit PE image"
  | .writingImage file => "failed to write image " ++ file.text
  | .parsingLibrary => "failed to parse static library"
  | .readingMemory len rva =>
    "failed to read " ++ Cause.bytes len ++ " at RVA " ++ Text.address rva.toNat
  | .writingMemory len rva =>
    "failed to write " ++ Cause.bytes len ++ " at RVA " ++ Text.address rva.toNat
  | .restoringThread thread => "failed to restore thread " ++ Text.decimal thread.toNat
  | .gatheringTables module => "failed to gather tables of " ++ module.text
  | .gatheringLinker module => "failed to gather linker metadata of " ++ module.text
  | .activating patch => "failed to activate patch " ++ patch.text
  | .logLevel => "invalid log level"

end Context

namespace Error

/-- The contexts and the cause of an error, outermost first. -/
def message (e : Error) : String :=
  Text.join ": " (e.contexts.map Context.message ++ [e.cause.message])

/-- Who an error comes from: its cause decides. -/
def kind (e : Error) : ErrorKind := e.cause.kind

/-- The error inside one more context. -/
def within (c : Context) (e : Error) : Error := { e with contexts := c :: e.contexts }

end Error

namespace Stop

/-- Puts an error into one more context; a fault has none. -/
def within (c : Context) : Stop → Stop
  | .error e => .error (e.within c)
  | .fault => .fault

end Stop

/-- Stops with an error of a cause. -/
def fail {m : Type → Type} [MonadExceptOf Stop m] {α : Type} (c : Cause) : m α :=
  throwThe Stop (.error c.toError)

/-- A value that is absent only through a fault. -/
def orFault {α : Type} : Option α → Outcome α
  | some a => .ok a
  | none => .error .fault

/-- A value whose absence is an error of a cause. -/
def orFail {α : Type} (c : Cause) : Option α → Outcome α
  | some a => .ok a
  | none => .error (.error c.toError)

/-- An operation inside a context. -/
def inContext {m : Type → Type} [MonadExceptOf Stop m] {α : Type} (c : Context) (act : m α) :
    m α :=
  tryCatchThe Stop act fun s ↦ throwThe Stop (s.within c)

end LivePatch
