import LivePatch.Agent.Behavior
import LivePatch.Build.Workshop
import LivePatch.Tables.Compilands

/-!
# Rehearsed collaborators

Collaborators that go along with what the engine asks for as far as they are told to, so that every
refusal it has to cope with can be provoked.
-/

namespace LivePatch

/-! ### Limited cooperation

Processes and agents that go along with a number of requests of a name and not with any later one. -/

/-- How many requests of a name are gone along with. -/
abbrev Limits := List (String × Nat)

/-- Whether as many requests of a name were made as are gone along with. -/
def Limits.areReached (l : Limits) (name : String) (before : Nat) : Bool :=
  (l.lookup name).any (· ≤ before)

/-- A gate with limits on calls. -/
def Gate.limited (l : Limits) : Gate := ⟨fun call before ↦ l.areReached call.name.text before, []⟩

/-- An answer that does not belong to a command. -/
def Command.wrongReply : Command → Reply
  | .loadPatch _ => .ack
  | _ => .patchLoaded none

/-- How an agent with limits reacts to commands: behind one limit its connection is broken, behind
the other it gives answers that do not belong to the command. -/
def Reaction.limited (fails confuses : Limits) (c : Command) (before : Nat) : Reaction :=
  if fails.areReached c.name.text before then .breaks
  else if confuses.areReached c.name.text before then .answers c.wrongReply
  else .serves

/-- How an agent reacts that acknowledges a number of commands first. -/
def Reaction.afterwards (patience : Nat) (reaction : Reaction) (before : Nat) : Reaction :=
  if before < patience then .answers .ack else reaction

/-! ### Known tables

A provider that has the tables of some images, by the name of their file, and fails to provide a
chosen one of them. -/

/-- The tables of an image. -/
structure KnownTables where
  tables : ImageTables
  /-- The name of a table that cannot be provided. -/
  broken : String

/-- Stops with an error in the words of a collaborator. -/
def reported {α : Type} (text : String) : Outcome α := fail (.reported text)

namespace KnownTables

/-- One of the tables, by its name. -/
def provide {α : Type} (images : List (String × KnownTables)) (name : String)
    (table : ImageTables → α) (image : Path) : Outcome α :=
  let file := image.fileName?.getD ""
  match images.lookup file with
  | none => reported ("no tables for " ++ file)
  | some t =>
    if t.broken == name then reported ("broken " ++ name ++ " table") else .ok (table t.tables)

/-- A provider of known tables. -/
def provider (images : List (String × KnownTables)) (linker : Option LinkerRecord) : Provider where
  symbols := provide images "symbols" ImageTables.symbols
  contributions := provide images "contributions" ImageTables.contributions
  compilands := provide images "compilands" ImageTables.compilands
  thunks := provide images "thunks" ImageTables.thunks
  sections := provide images "image_sections" ImageTables.sections
  linker _ := match linker with
    | some record => .ok record
    | none => reported "broken linker table"

end KnownTables

/-! ### Scripted tools

Compilers and linkers that do what a script says: report an error, or write files and end with an
exit code. A compiler goes by the file it compiles, which its line of arguments ends with. -/

/-- What a tool does when it is run. -/
structure ToolScript where
  /-- What it reports instead of doing anything. -/
  error : Option String
  writes : List (Path × Bytes)
  /-- The image to write to where the line of arguments wants it. -/
  image : Option Bytes
  output : ToolOutput
  deriving DecidableEq, Repr

/-- What tools do. -/
structure ToolScripts where
  /-- What compilers do, by the file they compile. -/
  compile : List (String × ToolScript)
  link : ToolScript
  deriving DecidableEq, Repr

/-- A tool that does nothing and succeeds. -/
def ToolScript.idle : ToolScript := ⟨none, [], none, ⟨0, ""⟩⟩

namespace Invocation

/-- Whether a compiler is run, which is told not to link. -/
def compiles (i : Invocation) : Bool := Names.startsWith i.arguments "-c"

/-- The file that is compiled. -/
def compiled (i : Invocation) : String :=
  Text.unquoted ((Text.tokens i.arguments).getLast?.getD "")

/-- The option that names the image to write. -/
def imageOption : String := "/OUT:"

/-- Where the image is wanted. -/
def image? (i : Invocation) : Option Path :=
  ((Text.tokens i.arguments).find? fun a ↦ Names.startsWith a imageOption).map fun a ↦
    ⟨Text.unquoted (String.ofList (a.toList.drop imageOption.length))⟩

/-- The files that the line of arguments may name. -/
def operands (i : Invocation) : List Path :=
  (Text.tokens i.arguments).map fun a ↦ ⟨Text.unquoted a⟩

end Invocation

/-- Does what a script says. -/
def ToolScript.play (s : ToolScript) (i : Invocation) : FilesM ToolOutput := do
  match s.error with
  | some text => fail (.reported text)
  | none =>
    s.writes.forM fun w ↦ Files.write w.1 w.2
    match i.image?, s.image with
    | some path, some data => Files.write path data
    | _, _ => pure ()
    return s.output

/-- Tools that do what scripts say. -/
def ToolScripts.toolchain (s : ToolScripts) : Toolchain := fun i files ↦
  let script := if i.compiles then (s.compile.lookup i.compiled).getD .idle else s.link
  (script.play i).run files

end LivePatch
