import LivePatch.Session.Module

/-!
# Compiling changed units

Units are compiled in stages, and a stage only starts when all units of the one before it were
compiled: first those that create precompiled headers, then those that keep debug information to
themselves, then those that share a debug database, in groups by database, and behind them those
that share state with earlier compiles. A unit that failed or was not run stays modified.
-/

namespace LivePatch

/-! ### Compiler invocations

How a unit is compiled: with its recorded options and the user's, and with its outputs named unless
the recorded options name them. -/

namespace CompilerLine

/-- The arguments for a unit. Units that share a debug database have their writes serialized. -/
def arguments (s : Settings) (c : Compiland) (sharesDatabase : Bool) : String :=
  let has := Text.hasOption c.commandLine
  let parts :=
    ["-c", s.compilerOptions,
      if sharesDatabase && !has "FS" then "-FS" else "",
      c.commandLine,
      if !c.hasEmbeddedDebugInfo && !has "Fd" then "-Fd" ++ c.database.quoted else "",
      if !has "Fo" then "-Fo" ++ c.object.quoted else "",
      c.source.quoted]
  Text.join " " (parts.filter fun part ↦ !part.isEmpty)

/-- The invocation for a unit. -/
def invocation (s : Settings) (files : FileTree) (c : Compiland) (sharesDatabase : Bool) :
    Invocation :=
  let compiler := s.compilerFor files c.compiler
  ⟨compiler, Workshop.directoryFor files c.workingDirectory compiler,
    arguments s c sharesDatabase⟩

end CompilerLine

/-! ### Stages -/

/-- The units to compile, by stage. -/
structure CompileStages where
  headers : List Compiland
  separate : List Compiland
  /-- Units by the database that they share, in the order of the databases. -/
  shared : PathMap (List Compiland)
  serial : List Compiland

namespace CompileStages

/-- No unit. -/
def empty : CompileStages := ⟨[], [], ∅, []⟩

/-- Adds a unit to its stage. -/
def add (s : CompileStages) (c : Compiland) : CompileStages :=
  if c.createsHeader then { s with headers := s.headers ++ [c] }
  else if c.hasEmbeddedDebugInfo then { s with separate := s.separate ++ [c] }
  else if c.usesMinimalRebuild then { s with serial := s.serial ++ [c] }
  else
    { s with
      shared := s.shared.insert c.database ((s.shared.find? c.database).getD [] ++ [c]) }

/-- The units of some object files, by stage. -/
def ofUnits (units : List Compiland) : CompileStages := units.foldl add empty

/-- The units of the last stage, and whether each shares a database. -/
def last (s : CompileStages) : List (Compiland × Bool) :=
  (s.shared.entries.flatMap fun e ↦ e.2.map fun c ↦ (c, true)) ++ s.serial.map fun c ↦ (c, false)

end CompileStages

/-- A unit that failed to compile, and the exit code. -/
abbrev CompileFailure := Path × Int

namespace LiveModule

/-- Compiles a unit. -/
def compileUnit (c : Compiland) (sharesDatabase : Bool) : CycleM ToolOutput := do
  let m ← get
  runTool (CompilerLine.invocation m.settings m.files c sharesDatabase)

/-- What compiling a unit came to. -/
structure Compiled where
  object : Path
  result : Outcome ToolOutput

/-- Compiles units one after another, also after one failed. -/
def compileEach : List (Compiland × Bool) → CycleM (List Compiled)
  | [] => pure []
  | (c, sharesDatabase) :: rest => do
    let result ← ExceptT.lift (compileUnit c sharesDatabase).run
    let more ← compileEach rest
    pure (⟨c.object, result⟩ :: more)

/-- Books a unit that was compiled. -/
def bookSuccess (object : Path) : CycleM Unit := do
  inWorkshop (Workshop.reload object)
  mark object true
  modify fun m ↦ { m with modified := m.modified.erase object, pending := m.pending.add object }

/-- Books a unit that failed: its object file is older than its source. -/
def bookFailure (object : Path) : CycleM Unit := do
  mark object false
  modify fun m ↦ { m with pending := m.pending.erase object }

/-- The exit code that stands for a tool that could not be run. -/
def notRun : Int := -1

/-- Books the results of one stage. Answers the failures. -/
def record : List Compiled → CycleM (List CompileFailure)
  | [] => pure []
  | ⟨object, result⟩ :: rest => do
    match result with
    | .error .fault => throw .fault
    | .ok output =>
      if output.isSuccess then
        bookSuccess object
        record rest
      else
        bookFailure object
        return (object, output.exitCode) :: (← record rest)
    | .error (.error _) =>
      bookFailure object
      return (object, notRun) :: (← record rest)

/-- Compiles the units of one stage. Answers the failures. -/
def compileStage (units : List (Compiland × Bool)) : CycleM (List CompileFailure) := do
  record (← compileEach units)

/-- The units of the modified object files. Object files without a unit are no longer modified. -/
def unitsToCompile : CycleM (List Compiland) := do
  let m ← get
  let known := m.modified.toList.filter m.compilands.contains
  set { m with modified := PathSet.ofList known }
  pure (known.filterMap m.compilands.get?)

/-- Compiles the units of the modified object files. Answers the failures, of one stage only. -/
def compile : CycleM (List CompileFailure) := do
  let stages := CompileStages.ofUnits (← unitsToCompile)
  let failures ← compileStage (stages.headers.map fun c ↦ (c, false))
  if !failures.isEmpty then return failures
  let failures ← compileStage (stages.separate.map fun c ↦ (c, false))
  if !failures.isEmpty then return failures
  compileStage stages.last

end LiveModule
end LivePatch
