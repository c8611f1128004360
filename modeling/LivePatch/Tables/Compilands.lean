import LivePatch.Files.Tree
import LivePatch.Paths.Fingerprint
import LivePatch.Paths.Map
import LivePatch.Tables.Symbols
import LivePatch.Text.CommandLine

/-!
# Units

How the units of a module were built. Unlike the tables of symbols this one changes during a
session: modification times advance with the files, and units that were compiled but not linked yet
are marked.
-/

namespace LivePatch

/-- A unit, which is a source file with all that it includes, and how it is compiled. -/
structure Compiland where
  source : Path
  object : Path
  database : Path
  compiler : Path
  commandLine : String
  workingDirectory : Path
  /-- The object file of the unity file that this unit is a part of. -/
  amalgamation : Option Path
  unique : UInt32
  wasRecompiled : Bool
  deriving DecidableEq, Repr

namespace Compiland

/-- The unit of a source and an object file, with everything else as usual. -/
def ofPaths (source object : Path) : Compiland :=
  ⟨source, object, object.withExtension "pdb", ⟨"cl.exe"⟩, "", ⟨""⟩, none,
    Fingerprint.ofPath object, false⟩

/-- Whether the unit creates a precompiled header. -/
def createsHeader (c : Compiland) : Bool := Text.hasOption c.commandLine "Yc"

/-- Whether debug information stays in the object file, so that no database is shared. -/
def hasEmbeddedDebugInfo (c : Compiland) : Bool := Text.hasOption c.commandLine "Z7"

/-- Whether the unit shares state with earlier compiles. -/
def usesMinimalRebuild (c : Compiland) : Bool :=
  Text.hasOption c.commandLine "Gm" && !Text.hasOption c.commandLine "Gm-"

end Compiland

/-- A unity file: the object files of its parts, and whether they are compiled one by one. -/
structure Amalgamation where
  parts : List Path
  isSplit : Bool
  deriving DecidableEq, Repr

/-- What depends on a file, and the time of the file when it was last looked at. -/
structure Dependency where
  modified : Option FileTime
  objects : List Path
  deriving DecidableEq, Repr

/-- The units of a module: by object file, with the files they depend on, the unity files by their
object file, and the units that own precompiled-header symbols. -/
structure CompilandTable where
  units : PathMap Compiland
  dependencies : PathMap Dependency
  amalgamations : PathMap Amalgamation
  headerOwners : List (String × Path)

namespace CompilandTable

/-- No unit. -/
def empty : CompilandTable := ⟨∅, ∅, ∅, []⟩

instance : Inhabited CompilandTable := ⟨empty⟩

/-- A list of object files with one more, unless it is there already. -/
def withObject (objects : List Path) (object : Path) : List Path :=
  if objects.any fun o ↦ o.same object then objects else objects ++ [object]

/-- What is known about a file that units may depend on. -/
def dependency (t : CompilandTable) (file : Path) : Dependency :=
  (t.dependencies.find? file).getD ⟨none, []⟩

/-- Adds a unit, which depends on its source. -/
def add (t : CompilandTable) (c : Compiland) : CompilandTable :=
  let d := t.dependency c.source
  { t with
    units := t.units.insert c.object c
    dependencies :=
      t.dependencies.insert c.source { d with objects := withObject d.objects c.object } }

/-- Adds a file that an object file depends on, and the file's time. -/
def addDependency (t : CompilandTable) (file object : Path) (time : Option FileTime) :
    CompilandTable :=
  { t with
    dependencies :=
      t.dependencies.insert file ⟨time, withObject (t.dependency file).objects object⟩ }

/-- The table of units, and of files that their object files depend on. -/
def ofLists (units : List Compiland) (dependencies : List (Path × Path)) : CompilandTable :=
  dependencies.foldl (fun t (file, object) ↦ t.addDependency file object none)
    (units.foldl add empty)

/-- The unit of an object file. -/
def get? (t : CompilandTable) (object : Path) : Option Compiland := t.units.find? object

/-- Whether an object file belongs to a unit. -/
def contains (t : CompilandTable) (object : Path) : Bool := t.units.contains object

/-- Marks whether the unit of an object file was compiled but not linked yet. -/
def mark (t : CompilandTable) (object : Path) (recompiled : Bool) : CompilandTable :=
  { t with units := t.units.modify object fun c ↦ { c with wasRecompiled := recompiled } }

/-- The unit whose precompiled header a symbol belongs to. -/
def headerOwner? (t : CompilandTable) (symbol : String) : Option Path :=
  t.headerOwners.lookup symbol

end CompilandTable

/-- How a module itself was linked. -/
structure LinkerRecord where
  linker : Path
  database : Path
  commandLine : String
  workingDirectory : Path
  libraries : List Path
  deriving DecidableEq, Repr

/-- All tables of one image. -/
structure ImageTables where
  symbols : SymbolTable
  contributions : ContributionTable
  compilands : CompilandTable
  thunks : ThunkTable
  sections : List ImageSection

namespace ImageTables

/-- Tables without entries. -/
def empty : ImageTables := ⟨.empty, .empty, .empty, .empty, []⟩

instance : Inhabited ImageTables := ⟨empty⟩

end ImageTables

/-! ### Where tables come from

Reading debug information is not this library's business: it only asks for tables. -/

/-- Answers the tables of images. -/
structure Provider where
  symbols : Path → Outcome SymbolTable
  contributions : Path → Outcome ContributionTable
  compilands : Path → Outcome CompilandTable
  thunks : Path → Outcome ThunkTable
  sections : Path → Outcome (List ImageSection)
  linker : Path → Outcome LinkerRecord

/-- All tables of an image, or why the first of them could not be had. -/
def Provider.gather (p : Provider) (image : Path) : Outcome ImageTables := do
  let symbols ← p.symbols image
  let contributions ← p.contributions image
  let compilands ← p.compilands image
  let thunks ← p.thunks image
  let sections ← p.sections image
  pure ⟨symbols, contributions, compilands, thunks, sections⟩

end LivePatch
