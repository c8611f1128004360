import LivePatch.Tables.Compilands

/-!
# Changes

Which object files have to be compiled again because files they depend on have changed. The parts of
a unity file are compiled in its place once it is split; without splitting the unity file stands for
its parts.
-/

namespace LivePatch

/-- The state of looking for changed units. -/
structure ChangeScan where
  amalgamations : PathMap Amalgamation
  /-- Object files found so far. -/
  found : PathSet

namespace ChangeScan

/-- Adds an object file. -/
def add (s : ChangeScan) (object : Path) : ChangeScan := { s with found := s.found.add object }

/-- Adds object files. -/
def addAll (s : ChangeScan) (objects : List Path) : ChangeScan :=
  { s with found := s.found.addAll objects }

/-- Marks a unity file as split. -/
def split (s : ChangeScan) (unity : Path) : ChangeScan :=
  { s with amalgamations := s.amalgamations.modify unity fun a ↦ { a with isSplit := true } }

end ChangeScan

namespace CompilandTable

/-- Whether a file has another time than when it was last looked at. Files that are not there do
not count. -/
def hasChanged (files : FileTree) (file : Path) (d : Dependency) : Bool :=
  match files.time? file with
  | none => false
  | some time => d.modified != some time

/-- The files that changed. -/
def changedFiles (t : CompilandTable) (files : FileTree) : List (Path × Dependency) :=
  t.dependencies.entries.filter fun e ↦ hasChanged files e.1 e.2

/-- The table with the times that the files have now. Files that are not there keep their time. -/
def lookedAt (t : CompilandTable) (files : FileTree) : CompilandTable :=
  { t with
    dependencies := t.dependencies.map fun file d ↦
      match files.time? file with
      | some time => { d with modified := some time }
      | none => d }

/-- The table with the times of all files, none for files that are not there. -/
def timed (t : CompilandTable) (files : FileTree) : CompilandTable :=
  { t with dependencies := t.dependencies.map fun file d ↦ { d with modified := files.time? file } }

/-- The parts of a unity file whose own source is among changed files. -/
def touchedParts (t : CompilandTable) (a : Amalgamation) (changed : List Path) : List Path :=
  a.parts.filter fun part ↦
    (t.get? part).any fun c ↦ changed.any fun file ↦ file.same c.source

/-- Adds what has to be compiled for an object file that depends on a changed file. -/
def resolveChange (t : CompilandTable) (splits : Bool) (changed : List Path) (s : ChangeScan)
    (object : Path) : ChangeScan :=
  match (t.get? object).bind Compiland.amalgamation with
  | some unity => if splits then (s.split unity).add object else s.add unity
  | none =>
    match if splits then s.amalgamations.find? object else none with
    | none => s.add object
    | some a =>
      let touched := t.touchedParts a changed
      if !touched.isEmpty then (s.split object).addAll touched
      else if a.isSplit then s.addAll a.parts
      else s.add object

/-- Looks at the times of all files. Answers the table with the new times and splits, and the
object files that have to be compiled. -/
def detectChanges (t : CompilandTable) (files : FileTree) (splits : Bool) :
    CompilandTable × PathSet :=
  let changed := t.changedFiles files
  let objects := PathSet.ofList (changed.flatMap fun e ↦ e.2.objects)
  let scan := objects.toList.foldl (t.resolveChange splits (changed.map Prod.fst))
    ⟨t.amalgamations, ∅⟩
  ({ t.lookedAt files with amalgamations := scan.amalgamations }, scan.found)

end CompilandTable
end LivePatch
