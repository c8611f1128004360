import LivePatch.Objects.File
import LivePatch.Paths.Map

/-!
# Cached object files

Tables of object files are kept for a whole session. A table is only replaced when its file is read
again on purpose, after it was compiled.
-/

namespace LivePatch

/-- A table, and the how-many-th reading of a file it came from. -/
structure CachedObject where
  serial : Nat
  table : ObjectTable
  deriving DecidableEq, Repr

/-- Tables by the path of their file. -/
structure ObjectCache where
  entries : PathMap CachedObject
  /-- Number of tables that were read. -/
  readings : Nat

namespace ObjectCache

/-- No table. -/
def empty : ObjectCache := ⟨∅, 0⟩

instance : Inhabited ObjectCache := ⟨empty⟩

/-- The table of a file, if it was read before. -/
def get? (c : ObjectCache) (path : Path) : Option CachedObject := c.entries.find? path

/-- Number of tables. -/
def size (c : ObjectCache) : Nat := c.entries.size

/-- The cache with one more table. -/
def added (c : ObjectCache) (path : Path) (table : ObjectTable) : ObjectCache :=
  ⟨c.entries.insert path ⟨c.readings, table⟩, c.readings + 1⟩

/-- Reads a file again and replaces its table. -/
def reload (files : FileTree) (path : Path) : ExceptT Stop (StateM ObjectCache) CachedObject := do
  let table ← ObjectTable.load files path
  let c ← get
  set (c.added path table)
  pure ⟨c.readings, table⟩

/-- The table of a file, which is read when it is asked for first. -/
def load (files : FileTree) (path : Path) : ExceptT Stop (StateM ObjectCache) CachedObject := do
  match (← get).get? path with
  | some cached => pure cached
  | none => reload files path

/-- What loading many files one after another comes to, file by file. -/
def loadAll (files : FileTree) :
    List Path → StateM ObjectCache (List (Path × Outcome CachedObject))
  | [] => pure []
  | path :: rest => do
    let result ← (load files path).run
    let more ← loadAll files rest
    pure ((path, result) :: more)

end ObjectCache
end LivePatch
