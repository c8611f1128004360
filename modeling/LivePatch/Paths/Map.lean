import LivePatch.Paths.Path

/-!
# Maps and sets of paths

Entries are kept in the order of their paths, one for each file that is named. Writing to a file
that already has an entry keeps the path under which it was first written.
-/

namespace LivePatch

/-- Values filed under paths, in the order of the paths. -/
structure PathMap (α : Type) where
  entries : List (Path × α)

namespace PathMap

variable {α : Type}

/-- No entry. -/
def empty : PathMap α := ⟨[]⟩

instance : EmptyCollection (PathMap α) := ⟨empty⟩
instance : Inhabited (PathMap α) := ⟨empty⟩

/-- The value filed under a path. -/
def find? (m : PathMap α) (p : Path) : Option α :=
  (m.entries.find? fun e ↦ e.1.same p).map Prod.snd

/-- Whether a path has an entry. -/
def contains (m : PathMap α) (p : Path) : Bool := m.entries.any fun e ↦ e.1.same p

/-- Entries with one more, at its place. -/
def place (p : Path) (a : α) : List (Path × α) → List (Path × α)
  | [] => [(p, a)]
  | e :: rest =>
    match p.compare e.1 with
    | .lt => (p, a) :: e :: rest
    | .eq => (e.1, a) :: rest
    | .gt => e :: place p a rest

/-- Files a value under a path. -/
def insert (m : PathMap α) (p : Path) (a : α) : PathMap α := ⟨place p a m.entries⟩

/-- Removes the entry of a path. -/
def erase (m : PathMap α) (p : Path) : PathMap α := ⟨m.entries.filter fun e ↦ !e.1.same p⟩

/-- Changes the value filed under a path, if there is one. -/
def modify (m : PathMap α) (p : Path) (f : α → α) : PathMap α :=
  ⟨m.entries.map fun e ↦ if e.1.same p then (e.1, f e.2) else e⟩

/-- Changes every value. -/
def map {β : Type} (m : PathMap α) (f : Path → α → β) : PathMap β :=
  ⟨m.entries.map fun e ↦ (e.1, f e.1 e.2)⟩

/-- The paths with an entry, in order. -/
def keys (m : PathMap α) : List Path := m.entries.map Prod.fst

/-- Number of entries. -/
def size (m : PathMap α) : Nat := m.entries.length

/-- An entry is found exactly where there is one. -/
theorem isSome_find? (m : PathMap α) (p : Path) : (m.find? p).isSome = m.contains p := by
  rw [Bool.eq_iff_iff]
  simp [find?, contains]

end PathMap

/-- A set of paths, in order. -/
abbrev PathSet := PathMap Unit

namespace PathSet

/-- Adds a path. -/
def add (s : PathSet) (p : Path) : PathSet := if s.contains p then s else s.insert p ()

/-- Adds paths one after another. -/
def addAll (s : PathSet) (ps : List Path) : PathSet := ps.foldl add s

/-- The set of some paths. -/
def ofList (ps : List Path) : PathSet := addAll PathMap.empty ps

/-- The paths of a set, in order. -/
def toList (s : PathSet) : List Path := s.keys

/-- Whether a set holds no path. -/
def isEmpty (s : PathSet) : Bool := s.entries.isEmpty

end PathSet
end LivePatch
