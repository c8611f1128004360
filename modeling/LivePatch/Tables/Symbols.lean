import LivePatch.Failure
import LivePatch.Word

/-!
# Tables of an image

What is known about a linked image: where its symbols are, which object files its address ranges
came from, which thunks lead to its functions and where its sections lie. Addresses are relative to
the base of the image.
-/

namespace LivePatch

/-- A pointer slot that the program's start-up code calls an initializer through. -/
structure Initializer where
  name : String
  slot : UInt32
  deriving DecidableEq, Repr

/-- The named addresses of an image. A name has one address: the last one it was given. -/
structure SymbolTable where
  symbols : List (String × UInt32)
  initializers : List Initializer
  /-- Functions that were linked in from static libraries. -/
  libraryFunctions : List String

namespace SymbolTable

/-- No symbol. -/
def empty : SymbolTable := ⟨[], [], []⟩

instance : Inhabited SymbolTable := ⟨empty⟩

/-- The address of a name. -/
def find? (t : SymbolTable) (name : String) : Option UInt32 := t.symbols.lookup name

/-- Gives a name an address. -/
def insert (t : SymbolTable) (name : String) (rva : UInt32) : SymbolTable :=
  if t.symbols.any fun s ↦ s.1 == name then
    { t with symbols := t.symbols.map fun s ↦ if s.1 == name then (name, rva) else s }
  else { t with symbols := t.symbols ++ [(name, rva)] }

/-- The table of names and their addresses. -/
def ofList (l : List (String × UInt32)) : SymbolTable :=
  l.foldl (fun t (name, rva) ↦ t.insert name rva) empty

/-- Number of names. -/
def size (t : SymbolTable) : Nat := t.symbols.length

end SymbolTable

/-- An address range of an image and the object file that produced it. -/
structure Contribution where
  rva : UInt32
  size : UInt32
  object : Path
  deriving DecidableEq, Repr

/-- Contributions in the order of their addresses, and the object files in the order in which they
were first named. -/
structure ContributionTable where
  ranges : List Contribution
  objects : List Path

namespace ContributionTable

/-- No contribution. -/
def empty : ContributionTable := ⟨[], []⟩

instance : Inhabited ContributionTable := ⟨empty⟩

/-- The spelling under which an object file was first named. -/
def spelling (t : ContributionTable) (object : Path) : Path :=
  (t.objects.find? fun o ↦ o.same object).getD object

/-- Adds a range, before others that start at its address. -/
def add (t : ContributionTable) (object : Path) (rva size : UInt32) : ContributionTable :=
  let c : Contribution := ⟨rva, size, t.spelling object⟩
  ⟨t.ranges.takeWhile (fun d ↦ d.rva < rva) ++ c :: t.ranges.dropWhile (fun d ↦ d.rva < rva),
    if t.objects.any fun o ↦ o.same object then t.objects else t.objects ++ [object]⟩

/-- The table of object files, and the addresses and sizes of their ranges. -/
def ofList (l : List (Path × UInt32 × UInt32)) : ContributionTable :=
  l.foldl (fun t (object, rva, size) ↦ t.add object rva size) empty

/-- The range that covers an address. The last range that starts at or before the address is the
only candidate; an empty range covers its start. -/
def find (t : ContributionTable) (rva : UInt32) : Outcome (Option Contribution) :=
  match (t.ranges.takeWhile fun c ↦ c.rva ≤ rva).getLast? with
  | none => .ok none
  | some c => do
    let stop ← orFault (Word.add32? c.rva (max c.size 1))
    pure (if rva < stop then some c else none)

/-- The object file that produced the byte at an address. -/
def objectAt (t : ContributionTable) (rva : UInt32) : Outcome (Option Path) := do
  let c ← t.find rva
  pure (c.map Contribution.object)

/-- Ranges stand in the order of their addresses. -/
def WF (t : ContributionTable) : Prop := t.ranges.Pairwise fun a b ↦ a.rva ≤ b.rva

/-- The empty table is in order. -/
theorem wf_empty : WF empty := List.Pairwise.nil

end ContributionTable

/-- Incremental-linking thunks, by the function they lead to. -/
structure ThunkTable where
  thunks : List (UInt32 × List UInt32)

namespace ThunkTable

/-- No thunk. -/
def empty : ThunkTable := ⟨[]⟩

instance : Inhabited ThunkTable := ⟨empty⟩

/-- The thunks that lead to a function. -/
def leadingTo (t : ThunkTable) (target : UInt32) : List UInt32 := (t.thunks.lookup target).getD []

/-- Adds a thunk behind the others that lead to a function. -/
def add (t : ThunkTable) (target thunk : UInt32) : ThunkTable :=
  if t.thunks.any fun e ↦ e.1 == target then
    ⟨t.thunks.map fun e ↦ if e.1 == target then (target, e.2 ++ [thunk]) else e⟩
  else ⟨t.thunks ++ [(target, [thunk])]⟩

/-- The table of functions and thunks that lead to them. -/
def ofList (l : List (UInt32 × UInt32)) : ThunkTable :=
  l.foldl (fun t (target, thunk) ↦ t.add target thunk) empty

end ThunkTable

/-- A named section of an image. -/
structure ImageSection where
  name : String
  rva : UInt32
  size : UInt32
  deriving DecidableEq, Repr

/-- The first section of a name. -/
def findSection? (sections : List ImageSection) (name : String) : Option ImageSection :=
  sections.find? fun s ↦ s.name == name

end LivePatch
