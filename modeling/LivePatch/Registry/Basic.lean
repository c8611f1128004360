import LivePatch.Process.Mapping
import LivePatch.Tables.Compilands

/-!
# Registry of images

Every image that is loaded for a module: the module itself first, then its patches in the order in
which they came. An entry knows in which processes its image is mapped; only the base differs
between processes. Symbols are looked up from the newest image back.
-/

namespace LivePatch

/-- Names an entry of the registry: its position. -/
structure Token where
  index : Nat
  deriving DecidableEq, Repr

/-- The module itself. -/
def Token.module : Token := ⟨0⟩

/-- Where an image is mapped in a process. -/
structure Placed where
  pid : UInt32
  base : UInt64
  deriving DecidableEq, Repr

/-- An image and the processes it is mapped in. -/
structure RegisteredImage where
  path : Path
  tables : ImageTables
  size : UInt32
  processes : List Placed

/-- All images, the oldest first. -/
structure Registry where
  images : List RegisteredImage

/-- A symbol in the newest image that has it. -/
structure FoundSymbol where
  token : Token
  rva : UInt32
  image : RegisteredImage

/-- Hooks in the newest image that has some: pointers from one address up to another. -/
structure FoundHooks where
  token : Token
  first : UInt32
  last : UInt32
  processes : List Placed

namespace Registry

/-- No image. -/
def empty : Registry := ⟨[]⟩

instance : Inhabited Registry := ⟨empty⟩

/-- Number of images. -/
def size (r : Registry) : Nat := r.images.length

/-- The token that the next image gets. -/
def next (r : Registry) : Token := ⟨r.images.length⟩

/-- Adds an image, which is mapped nowhere yet. -/
def insert (r : Registry) (path : Path) (tables : ImageTables) (size : UInt32) : Registry :=
  ⟨r.images ++ [⟨path, tables, size, []⟩]⟩

/-- The entry of a token. -/
def get? (r : Registry) (token : Token) : Option RegisteredImage := r.images[token.index]?

/-- Changes the entry of a token, if there is one. -/
def modifyAt (r : Registry) (token : Token) (f : RegisteredImage → RegisteredImage) : Registry :=
  ⟨r.images.modify token.index f⟩

/-- Mappings without those in a process. -/
def without (pid : UInt32) (processes : List Placed) : List Placed :=
  processes.filter fun p ↦ p.pid != pid

/-- Notes where an image is mapped in a process. -/
def register (r : Registry) (token : Token) (pid : UInt32) (base : UInt64) : Registry :=
  r.modifyAt token fun i ↦ { i with processes := without pid i.processes ++ [⟨pid, base⟩] }

/-- Forgets where an image is mapped in a process. -/
def forget (r : Registry) (token : Token) (pid : UInt32) : Registry :=
  r.modifyAt token fun i ↦ { i with processes := without pid i.processes }

/-- Forgets a process. -/
def unregister (r : Registry) (pid : UInt32) : Registry :=
  ⟨r.images.map fun i ↦ { i with processes := without pid i.processes }⟩

/-- Whether a token names the newest image and that is not the module itself. -/
def isDiscardable (r : Registry) (token : Token) : Bool :=
  token.index != 0 && token.index + 1 == r.images.length

/-- Drops the newest image, for a patch that never became active. -/
def discard (r : Registry) (token : Token) : Registry :=
  if r.isDiscardable token then ⟨r.images.dropLast⟩ else r

/-- The images with their tokens, the newest first, without an excluded one. -/
def newestFirst (r : Registry) (exclude : Option Token) : List (Token × RegisteredImage) :=
  ((r.images.zipIdx.map fun (image, index) ↦ (Token.mk index, image)).reverse).filter fun e ↦
    some e.1 != exclude

/-- The newest instance of a symbol outside an excluded image. -/
def findSymbol? (r : Registry) (exclude : Option Token) (name : String) : Option FoundSymbol :=
  (r.newestFirst exclude).findSome? fun (token, image) ↦
    (image.tables.symbols.find? name).map fun rva ↦ ⟨token, rva, image⟩

/-- Whether some image has a symbol. -/
def containsSymbol (r : Registry) (name : String) : Bool := (r.findSymbol? none name).isSome

/-- The newest non-empty section of a name outside an excluded image. -/
def findSection? (r : Registry) (exclude : Option Token) (name : String) :
    Option (Token × RegisteredImage × ImageSection) :=
  (r.newestFirst exclude).findSome? fun (token, image) ↦
    match LivePatch.findSection? image.tables.sections name with
    | some s => if 0 < s.size then some (token, image, s) else none
    | none => none

/-- The hooks in the newest non-empty section of a name outside an excluded image. -/
def findHooks (r : Registry) (exclude : Option Token) (name : String) :
    Outcome (Option FoundHooks) :=
  match r.findSection? exclude name with
  | none => .ok none
  | some (token, image, s) => do
    let last ← orFault (Word.add32? s.rva s.size)
    pure (some ⟨token, s.rva, last, image.processes⟩)

/-- Where every image is mapped in a process, in the order of the images. -/
def bases (r : Registry) (pid : UInt32) : List (Option UInt64) :=
  r.images.map fun i ↦ (i.processes.find? fun p ↦ p.pid == pid).map Placed.base

/-- Where an image is mapped, given the bases of all images. -/
def baseOf? (bases : List (Option UInt64)) (token : Token) : Option UInt64 :=
  (bases[token.index]?).join

/-- The mapping of an image in a process, if it is mapped there. -/
def mapping? (r : Registry) (pid : UInt32) (token : Token) : Option Mapping := do
  let base ← baseOf? (r.bases pid) token
  let image ← r.get? token
  pure ⟨base, image.size⟩

/-- Size of the module. -/
def moduleSize (r : Registry) : UInt32 := ((r.get? .module).map RegisteredImage.size).getD 0

/-- Adding an image makes the registry one longer. -/
theorem size_insert (r : Registry) (path : Path) (tables : ImageTables) (size : UInt32) :
    (r.insert path tables size).size = r.size + 1 := by
  simp [insert, Registry.size]

/-- Noting a mapping keeps the number of images. -/
theorem size_register (r : Registry) (token : Token) (pid : UInt32) (base : UInt64) :
    (r.register token pid base).size = r.size := by
  simp [register, modifyAt, Registry.size]

end Registry
end LivePatch
