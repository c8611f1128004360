import LivePatch.Bytes
import LivePatch.Failure
import LivePatch.Paths.Path

/-!
# Files

The part of the file system that an engine works in: files with their contents, directories, and the
times of both. Paths are followed step by step from the root or from the working directory; every
step but the last must be a directory. A directory changes when something appears in it, leaves it
or gets another name. An operation that the file system would refuse is absent.
-/

namespace LivePatch

/-- When something was last changed: at a stated number of seconds, or by the n-th change that was
not given a time. -/
inductive FileTime where
  | stated (seconds : Int)
  | written (serial : Nat)
  deriving DecidableEq, Repr

/-- What lies at a location. -/
inductive FileNode where
  | file (data : Bytes) (time : FileTime)
  | directory (time : FileTime)
  deriving DecidableEq, Repr

namespace FileNode

/-- Whether it is a directory. -/
def isDirectory : FileNode → Bool
  | .file .. => false
  | .directory _ => true

/-- When it was last changed. -/
def time : FileNode → FileTime
  | .file _ time => time
  | .directory time => time

/-- The same with another time. -/
def stamped (n : FileNode) (time : FileTime) : FileNode :=
  match n with
  | .file data _ => .file data time
  | .directory _ => .directory time

end FileNode

/-- The names of directories on the way from the root to something, and its own. -/
abbrev Location := List String

/-- Files and directories by location. The root always exists. -/
structure FileTree where
  nodes : List (Location × FileNode)
  rootTime : FileTime
  /-- The working directory. -/
  home : Location
  /-- Number of changes that were not given a time. -/
  writes : Nat

namespace FileTree

/-- Nothing but the directories on the way to a working directory. -/
def emptyAt (home : Location) : FileTree :=
  ⟨(List.range home.length).map fun i ↦ (home.take (i + 1), .directory (.written 0)), .written 0,
    home, 1⟩

/-- Nothing but a working directory with a name that no path can spell. -/
def empty : FileTree := emptyAt [""]

instance : Inhabited FileTree := ⟨empty⟩

/-- What lies at a location. -/
def at? (t : FileTree) (l : Location) : Option FileNode :=
  if l.isEmpty then some (.directory t.rootTime) else t.nodes.lookup l

/-- Whether a directory lies at a location. -/
def isDirectoryAt (t : FileTree) (l : Location) : Bool := (t.at? l).any FileNode.isDirectory

/-- Bytes of the longest path that can be followed. -/
def maxPathSize : Nat := 4095

/-- Bytes of the longest name. -/
def maxNameSize : Nat := 255

/-- Whether a segment of a path can be the name of something. -/
def isName (s : List Char) : Bool :=
  s != [] && s != ['.'] && s != ['.', '.'] && !s.contains '\x00'
    && (String.ofList s).utf8ByteSize ≤ maxNameSize

/-- One step from a location. Above the root is the root. -/
def step? (t : FileTree) (l : Location) (s : List Char) : Option Location :=
  if !t.isDirectoryAt l then none
  else if Path.isFiller s then some l
  else if s = ['.', '.'] then some l.dropLast
  else
    let next := l ++ [String.ofList s]
    if (t.at? next).isSome then some next else none

/-- Follows segments from a location. -/
def follow? (t : FileTree) (l : Location) : List (List Char) → Option Location
  | [] => some l
  | s :: rest => (t.step? l s).bind fun m ↦ follow? t m rest

/-- Where a path starts. -/
def start (t : FileTree) (p : Path) : Location :=
  if p.text.toList.head? = some '/' then [] else t.home

/-- Whether a path can be followed at all. -/
def canFollow (p : Path) : Bool := !p.text.isEmpty && p.text.utf8ByteSize ≤ maxPathSize

/-- The location of what a path names, if it exists. -/
def locate? (t : FileTree) (p : Path) : Option Location :=
  if canFollow p then t.follow? (t.start p) p.segments else none

/-- The location of what a path would name if it were created. -/
def place? (t : FileTree) (p : Path) : Option Location := do
  let name ← p.segments.getLast?
  let l ← if canFollow p then t.follow? (t.start p) p.segments.dropLast else none
  if isName name && t.isDirectoryAt l then pure (l ++ [String.ofList name]) else none

/-- What a path names. -/
def node? (t : FileTree) (p : Path) : Option FileNode := (t.locate? p).bind t.at?

/-- Whether a path names something. -/
def contains (t : FileTree) (p : Path) : Bool := (t.node? p).isSome

/-- Whether a path names a directory. -/
def isDirectory (t : FileTree) (p : Path) : Bool := (t.node? p).any FileNode.isDirectory

/-- The contents of a file. -/
def read? (t : FileTree) (p : Path) : Option Bytes :=
  match t.node? p with
  | some (.file data _) => some data
  | _ => none

/-- The time of what a path names. -/
def time? (t : FileTree) (p : Path) : Option FileTime := (t.node? p).map FileNode.time

/-- Puts something at a location. -/
def put (t : FileTree) (l : Location) (n : FileNode) : FileTree :=
  if t.nodes.any fun e ↦ e.1 == l then
    { t with nodes := t.nodes.map fun e ↦ if e.1 == l then (l, n) else e }
  else { t with nodes := t.nodes ++ [(l, n)] }

/-- Takes away what lies at a location. -/
def drop (t : FileTree) (l : Location) : FileTree :=
  { t with nodes := t.nodes.filter fun e ↦ e.1 != l }

/-- The time of a change that is not given one. -/
def now (t : FileTree) : FileTime := .written t.writes

/-- Gives what lies at a location another time. -/
def stampAt (t : FileTree) (l : Location) (time : FileTime) : FileTree :=
  if l.isEmpty then { t with rootTime := time }
  else match t.at? l with
    | some n => t.put l (n.stamped time)
    | none => t

/-- Counts a change that was made now, which changed the directories of some locations. -/
def changedAt (t : FileTree) (locations : List Location) : FileTree :=
  let stamped := locations.foldl (fun u l ↦ u.stampAt l.dropLast t.now) t
  { stamped with writes := t.writes + 1 }

/-- Creates a file or replaces its contents. -/
def write? (t : FileTree) (p : Path) (data : Bytes) : Option FileTree := do
  let l ← t.place? p
  match t.at? l with
  | some (.directory _) => none
  | some (.file ..) => pure ((t.put l (.file data t.now)).changedAt [])
  | none => pure ((t.put l (.file data t.now)).changedAt [l])

/-- Gives what a path names another time. -/
def stamp? (t : FileTree) (p : Path) (time : FileTime) : Option FileTree :=
  (t.locate? p).map fun l ↦ t.stampAt l time

/-- Copies a file over another one. -/
def copy? (t : FileTree) (source target : Path) : Option FileTree := do
  let data ← t.read? source
  t.write? target data

/-- Moves a file into the place of another one. -/
def rename? (t : FileTree) (source target : Path) : Option FileTree := do
  let l ← t.locate? source
  let m ← t.place? target
  match t.at? l with
  | some (.file data time) =>
    if t.isDirectoryAt m then none
    else pure (((t.drop l).put m (.file data time)).changedAt [l, m])
  | _ => none

/-- Removes a file. -/
def remove? (t : FileTree) (p : Path) : Option FileTree := do
  let l ← t.locate? p
  match t.at? l with
  | some (.file _ _) => pure ((t.drop l).changedAt [l])
  | _ => none

/-- Creates a directory at a location if nothing lies there. -/
def makeDirectoryAt (t : FileTree) (l : Location) : FileTree :=
  if (t.at? l).isSome then t else (t.put l (.directory t.now)).changedAt [l]

/-- Creates the missing directories on a way from a location. -/
def makeDirectoriesFrom (t : FileTree) (l : Location) : List Component → FileTree
  | [] => t
  | .name n :: rest => makeDirectoriesFrom (t.makeDirectoryAt (l ++ [n])) (l ++ [n]) rest
  | .up :: rest => makeDirectoriesFrom t l.dropLast rest
  | .root :: rest => makeDirectoriesFrom t [] rest
  | .here :: rest => makeDirectoriesFrom t l rest

/-- Creates the directory that a path names and those on the way to it. -/
def makeDirectories (t : FileTree) (p : Path) : FileTree :=
  t.makeDirectoriesFrom (t.start p) p.components

/-- What was put among nodes is found there. -/
theorem lookup_map_put (nodes : List (Location × FileNode)) (l : Location) (n : FileNode)
    (h : nodes.any (fun e ↦ e.1 == l) = true) :
    (nodes.map fun e ↦ if e.1 == l then (l, n) else e).lookup l = some n := by
  induction nodes with
  | nil => simp at h
  | cons e rest ih =>
    obtain ⟨k, v⟩ := e
    by_cases hk : k = l
    · simp [hk]
    · have hl : (l == k) = false := by simpa using fun h ↦ hk h.symm
      have hr : rest.any (fun e ↦ e.1 == l) = true := by simpa [hk] using h
      have := ih hr
      simp only [beq_iff_eq] at this
      simp only [List.map_cons, beq_iff_eq, hk, if_false, List.lookup_cons, hl, this]

/-- What was added behind nodes that lie elsewhere is found there. -/
theorem lookup_append_put (nodes : List (Location × FileNode)) (l : Location) (n : FileNode)
    (h : nodes.any (fun e ↦ e.1 == l) = false) :
    (nodes ++ [(l, n)]).lookup l = some n := by
  induction nodes with
  | nil => simp
  | cons e rest ih =>
    obtain ⟨k, v⟩ := e
    rw [List.any_cons, Bool.or_eq_false_iff] at h
    have hk : k ≠ l := by simpa using h.1
    have hl : (l == k) = false := by simpa using fun h ↦ hk h.symm
    simp only [List.cons_append, List.lookup_cons, hl]
    exact ih h.2

/-- What was put at a location is found there. -/
theorem at?_put_self (t : FileTree) (l : Location) (n : FileNode) (h : l ≠ []) :
    (t.put l n).at? l = some n := by
  have hl : l.isEmpty = false := by cases l <;> simp_all
  simp only [at?, hl, Bool.false_eq_true, if_false, put]
  split
  · next hany => exact lookup_map_put _ _ _ hany
  · next hany => exact lookup_append_put _ _ _ (Bool.eq_false_iff.mpr hany)

end FileTree

/-! ### Access

Operations on files that stop with an error when the file system refuses. -/

/-- Work on files, which keeps what it changed before it stopped short. -/
abbrev FilesM := ExceptT Stop (StateM FileTree)

namespace Files

/-- Changes the files, unless the file system refuses. -/
def change (f : FileTree → Option FileTree) : FilesM Unit := do
  set (← orFail .system (f (← get)))

/-- Replaces the contents of a file or creates it. -/
def write (path : Path) (data : Bytes) : FilesM Unit := change fun t ↦ t.write? path data

end Files

/-- The contents of what can be opened: directories can be, but hold no data. -/
def FileTree.contents (t : FileTree) (path : Path) : Outcome Bytes := do
  let node ← inContext (.opening path) (orFail .system (t.node? path))
  match node with
  | .file data _ => pure data
  | .directory _ => fail .system

end LivePatch
