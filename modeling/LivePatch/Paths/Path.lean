import LivePatch.Text.LowerCase

/-!
# Paths

A path is a text; what it names is its list of components. Two texts with equal components name
the same file, so paths are compared, ordered and looked up by components: repeated and trailing
slashes and dots inside a path do not count. Names of files are taken apart at their last dot.
-/

namespace LivePatch

/-- The name of a file, as it was written. -/
structure Path where
  text : String
  deriving DecidableEq, Repr, Inhabited

/-- A step of a path. -/
inductive Component where
  | root
  | here
  | up
  | name (n : String)
  deriving DecidableEq, Repr

namespace Component

/-- Position of a step among the kinds of steps. -/
def rank : Component → Nat
  | .root => 0
  | .here => 1
  | .up => 2
  | .name _ => 3

/-- Order of two steps: by kind, names by their characters. -/
def compare : Component → Component → Ordering
  | .name a, .name b => compareOfLessAndEq a b
  | a, b => Ord.compare a.rank b.rank

end Component

namespace Path

/-- The texts between slashes. -/
def segmentsFrom (current : List Char) : List Char → List (List Char)
  | [] => [current]
  | '/' :: rest => current :: segmentsFrom [] rest
  | c :: rest => segmentsFrom (current ++ [c]) rest

/-- The texts between the slashes of a path. -/
def segments (p : Path) : List (List Char) := segmentsFrom [] p.text.toList

/-- Whether a segment behind the first names nothing. -/
def isFiller (s : List Char) : Bool := s == [] || s == ['.']

/-- The step that a segment stands for, if any. -/
def stepOf (s : List Char) : Option Component :=
  if isFiller s then none else if s = ['.', '.'] then some .up else some (.name (String.ofList s))

/-- What the first segment stands for: a slash at the start is the root, and a dot counts here. -/
def firstStep (isOnly : Bool) (s : List Char) : Option Component :=
  if s = [] then if isOnly then none else some .root
  else if s = ['.'] then some .here
  else stepOf s

/-- The steps of a path. -/
def components (p : Path) : List Component :=
  match p.segments with
  | [] => []
  | s :: rest => (firstStep rest.isEmpty s).toList ++ rest.filterMap stepOf

/-- Whether two paths name the same file. -/
def same (p q : Path) : Bool := p.components == q.components

/-- Order of two lists of steps: by the first difference, a beginning before what continues it. -/
def compareSteps : List Component → List Component → Ordering
  | [], [] => .eq
  | [], _ :: _ => .lt
  | _ :: _, [] => .gt
  | a :: as, b :: bs =>
    match a.compare b with
    | .eq => compareSteps as bs
    | o => o

/-- Order of two paths. -/
def compare (p q : Path) : Ordering := compareSteps p.components q.components

/-- The name of the file a path leads to, if it ends in a name. -/
def fileName? (p : Path) : Option String :=
  match p.components.getLast? with
  | some (.name n) => some n
  | _ => none

/-- Position of the last dot of a name, as the number of characters before it. -/
def lastDot? (name : List Char) : Option Nat :=
  match name.reverse.dropWhile (· != '.') with
  | [] => none
  | _ :: before => some before.length

/-- A name taken apart at its last dot: stem and extension. A dot that starts the name, or that
belongs to the step upwards, does not separate. -/
def splitName (name : String) : String × Option String :=
  let cs := name.toList
  if cs = ['.', '.'] then (name, none)
  else match lastDot? cs with
    | none => (name, none)
    | some 0 => (name, none)
    | some n => (String.ofList (cs.take n), some (String.ofList (cs.drop (n + 1))))

/-- The name of the file without its extension. -/
def stem? (p : Path) : Option String := p.fileName?.map fun n ↦ (splitName n).1

/-- The extension of the file's name. -/
def extension? (p : Path) : Option String := p.fileName?.bind fun n ↦ (splitName n).2

/-- The text of segments joined by slashes; a lone empty segment is the root. -/
def ofSegments : List (List Char) → Path
  | [[]] => ⟨"/"⟩
  | ss => ⟨String.ofList (['/'].intercalate ss)⟩

/-- Segments without the fillers at their end; the first segment always counts. -/
def trimmed (ss : List (List Char)) : List (List Char) :=
  match ss with
  | [] => []
  | s :: rest => s :: (rest.reverse.dropWhile isFiller).reverse

/-- The directory a path lies in: the path without its last step. The root and the empty path lie
in none. -/
def parent? (p : Path) : Option Path :=
  match trimmed p.segments with
  | [] => none
  | [s] =>
    if p.components = [.root] || p.components = [] then none
    else if s = [] then none else some ⟨""⟩
  | ss =>
    match trimmed ss.dropLast with
    | [] => none
    | rest => some (ofSegments rest)

/-- The path that a text leads to from here. -/
def join (p : Path) (text : String) : Path :=
  if text.toList.head? = some '/' then ⟨text⟩
  else match p.text.toList.getLast? with
    | none => ⟨text⟩
    | some '/' => ⟨p.text ++ text⟩
    | some _ => ⟨p.text ++ "/" ++ text⟩

/-- The path with another name in the place of the file's own. -/
def withFileName (p : Path) (name : String) : Path :=
  if p.fileName?.isSome then ((p.parent?).getD p).join name else p.join name

/-- The path with another extension of the file's name. The old extension goes first; where that
leaves two dots, the path leads upwards and takes no extension. -/
def withExtension (p : Path) (extension : String) : Path :=
  match p.stem? with
  | none => p
  | some stem =>
    match trimmed p.segments with
    | [] => p
    | ss =>
      let leadsUpwards := stem == "." && ss.length == p.segments.length
      let name := if leadsUpwards then ".." else stem ++ "." ++ extension
      ofSegments (ss.dropLast ++ [name.toList])

/-- The path with a suffix behind its last character. -/
def append (p : Path) (suffix : String) : Path := ⟨p.text ++ suffix⟩

/-- The path with a suffix between the stem and the extension of the file's name. -/
def insertBeforeExtension (p : Path) (suffix : String) : Path :=
  let stem := p.stem?.getD ""
  match p.extension? with
  | some extension => p.withFileName (stem ++ suffix ++ "." ++ extension)
  | none => p.withFileName (stem ++ suffix)

/-- The form in which paths from different records are compared: lower case, with forward slashes.
Records keep whatever casing and separators the build used. -/
def normalized (p : Path) : String :=
  String.ofList (Text.lowerCase (p.text.toList.map fun c ↦ if c = '\\' then '/' else c))

/-- The path between double quotes. -/
def quoted (p : Path) : String := "\"" ++ p.text ++ "\""

/-- A path names what it names. -/
theorem same_refl (p : Path) : p.same p = true := by simp [same]

/-- Naming the same file is symmetric. -/
theorem same_comm (p q : Path) : p.same q = q.same p := by
  simp only [same]
  exact Bool.eq_iff_iff.mpr ⟨fun h ↦ by simpa using (beq_iff_eq.mp h).symm,
    fun h ↦ by simpa using (beq_iff_eq.mp h).symm⟩

end Path
end LivePatch
