import LivePatch.Images.Image
import LivePatch.Objects.Cache
import LivePatch.Tool.Arguments
import LivePatch.Tool.Help
import LivePatch.Tool.LogFilter

/-!
# The command-line program

Lists what object files hold, removes symbols from them and disables the entry points of images. A
run takes the files it finds to what it prints and leaves behind. Lines that were printed and files
that were changed before an error stay.
-/

namespace LivePatch.Tool

/-- What a run works on. -/
structure Desk where
  files : FileTree
  /-- Lines that were printed. -/
  printed : List String

/-- A run, which keeps what it did before it stopped short. -/
abbrev DeskM := ExceptT Stop (StateM Desk)

/-- Prints lines. -/
def print (lines : List String) : DeskM Unit :=
  modify fun d ↦ { d with printed := d.printed ++ lines }

/-- Works on the files. -/
def onFiles {α : Type} (act : FilesM α) : DeskM α :=
  ExceptT.mk fun d ↦
    let (result, files) := act.run d.files
    (result, { d with files := files })

/-! ## Listings -/

/-- The line of a relocation. -/
def relocationLine (r : Relocation) : String :=
  "          +0x" ++ Text.padRight 4 (Text.hex r.offset.toNat) ++ " " ++ r.kind.describe
    ++ " -> " ++ r.target ++ " " ++ Text.explicitlySigned r.addend.toInt

/-- What a symbol stands for, in a word. -/
def symbolWord (s : ObjectSymbol) : String :=
  if s.isUndefined then "undef" else if s.isFunction then "func" else "data"

/-- The lines of a symbol and of the relocations in it. -/
def symbolLines (s : ObjectSymbol) : List String :=
  ("  #" ++ Text.padRight 5 (Text.decimal s.index) ++ " " ++ Text.padRight 5 (symbolWord s) ++ " "
    ++ Text.padRight 6 (if s.isExternal then "extern" else "static")
    ++ (if s.isWeak then " weak" else "") ++ " " ++ s.name ++ " +0x" ++ Text.hex s.offset.toNat)
    :: s.relocations.map relocationLine

/-- The lines of an object file. -/
def objectLines (path : Path) (t : ObjectTable) : List String :=
  (path.text ++ " (id " ++ Text.paddedHex 8 t.unique.toNat ++ ")")
    :: t.symbols.flatMap symbolLines
    ++ t.externalDefinitions.map ("  extern " ++ ·)
    ++ t.directives.map ("  directive " ++ ·)

/-- Lists object files. All of them are read before the first line is printed. -/
def inspect (objects : List Path) : DeskM Unit := do
  let (loaded, _) := (ObjectCache.loadAll (← get).files objects).run ObjectCache.empty
  if loaded.any fun l ↦ l.2 matches .error .fault then throw .fault
  for (path, result) in loaded do
    print (objectLines path (← result).table)

/-! ## Removing symbols -/

/-- The linker that stripped object files are meant for, unless one is chosen. -/
def usualLinker : Path := ⟨"link.exe"⟩

/-- Removes the definitions of symbols from an object file, which is backed up first. -/
def strip (settings : Settings) (object : Path) (names : List String) : DeskM Unit := do
  let strategy := settings.strategyFor (settings.linker.getD usualLinker)
  let editor ← Coff.Editor.load (← get).files object strategy
  let wanted := (← editor.symbols).filter fun s ↦ names.contains s.name && s.sectionNumber > 0
  let (result, editor) := (wanted.forM fun s ↦ Coff.Editor.removeSymbol s.index).run editor
  result
  if wanted.isEmpty then fail (.nothingToStrip object)
  onFiles do
    let _ ← Backup.make object
    editor.save object

/-! ## Disabling entry points -/

/-- Bytes as two hexadecimal digits each. -/
def bytesText (bytes : Bytes) : String :=
  Text.join " " (bytes.toList.map fun b ↦ Text.paddedHex 2 b.toNat)

/-- Replaces the entry point of an image by a stub that reports success. -/
def disableEntry (path : Path) : DeskM Unit := do
  let image ← Image.load (← get).files path
  let (result, image) := Image.disableEntryPoint.run image
  match ← result with
  | some saved =>
    onFiles (image.save path)
    print ["Entry point at RVA " ++ Text.address saved.rva.toNat ++ " disabled, original bytes: "
      ++ bytesText saved.code]
  | none => print [path.text ++ " has no entry point"]

/-! ## Runs -/

/-- Does what a command line asks for. -/
def perform (c : Configuration) : DeskM Unit := do
  inContext .logLevel (liftExcept (LogFilter.read c.logLevel))
  match c.command with
  | .inspect objects => inspect objects
  | .strip object symbols => strip c.settings object symbols
  | .disableEntry image => disableEntry image

/-- What a run came to. -/
structure Report where
  status : UInt32
  /-- Everything that was printed. -/
  output : String
  /-- What went wrong, in words. -/
  complaint : String
  files : FileTree

/-- Lines as one text. -/
def lines (l : List String) : String := String.join (l.map (· ++ "\n"))

/-- The answer to a command line that cannot be run. -/
def answered (e : UsageError) (files : FileTree) : Report :=
  match e with
  | .help command isFull => ⟨0, helpText command isFull, "", files⟩
  | .version => ⟨0, versionText, "", files⟩
  | e => ⟨2, "", usageText e, files⟩

/-- Runs the program. -/
def run (words : List String) (files : FileTree) : Report :=
  match parse words with
  | .error e => answered e files
  | .ok c =>
    let (result, d) := (perform c).run ⟨files, []⟩
    match result with
    | .ok () => ⟨0, lines d.printed, "", d.files⟩
    | .error (.error e) => ⟨1, lines d.printed, "Error: " ++ e.message ++ "\n", d.files⟩
    | .error .fault => ⟨101, lines d.printed, "", d.files⟩

end LivePatch.Tool
