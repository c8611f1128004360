import LivePatch.Files.Tree
import LivePatch.Images.Format

/-!
# Images

A linked image with 64-bit addresses, held in memory as the bytes of its file. Its bytes are read
and written by addresses relative to its base, and it can be rebased: changed so that it expects to
be loaded elsewhere. Its entry point can be replaced by code that returns success at once. It is read
from its file and written back.
-/

namespace LivePatch

/-- The file of an image. -/
structure Image where
  path : Path
  data : Bytes
  deriving DecidableEq, Repr

/-- An edit of an image, which keeps what it changed before it stopped short. -/
abbrev ImageM := ExceptT Stop (StateM Image)

/-- The code that an entry point started with before it was disabled. -/
structure SavedEntryPoint where
  rva : UInt32
  code : Bytes
  deriving DecidableEq, Repr

namespace Image

/-- The image that the bytes of a file hold. -/
def ofBytes (path : Path) (data : Bytes) : Outcome Image :=
  inContext (.notAnImage path) do
    let _ ← orFail .malformed (ImageFormat.Headers.read? .wide data)
    pure ⟨path, data⟩

/-- The headers of an image. -/
def headers (i : Image) : Outcome ImageFormat.Headers :=
  orFail .malformed (ImageFormat.Headers.read? .wide i.data)

/-- Where the image's code starts to run, zero when it does not. -/
def entryPoint (i : Image) : Outcome UInt32 := do return (← i.headers).entryPoint

/-- Size of the image in memory. -/
def size (i : Image) : Outcome UInt32 := do return (← i.headers).imageSize

/-- The address that the image expects to be loaded at. -/
def base (i : Image) : Outcome UInt64 := do return (← i.headers).base

/-- Where the bytes at an address lie in the file. They must not cross the end of the headers or
of their section. -/
def fileOffset (i : Image) (rva : UInt32) (len : Nat) : Outcome Nat := do
  let h ← i.headers
  if rva.toNat < h.headersSize then
    let stop ← orFault (Word.addSize? rva.toNat len)
    if h.headersSize < stop then fail (.crossesHeaders rva) else pure rva.toNat
  else
    let (offset, available) ← orFail (.notInFile rva i.path) (h.range? rva)
    if available < len then fail (.crossesSection len rva) else pure offset

/-- Bytes at an address. -/
def read (i : Image) (rva : UInt32) (len : Nat) : Outcome Bytes := do
  let offset ← i.fileOffset rva len
  orFail .readPastEnd (i.data.slice? offset len)

/-- The image with other bytes at an address. -/
def written (i : Image) (rva : UInt32) (bytes : Bytes) : Outcome Image := do
  let offset ← i.fileOffset rva bytes.size
  let data ← orFail .writePastEnd (i.data.overwrite? offset bytes)
  pure { i with data := data }

/-- A field moved by the distance of two bases. -/
def moved (field : Bytes) (isWide : Bool) (delta : UInt64) : Bytes :=
  if isWide then Bytes.ofU64 (UInt64.ofNat (Bytes.number field.toList) + delta)
  else Bytes.ofU32 (UInt32.ofNat (Bytes.number field.toList) + delta.toUInt32)

/-- Moves one field that holds an absolute address. -/
def applyFixup (delta : UInt64) (f : ImageFormat.Fixup) : ImageM Unit := do
  let i ← get
  let len := if f.isWide then 8 else 4
  let offset ← i.fileOffset f.rva len
  let field ← orFault (i.data.slice? offset len)
  set { i with data := i.data.overwrite offset (moved field f.isWide delta) }

/-- Changes the image so that it expects to be loaded at another base. -/
def rebase (base : UInt64) : ImageM Unit := do
  let i ← get
  let h ← i.headers
  if h.base = base then pure ()
  else
    let fixups ← h.fixups i.data
    fixups.forM (applyFixup (base - h.base))
    modify fun j ↦ { j with data := j.data.overwrite h.baseAt (Bytes.ofU64 base) }

/-- Replaces the entry point by code that returns success. An image without one has nothing to
replace. -/
def disableEntryPoint : ImageM (Option SavedEntryPoint) := do
  let i ← get
  let rva ← i.entryPoint
  if rva = 0 then pure none
  else
    let code ← i.read rva X86.successStub.size
    set (← i.written rva X86.successStub)
    pure (some ⟨rva, code⟩)

/-- The image after an edit, or why the edit stopped short. -/
def edited (i : Image) (act : ImageM Unit) : Outcome Image :=
  match act i with
  | (.ok (), j) => .ok j
  | (.error s, _) => .error s

/-- The image in a file. -/
def load (files : FileTree) (path : Path) : Outcome Image := do
  let data ← inContext (.readingImage path) (orFail .system (files.read? path))
  ofBytes path data

/-- Writes an image into a file. -/
def save (i : Image) (path : Path) : FilesM Unit :=
  inContext (.writingImage path) (Files.write path i.data)

end Image
end LivePatch
