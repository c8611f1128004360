import LivePatch.Attached.Fleet
import LivePatch.Registry.Basic

/-!
# Hooks

Programs ask to be told of what happens to them by placing pointers to functions into certain
sections of their image. The newest image with a non-empty section of the kind counts.
-/

namespace LivePatch

/-- What a program can be told of. -/
inductive HookKind where
  | prePatch
  | postPatch
  | compileStart
  | compileSuccess
  | compileError
  deriving DecidableEq, Repr

namespace HookKind

/-- Name of the section that holds the hooks of a kind. -/
def sectionName : HookKind → String
  | .prePatch => ".hl_pre"
  | .postPatch => ".hl_post"
  | .compileStart => ".hl_cst"
  | .compileSuccess => ".hl_csu"
  | .compileError => ".hl_cer"

/-- All kinds. -/
def all : List HookKind := [.prePatch, .postPatch, .compileStart, .compileSuccess, .compileError]

/-- Name of a kind. -/
def text : HookKind → String
  | .prePatch => "PrePatch"
  | .postPatch => "PostPatch"
  | .compileStart => "CompileStart"
  | .compileSuccess => "CompileSuccess"
  | .compileError => "CompileError"

/-- The kind of a name. -/
def ofText? (text : String) : Option HookKind := all.find? fun k ↦ k.text == text

end HookKind

/-- The hooks that were called, in addresses relative to their image. -/
structure HookRecord where
  image : Token
  first : UInt32
  last : UInt32
  deriving DecidableEq, Repr

namespace HookRecord

/-- Calls the hooks in a process that has their image at a base. -/
def callIn (r : HookRecord) (files : FileTree) (base : UInt64) : ProcessM Unit := do
  let first ← orFault (Word.add64? base r.first.toUInt64)
  let last ← orFault (Word.add64? base r.last.toUInt64)
  AttachedProcess.tell files (.callHooks first last)

/-- Calls the hooks in a process, if their image is mapped there. -/
def replay (r : HookRecord) (files : FileTree) (bases : List (Option UInt64)) : ProcessM Unit :=
  match Registry.baseOf? bases r.image with
  | some base => r.callIn files base
  | none => pure ()

end HookRecord

namespace Hooks

/-- Calls the newest hooks of a kind outside an excluded image, in every process that has their
image. -/
def call (files : FileTree) (registry : Registry) (kind : HookKind) (exclude : Option Token) :
    FleetM (Option HookRecord) := do
  match ← registry.findHooks exclude kind.sectionName with
  | none => pure none
  | some found =>
    let record : HookRecord := ⟨found.token, found.first, found.last⟩
    found.processes.forM fun placed ↦
      Each.onFirst (fun p ↦ p.pid == placed.pid) (record.callIn files placed.base)
    pure (some record)

end Hooks
end LivePatch
