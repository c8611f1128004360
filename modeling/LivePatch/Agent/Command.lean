import LivePatch.Paths.Path
import LivePatch.Text.Printable

/-!
# Commands and replies

What the engine asks the agent inside a target process to do, and what the agent answers. Every
command is answered before the next one is sent.
-/

namespace LivePatch

/-- A request to the agent. -/
inductive Command where
  /-- Loads an image; answered with its base. -/
  | loadPatch (path : Path)
  | unloadPatch (base : UInt64)
  /-- Brings every application thread to a halt at a safe point. -/
  | enterSyncPoint
  | leaveSyncPoint
  | callEntryPoint (base : UInt64) (entry : UInt32)
  /-- Calls every hook pointer from `first` up to `last`. -/
  | callHooks (first last : UInt64)
  | logOutput (text : String)
  deriving DecidableEq, Repr

/-- An answer of the agent. -/
inductive Reply where
  | ack
  /-- The base of a loaded patch, none when it could not be loaded. -/
  | patchLoaded (base : Option UInt64)
  deriving DecidableEq, Repr

/-- The names of the commands. -/
inductive CommandName where
  | loadPatch | unloadPatch | enterSyncPoint | leaveSyncPoint | callEntryPoint | callHooks
  | logOutput
  deriving DecidableEq, Repr

namespace CommandName

/-- The written name of a command. -/
def text : CommandName → String
  | .loadPatch => "LoadPatch"
  | .unloadPatch => "UnloadPatch"
  | .enterSyncPoint => "EnterSyncPoint"
  | .leaveSyncPoint => "LeaveSyncPoint"
  | .callEntryPoint => "CallEntryPoint"
  | .callHooks => "CallHooks"
  | .logOutput => "LogOutput"

end CommandName

/-- A value shown as named fields. -/
def showFields (name : String) (fields : List (String × String)) : String :=
  name ++ " \x7b " ++ Text.join ", " (fields.map fun f ↦ f.1 ++ ": " ++ f.2) ++ " \x7d"

namespace Command

/-- The name of a command. -/
def name : Command → CommandName
  | .loadPatch _ => .loadPatch
  | .unloadPatch _ => .unloadPatch
  | .enterSyncPoint => .enterSyncPoint
  | .leaveSyncPoint => .leaveSyncPoint
  | .callEntryPoint _ _ => .callEntryPoint
  | .callHooks _ _ => .callHooks
  | .logOutput _ => .logOutput

/-- A command as messages show it. -/
def describe (c : Command) : String :=
  let name := c.name.text
  match c with
  | .loadPatch path =>
    showFields name [("path", Text.Quoted.encode path.text)]
  | .unloadPatch base => showFields name [("base", Text.decimal base.toNat)]
  | .enterSyncPoint => name
  | .leaveSyncPoint => name
  | .callEntryPoint base entry =>
    showFields name [("base", Text.decimal base.toNat), ("entry_rva", Text.decimal entry.toNat)]
  | .callHooks first last =>
    showFields name [("first", Text.decimal first.toNat), ("last", Text.decimal last.toNat)]
  | .logOutput text => showFields name [("text", Text.Quoted.encode text)]

end Command

namespace Reply

/-- A reply as messages show it. -/
def describe : Reply → String
  | .ack => "Ack"
  | .patchLoaded none => showFields "PatchLoaded" [("base", "None")]
  | .patchLoaded (some base) =>
    showFields "PatchLoaded" [("base", "Some(" ++ Text.decimal base.toNat ++ ")")]

end Reply
end LivePatch
