import LivePatch.Agent.Behavior
import LivePatch.Images.Image
import LivePatch.Process.Mapping
import LivePatch.Text.Utf8

/-!
# Attached processes

A process together with the agent inside it, where the module lies in it and which of its functions
carry a redirection already. Commands are sent one at a time, and each is answered before the next.
-/

namespace LivePatch

/-- A process that takes part in a session. -/
structure AttachedProcess where
  target : Target
  agent : Agent
  /-- The thread that serves commands. -/
  commandThread : Option UInt32
  /-- Where the module lies in this process. -/
  moduleBase : UInt64
  /-- Starts of functions that carry a jump into a patch. -/
  redirected : List UInt64

/-- Work on an attached process, which keeps what it changed before it stopped short. -/
abbrev ProcessM := ExceptT Stop (StateM AttachedProcess)

namespace AttachedProcess

/-- Identifier of the process. -/
def pid (p : AttachedProcess) : UInt32 := p.target.pid

/-- Works on the process itself. -/
def onTarget {α : Type} (act : TargetM α) : ProcessM α :=
  ExceptT.mk fun p ↦
    let (result, t) := act.run p.target
    (result, { p with target := t })

/-- Does something while the process is suspended. -/
def suspended {α : Type} (act : ProcessM α) : ProcessM α := do
  onTarget Target.suspend
  ensuring act (onTarget Target.resume)

/-- What the agent does for a command that it serves. -/
def serve (files : FileTree) : Command → ProcessM Reply
  | .loadPatch path => do
    let p ← get
    if p.agent.refusesLoads then pure (.patchLoaded none)
    else
      let image ← Image.load files path
      let base ← match p.agent.loadAt with
        | some base => pure base
        | none => image.base
      set { p with target := p.target.map base image.data }
      pure (.patchLoaded (some base))
  | .unloadPatch base => do
    modify fun p ↦
      { p with target := { p.target with memory := p.target.memory.unmap base } }
    pure .ack
  | _ => pure .ack

/-- Sends a command and waits for the reply. -/
def exchange (files : FileTree) (c : Command) : ProcessM Reply := do
  let p ← get
  set { p with agent := p.agent.noted p.target c }
  match p.agent.reacts c (p.agent.count c.name) with
  | .breaks => fail .brokenPipe
  | .answers reply => pure reply
  | .serves => serve files c

/-- Sends a command that is to be acknowledged. -/
def tell (files : FileTree) (c : Command) : ProcessM Unit := do
  match ← exchange files c with
  | .ack => pure ()
  | reply => fail (.unexpectedReply reply c)

/-- Asks for a patch to be loaded. Answers its base, none when it could not be loaded. -/
def loadPatch (files : FileTree) (path : Path) : ProcessM (Option UInt64) := do
  match ← exchange files (.loadPatch path) with
  | .patchLoaded base => pure base
  | reply => fail (.unexpectedLoadReply reply)

/-- Whether a function start carries a jump into a patch. -/
def isRedirected (p : AttachedProcess) (start : UInt64) : Bool := p.redirected.contains start

/-- Marks a function start as carrying a jump. -/
def mark (start : UInt64) : ProcessM Unit :=
  modify fun p ↦ if p.isRedirected start then p else { p with redirected := start :: p.redirected }

/-- Takes the mark of a function start back. -/
def unmark (start : UInt64) : ProcessM Unit :=
  modify fun p ↦ { p with redirected := p.redirected.filter (· != start) }

end AttachedProcess

/-! ### Forwarded output

What a tool printed is sent to the agent in pieces that are not too long for one command. Pieces
end between characters. -/

namespace Output

/-- Largest size of a piece. -/
def pieceSize : Nat := 4096

/-- Number of octets that a character takes. -/
def width (c : Char) : Nat := c.utf8Size

/-- The longest beginning of a text that fits, behind what was taken before, and the rest. -/
def splitFitting (room : Nat) : List Char → List Char × List Char
  | [] => ([], [])
  | c :: rest =>
    if width c ≤ room then
      let (first, last) := splitFitting (room - width c) rest
      (c :: first, last)
    else ([], c :: rest)

/-- The rest behind a beginning is no longer than the text. -/
theorem length_splitFitting (room : Nat) (text : List Char) :
    (splitFitting room text).2.length ≤ text.length := by
  induction text generalizing room with
  | nil => simp [splitFitting]
  | cons c rest ih =>
    unfold splitFitting
    split
    · exact Nat.le_succ_of_le (ih _)
    · exact Nat.le_refl _

/-- The pieces of a text. The first character of a piece always fits. -/
def pieces : List Char → List (List Char)
  | [] => []
  | c :: rest =>
    let split := splitFitting (pieceSize - width c) rest
    (c :: split.1) :: pieces split.2
termination_by text => text.length
decreasing_by
  have := length_splitFitting (pieceSize - width c) rest
  simp only [List.length_cons]
  omega

/-- Sends a text to the agent, piece after piece, up to the first that is not acknowledged. -/
def forward (files : FileTree) (text : String) : ProcessM Unit :=
  (pieces text.toList).forM fun piece ↦
    AttachedProcess.tell files (.logOutput (String.ofList piece))

end Output

end LivePatch
