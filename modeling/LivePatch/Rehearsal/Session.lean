import LivePatch.Process.Changes
import LivePatch.Rehearsal.Collaborators
import LivePatch.Session.Replay

/-!
# Rehearsals

A session whose surroundings are played as well: the processes, also those that were detached, the
tools, the tables of images and the clock of the file system. Whatever the engine works with can be
changed between its steps.
-/

namespace LivePatch

/-- A session and its surroundings. -/
structure Rehearsal where
  module : LiveModule
  /-- Processes that were detached. -/
  detached : Fleet
  images : List (String × KnownTables)
  linker : Option LinkerRecord
  tools : ToolScripts
  /-- Seconds that files are stamped with when they are touched. -/
  clock : Int

namespace Rehearsal

/-- Prepares a rehearsal. -/
def start (path : Path) (settings : Settings) (files : FileTree)
    (images : List (String × KnownTables)) (linker : Option LinkerRecord) (tools : ToolScripts)
    (clock : Int) : Outcome Rehearsal := do
  let workshop : Workshop := ⟨files, ObjectCache.empty, tools.toolchain, []⟩
  let module ← LiveModule.load path settings (KnownTables.provider images linker) workshop
  return ⟨module, [], images, linker, tools, clock⟩

/-- The files. -/
def files (r : Rehearsal) : FileTree := r.module.workshop.files

/-- A process that takes part in the session or did once. -/
def process? (r : Rehearsal) (pid : UInt32) : Option AttachedProcess :=
  (r.module.processes ++ r.detached).find? fun p ↦ p.pid == pid

/-- Changes a process. -/
def modify (r : Rehearsal) (pid : UInt32) (f : AttachedProcess → AttachedProcess) : Rehearsal :=
  let change (p : AttachedProcess) := if p.pid == pid then f p else p
  { r with
    module := { r.module with processes := r.module.processes.map change }
    detached := r.detached.map change }

/-- Changes the target of a process. -/
def modifyTarget (r : Rehearsal) (pid : UInt32) (f : Target → Target) : Rehearsal :=
  r.modify pid fun p ↦ { p with target := f p.target }

/-- Replaces the files. -/
def withFiles (r : Rehearsal) (files : FileTree) : Rehearsal :=
  { r with module := { r.module with workshop := { r.module.workshop with files := files } } }

/-- Touches a file, which moves the clock. -/
def touched (r : Rehearsal) (path : Path) (time : Option Int) : Rehearsal :=
  let clock := r.clock + 1
  let r := r.withFiles ((r.files.stamp? path (.stated (time.getD clock))).getD r.files)
  { r with clock := clock }

/-- Gives the tools other scripts. What they did for other files stays. -/
def withTools (r : Rehearsal) (compile : List (String × ToolScript)) (link : Option ToolScript) :
    Rehearsal :=
  let tools : ToolScripts := ⟨compile ++ r.tools.compile, link.getD r.tools.link⟩
  let workshop := { r.module.workshop with toolchain := tools.toolchain }
  { r with tools := tools, module := { r.module with workshop := workshop } }

/-- Makes more tables known. -/
def withImages (r : Rehearsal) (images : List (String × KnownTables)) : Rehearsal :=
  let images := images ++ r.images
  let module := { r.module with provider := KnownTables.provider images r.linker }
  { r with images := images, module := module }

/-- Takes a step of the session. -/
def step {α : Type} (r : Rehearsal) (act : CycleM α) : Outcome α × Rehearsal :=
  let (result, module) := act.run r.module
  (result, { r with module := module })

/-- Attaches a process. One that was detached before with its identifier is gone then. -/
def attach (r : Rehearsal) (p : AttachedProcess) : Outcome Unit × Rehearsal :=
  let isNew := (r.module.process? p.pid).isNone
  let (result, r) := r.step (LiveModule.attach p)
  (result,
    if isNew then { r with detached := r.detached.filter fun q ↦ q.pid != p.pid } else r)

/-- Detaches a process. -/
def detach (r : Rehearsal) (pid : UInt32) : Rehearsal :=
  { r with
    module := r.module.detach pid
    detached := r.detached ++ r.module.processes.filter fun p ↦ p.pid == pid }

/-- Replaces the agent of a process; what was sent to the old one stays known. -/
def withAgent (r : Rehearsal) (pid : UInt32) (agent : Agent) : Rehearsal :=
  r.modify pid fun p ↦ { p with agent := { agent with sent := p.agent.sent } }

end Rehearsal
end LivePatch
