import LivePatch.Process.Target

/-!
# Code caves

A private page in which every thread but one spins at the lowest priority. While threads are parked
there, the thread that serves commands can run code in the process and no other thread sees memory
that is half written. Leaving puts every thread back.
-/

namespace LivePatch

/-- A thread parked in a cave, as it was before. -/
structure ParkedThread where
  id : UInt32
  ip : UInt64
  priority : Int
  deriving DecidableEq, Repr

/-- A page in which threads spin. -/
structure Cave where
  page : UInt64
  parked : List ParkedThread
  deriving DecidableEq, Repr

namespace Cave

/-- A jump to itself. -/
def spin : Bytes := #[0xeb, 0xfe]

/-- The state of a thread before it is parked. -/
def observe (id : UInt32) : TargetM ParkedThread := do
  let ip ← Target.threadIp id
  let priority ← Target.threadPriority id
  pure ⟨id, ip, priority⟩

/-- Moves a thread into a page. -/
def move (page : UInt64) (id : UInt32) : TargetM Unit := do
  Target.setThreadIp id page
  Target.setThreadPriority id Target.lowestPriority

/-- Parks threads one after another, up to the first that cannot be. A thread whose state is known
counts as parked, also when moving it fails. -/
def parkEach (page : UInt64) (parked : List ParkedThread) :
    List UInt32 → StateM Target (List ParkedThread × Outcome Unit)
  | [] => pure (parked, .ok ())
  | id :: rest => do
    match ← (observe id).run with
    | .error s => pure (parked, .error s)
    | .ok thread =>
      match ← (move page id).run with
      | .error s => pure (parked ++ [thread], .error s)
      | .ok () => parkEach page (parked ++ [thread]) rest

/-- Parks every thread but the one that serves commands, while the process is suspended. -/
def parkAll (page : UInt64) (commandThread : Option UInt32) :
    StateM Target (List ParkedThread × Outcome Unit) := do
  match ← Target.suspend.run with
  | .error s => pure ([], .error s)
  | .ok () =>
    let result ← match ← Target.threadIds.run with
      | .error s => pure ([], .error s)
      | .ok ids => parkEach page [] (ids.filter fun id ↦ some id != commandThread)
    let _ ← Target.resume.run
    pure result

/-- Puts one thread back. -/
def release (thread : ParkedThread) : TargetM Unit := do
  inContext (.restoringThread thread.id) (Target.setThreadIp thread.id thread.ip)
  Target.setThreadPriority thread.id thread.priority

/-- Puts the parked threads back, up to the first that cannot be, and frees the page if all
were. -/
def leave (c : Cave) : TargetM Unit := do
  Target.suspended (c.parked.forM release)
  Target.free c.page

/-- Parks the threads in a new page. When that fails midway, the cave is left again. -/
def enter (commandThread : Option UInt32) : TargetM Cave := do
  let page ← Target.allocate spin.size
  Target.writeMemory page spin
  Target.flush
  ExceptT.mk do
    match ← parkAll page commandThread with
    | (parked, .ok ()) => pure (.ok ⟨page, parked⟩)
    | (parked, .error s) =>
      let _ ← (leave ⟨page, parked⟩).run
      pure (.error s)

end Cave
end LivePatch
