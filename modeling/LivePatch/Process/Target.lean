import LivePatch.Process.Memory

/-!
# Target processes

A process that is patched: its memory, its threads and how often it is suspended. The engine works
on it through calls, any of which the process may refuse; which ones is up to its gate. A process
remembers the writes that were made, each with the threads and suspensions of that moment, so that
it can be told whether anything could run meanwhile.
-/

namespace LivePatch

/-- A thread, as far as it can be seen from outside. -/
structure Thread where
  id : UInt32
  /-- Where it runs. -/
  ip : UInt64
  priority : Int
  deriving DecidableEq, Repr

/-- Which calls a process refuses: that depends on the call, and on how many calls of its name
came before it. -/
structure Gate where
  refuses : Call → Nat → Bool
  /-- Number of calls so far, by name. -/
  made : List (CallName × Nat)

namespace Gate

/-- A gate that lets every call pass. -/
def unlocked : Gate := ⟨fun _ _ ↦ false, []⟩

instance : Inhabited Gate := ⟨unlocked⟩

/-- Number of calls of a name so far. -/
def count (g : Gate) (name : CallName) : Nat := (g.made.lookup name).getD 0

/-- The gate after one more call of a name. -/
def counted (g : Gate) (name : CallName) : Gate :=
  { g with made := (name, g.count name + 1) :: g.made.filter fun e ↦ e.1 != name }

end Gate

/-- A write into memory, and how the process stood when it was made. -/
structure Edit where
  address : UInt64
  bytes : Bytes
  suspensions : Nat
  threads : List Thread
  deriving DecidableEq, Repr

/-- A target process. -/
structure Target where
  pid : UInt32
  memory : Memory
  /-- Threads in the order of their identifiers. -/
  threads : List Thread
  nextThread : UInt32
  /-- Where the next allocation goes. -/
  nextAllocation : UInt64
  /-- How often the process was suspended and not resumed. -/
  suspensions : Nat
  /-- How often the instruction cache was flushed. -/
  flushes : Nat
  gate : Gate
  /-- Writes so far, the newest first. -/
  edits : List Edit
  /-- No two threads have one identifier. -/
  distinct : (threads.map Thread.id).Nodup

/-- Work on a process, which keeps what it changed before it stopped short. -/
abbrev TargetM := ExceptT Stop (StateM Target)

/-- Runs an action and then a release, whatever the action came to. A failing release goes
unnoticed. -/
def ensuring {σ α : Type} (act : ExceptT Stop (StateM σ) α)
    (release : ExceptT Stop (StateM σ) Unit) : ExceptT Stop (StateM σ) α :=
  ExceptT.mk fun s ↦
    let (result, s) := act.run s
    let (_, s) := release.run s
    (result, s)

namespace Target

/-- Where allocations start. -/
def allocationStart : UInt64 := 0x7ff000000000

/-- Granularity of the placement of images and allocations. -/
def granularity : UInt64 := 0x10000

/-- Lowest priority of a thread. -/
def lowestPriority : Int := -15

/-- A process without memory and threads. -/
def ofPid (pid : UInt32) : Target :=
  ⟨pid, .empty, [], 1, allocationStart, 0, 0, .unlocked, [], .nil⟩

/-- Maps bytes from outside. -/
def map (t : Target) (base : UInt64) (bytes : Bytes) : Target :=
  { t with memory := t.memory.map base bytes }

/-- Starts a thread from outside, in place of the one that had its identifier. -/
def spawn (t : Target) (ip : UInt64) : Target :=
  { t with
    threads := (t.threads.filter fun th ↦ th.id != t.nextThread) ++ [⟨t.nextThread, ip, 0⟩]
    nextThread := t.nextThread + 1
    distinct := by
      rw [List.map_append, List.nodup_append]
      refine ⟨(t.distinct.sublist (List.filter_sublist.map _)), by simp, ?_⟩
      intro a ha b hb
      obtain ⟨th, hth, rfl⟩ := List.mem_map.mp ha
      have hne : th.id ≠ t.nextThread := by simpa using (List.mem_filter.mp hth).2
      rw [List.map_singleton, List.mem_singleton] at hb
      rwa [hb] }

/-- Lets a call through the gate. -/
def pass (c : Call) : TargetM Unit := do
  let t ← get
  let before := t.gate.count c.name
  set { t with gate := t.gate.counted c.name }
  if t.gate.refuses c before then fail (.refused c.name) else pure ()

/-- Suspends every thread. Suspensions nest. -/
def suspend : TargetM Unit := do
  pass ⟨.suspend, none⟩
  modify fun t ↦ { t with suspensions := t.suspensions + 1 }

/-- Takes back one suspension. -/
def resume : TargetM Unit := do
  pass ⟨.resume, none⟩
  let t ← get
  if t.suspensions = 0 then fail (.notSuspended t.pid)
  else set { t with suspensions := t.suspensions - 1 }

/-- Bytes at an address. -/
def readMemory (address : UInt64) (len : Nat) : TargetM Bytes := do
  pass ⟨.readMemory, none⟩
  (← get).memory.read address len

/-- Replaces the bytes at an address. -/
def writeMemory (address : UInt64) (bytes : Bytes) : TargetM Unit := do
  pass ⟨.writeMemory, none⟩
  let t ← get
  let memory ← t.memory.write address bytes
  set { t with memory := memory, edits := ⟨address, bytes, t.suspensions, t.threads⟩ :: t.edits }

/-- Makes the processor read code anew. -/
def flush : TargetM Unit := do
  pass ⟨.flushInstructionCache, none⟩
  modify fun t ↦ { t with flushes := t.flushes + 1 }

/-- Identifiers of the threads. -/
def threadIds : TargetM (List UInt32) := do
  pass ⟨.threads, none⟩
  return (← get).threads.map Thread.id

/-- The thread of an identifier. -/
def thread (id : UInt32) : TargetM Thread := do
  let t ← get
  orFail (.noThread id t.pid) (t.threads.find? fun th ↦ th.id == id)

/-- A change of the thread of an identifier, which keeps the identifier. -/
def withThread (t : Target) (id : UInt32) (f : Thread → Thread) : Target :=
  { t with
    threads := t.threads.map fun th ↦ if th.id = id then { f th with id := th.id } else th
    distinct := by
      rw [List.map_map]
      refine (List.map_congr_left (l := t.threads) fun th _ ↦ ?_) ▸ t.distinct
      rw [Function.comp_apply]
      split <;> rfl }

/-- Changes the thread of an identifier. -/
def setThread (id : UInt32) (f : Thread → Thread) : TargetM Unit := do
  let _ ← thread id
  modify fun t ↦ t.withThread id f

/-- Where a thread runs. -/
def threadIp (id : UInt32) : TargetM UInt64 := do
  pass ⟨.threadContext, some id⟩
  return (← thread id).ip

/-- Makes a thread run elsewhere. -/
def setThreadIp (id : UInt32) (ip : UInt64) : TargetM Unit := do
  pass ⟨.setThreadContext, some id⟩
  setThread id fun th ↦ { th with ip := ip }

/-- The priority of a thread. -/
def threadPriority (id : UInt32) : TargetM Int := do
  pass ⟨.threadPriority, some id⟩
  return (← thread id).priority

/-- Gives a thread another priority. -/
def setThreadPriority (id : UInt32) (priority : Int) : TargetM Unit := do
  pass ⟨.setThreadPriority, some id⟩
  setThread id fun th ↦ { th with priority := priority }

/-- Allocates memory that can be run. -/
def allocate (size : Nat) : TargetM UInt64 := do
  pass ⟨.allocate, none⟩
  let t ← get
  let rounded ← orFault (Word.alignUp? (UInt64.ofNat (max size 1)) granularity)
  let next ← orFault (Word.add64? t.nextAllocation rounded)
  set { t.map t.nextAllocation (Bytes.fill size 0) with nextAllocation := next }
  pure t.nextAllocation

/-- Frees the allocation at an address. -/
def free (address : UInt64) : TargetM Unit := do
  pass ⟨.free, none⟩
  let t ← get
  if t.memory.isMapped address then set { t with memory := t.memory.unmap address }
  else fail (.notAllocated address)

/-- Whether nothing reaches into a range. -/
def isRangeFree (address size : UInt64) : TargetM Bool := do
  pass ⟨.isRangeFree, none⟩
  (← get).memory.isRangeFree address size

/-- Does something while the process is suspended. -/
def suspended {α : Type} (act : TargetM α) : TargetM α := do
  suspend
  ensuring act resume

/-- Where the threads run. -/
def threadIps : TargetM (List UInt64) := do
  (← threadIds).mapM threadIp

end Target
end LivePatch
