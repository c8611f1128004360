import LivePatch.Agent.Command
import LivePatch.Bytes
import LivePatch.Process.Target

/-!
# Behaviour of agents

An agent serves commands inside its process. How it reacts to a command may depend on the command
and on how many of the kind it got before: it serves it, gives some other answer instead, or its
connection is broken.
-/

namespace LivePatch

/-- How an agent reacts to a command. -/
inductive Reaction where
  | serves
  | answers (reply : Reply)
  | breaks
  deriving DecidableEq, Repr

/-- What could be seen of a process when its entry point was called. -/
structure Sighting where
  /-- The code at the entry point, if it could be read. -/
  code : Option Bytes
  threads : List Thread
  deriving DecidableEq, Repr

/-- A command that was sent, and what was seen when it was the call of an entry point. -/
structure Sent where
  command : Command
  sighting : Option Sighting
  /-- Number of writes into the process that came before the command. -/
  editsBefore : Nat
  deriving DecidableEq, Repr

/-- An agent and what it was sent. -/
structure Agent where
  reacts : Command → Nat → Reaction
  /-- Reports that images cannot be loaded. -/
  refusesLoads : Bool
  /-- Where images are loaded, if not at the base they expect. -/
  loadAt : Option UInt64
  /-- Number of commands so far, by name. -/
  received : List (CommandName × Nat)
  sent : List Sent

namespace Agent

/-- An agent that serves every command. -/
def willing : Agent := ⟨fun _ _ ↦ .serves, false, none, [], []⟩

instance : Inhabited Agent := ⟨willing⟩

/-- Number of commands of a name so far. -/
def count (a : Agent) (name : CommandName) : Nat := (a.received.lookup name).getD 0

/-- Number of bytes that are looked at when an entry point is called. -/
def sightingSize : Nat := 8

/-- What is seen of a process when a command arrives. -/
def sighting? (t : Target) : Command → Option Sighting
  | .callEntryPoint base entry =>
    let code := match t.memory.read (base + entry.toUInt64) sightingSize with
      | .ok bytes => some bytes
      | .error _ => none
    some ⟨code, t.threads⟩
  | _ => none

/-- The agent after one more command to it in a process. -/
def noted (a : Agent) (t : Target) (c : Command) : Agent :=
  { a with
    received := (c.name, a.count c.name + 1) :: a.received.filter fun e ↦ e.1 != c.name
    sent := a.sent ++ [⟨c, sighting? t c, t.edits.length⟩] }

end Agent
end LivePatch
