import LivePatch.Attached.Process

/-!
# Work on several processes

The processes of a session are worked on one after another, in their order. Work on one of them
that stops short stops the whole, and what was done before stays done.
-/

namespace LivePatch

/-- Work on a list of states. -/
abbrev EachM (σ : Type) := ExceptT Stop (StateM (List σ))

namespace Each

variable {σ τ α : Type}

/-- Runs work on every state, with the state's position counted from `i`. -/
def runAll (act : Nat → ExceptT Stop (StateM σ) α) : Nat → List σ → Outcome (List α) × List σ
  | _, [] => (.ok [], [])
  | i, s :: rest =>
    match (act i).run s with
    | (.error stop, s) => (.error stop, s :: rest)
    | (.ok a, s) =>
      match runAll act (i + 1) rest with
      | (.error stop, rest) => (.error stop, s :: rest)
      | (.ok as, rest) => (.ok (a :: as), s :: rest)

/-- Runs work on every state and collects what it comes to. -/
def collect (act : Nat → ExceptT Stop (StateM σ) α) : EachM σ (List α) :=
  ExceptT.mk fun states ↦ runAll act 0 states

/-- Runs work on every state. -/
def forEach (act : ExceptT Stop (StateM σ) Unit) : EachM σ Unit := do
  let _ ← collect fun _ ↦ act

/-- Runs work on every state, also after it stopped short on one of them. -/
def attempt (act : ExceptT Stop (StateM σ) Unit) : EachM σ Unit :=
  ExceptT.mk fun states ↦ (.ok (), states.map fun s ↦ (act.run s).2)

/-- Runs work on the first state of a kind, if there is one. -/
def onFirst (p : σ → Bool) (act : ExceptT Stop (StateM σ) Unit) : EachM σ Unit :=
  ExceptT.mk fun states ↦
    match states.dropWhile fun s ↦ !p s with
    | [] => (.ok (), states)
    | s :: rest =>
      let (result, s) := act.run s
      (result, states.takeWhile (fun s ↦ !p s) ++ s :: rest)

end Each

/-- The processes of a session, in the order in which they were attached. -/
abbrev Fleet := List AttachedProcess

/-- Work on the processes of a session. -/
abbrev FleetM := EachM AttachedProcess

end LivePatch
