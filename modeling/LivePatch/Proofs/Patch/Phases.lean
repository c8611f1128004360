import LivePatch.Proofs.Attached.Dialog
import LivePatch.Proofs.Patch.Activation

/-!
# Phases of an activation

An activation goes through phases, each of which is over in all processes before the next one
begins: all processes are brought to sync points, prepared for the entry point of the patch, called,
completed and let go. Agents are asked for something only to enter, to call and to leave.
-/

namespace LivePatch

namespace Staged

/-- What only depends on what an agent was asked to do, and on what is noted of that. -/
structure OfDialog (inv : Staged → Prop) : Prop where
  process : ∀ {s : Staged} {p : AttachedProcess}, inv s → s.process.IsOnlyInformed p →
    inv { s with process := p }
  undo : ∀ {s : Staged} (u : Undo), inv s → inv { s with undo := u }

/-- What depends on whether a process is held, and on its dialog. -/
theorem ofDialog_of_process {P : Bool → AttachedProcess → Prop}
    (h : ∀ held, AttachedProcess.OfDialog (P held)) :
    OfDialog fun s ↦ P s.isHeld s.process :=
  ⟨fun hs hp ↦ h _ hs hp, fun _ hs ↦ hs⟩

namespace OfDialog

variable {inv : Staged → Prop} {α : Type}

theorem onProcess (h : OfDialog inv) {act : ProcessM α}
    (hact : ∀ p : AttachedProcess, Keeps p.IsOnlyInformed act) :
    Keeps inv (Staged.onProcess act) :=
  Keeps.of_run fun s hs ↦ h.process hs
    ((hact s.process).run (AttachedProcess.isOnlyInformed_of_agent rfl))

theorem onTarget (h : OfDialog inv) (act : TargetM α) : Keeps inv (Staged.onTarget act) :=
  h.onProcess fun p ↦ p.isOnlyInformed_ofDialog.onTarget act

theorem save (h : OfDialog inv) (image : Mapping) (rva : UInt32) (len : Nat) :
    Keeps inv (Staged.save image rva len) :=
  (Keeps.lift _).bind fun _ ↦ (h.onTarget _).bind fun _ ↦ Keeps.modify fun _ hs ↦ h.undo _ hs

theorem noteMark (h : OfDialog inv) (start : UInt64) : Keeps inv (Staged.noteMark start) := by
  refine Keeps.modify fun s hs ↦ ?_
  split
  · exact hs
  · exact h.undo _ hs

theorem redirectFunction (h : OfDialog inv) (registry : Registry) (image : Mapping)
    (ips : List UInt64) (checks : Bool) (r : FunctionRedirection) :
    Keeps inv (PatchSteps.redirectFunction registry image ips checks r) := by
  refine Keeps.get.bind fun s ↦ ?_
  split
  · exact Keeps.pure _
  · refine (Keeps.lift _).bind fun start ↦ (Keeps.lift _).bind fun isUnsafe ↦ ?_
    split
    · exact Keeps.pure _
    · exact (Keeps.lift _).bind fun ranges ↦ (Keeps.forM fun _ _ ↦ h.save _ _ _).bind fun _ ↦
        (h.noteMark start).bind fun _ ↦ (h.onTarget _).bind fun _ ↦
        h.onProcess fun p ↦ p.isOnlyInformed_ofDialog.mark start

theorem redirectFunctions (h : OfDialog inv) (registry : Registry) (patch : PatchRecord)
    (ips : List UInt64) (checks : Bool) :
    Keeps inv (PatchSteps.redirectFunctions registry patch ips checks) := by
  have hlibrary : ∀ image r, Keeps inv (PatchSteps.redirectLibraryFunction registry image r) := by
    intro image r
    refine Keeps.get.bind fun s ↦ ?_
    split
    · exact Keeps.pure _
    · exact h.onTarget _
  refine Keeps.get.bind fun s ↦ ?_
  split
  · exact Keeps.pure _
  · exact (Keeps.forM fun r _ ↦ h.redirectFunction _ _ _ _ r).bind fun _ ↦
      Keeps.forM fun r _ ↦ hlibrary _ r

end OfDialog
end Staged

/-! ### Where processes stand while a patch is activated -/

namespace Host

/-- The patch was loaded, and nothing else was asked of the process. -/
def IsLoaded (h : Host) (s : Staged) : Prop :=
  s.isHeld = false ∧ h.process.Stands (.loaded h.base) s.process

/-- The process is at a sync point, and the entry point was not called yet. -/
def IsEntered (h : Host) (s : Staged) : Prop :=
  s.isHeld = true ∧ h.process.Stands (.held h.base false) s.process

/-- The process is at a sync point, and the entry point was called once or not at all. -/
def IsHeld (h : Host) (s : Staged) : Prop :=
  s.isHeld = true ∧ h.process.IsHeldAt h.base s.process

/-- The process was let go. -/
def IsLeft (h : Host) (s : Staged) : Prop :=
  s.isHeld = false ∧ h.process.Stands (.left h.base) s.process

/-- The process was asked to enter a sync point at most, and it is noted whether it did. -/
def IsUncalled (h : Host) (s : Staged) : Prop :=
  h.IsEntered s ∨ (s.isHeld = false ∧
    (h.process.Stands (.loaded h.base) s.process ∨ h.process.Stands (.refused h.base) s.process))

/-- The process was asked to enter and to leave at most, and it is noted whether it still has to be
asked to leave. -/
def IsRevertible (h : Host) (s : Staged) : Prop :=
  h.IsUncalled s ∨ h.IsHeld s ∨ h.process.Stands (.left h.base) s.process

variable {h : Host} {s : Staged}

theorem IsEntered.isHeld (hs : h.IsEntered s) : h.IsHeld s := ⟨hs.1, _, hs.2⟩

theorem isEntered_ofDialog (h : Host) : Staged.OfDialog h.IsEntered :=
  Staged.ofDialog_of_process (P := fun isHeld p ↦ isHeld = true ∧
    h.process.Stands (.held h.base false) p) fun _ _ _ hs hp ↦
      ⟨hs.1, h.process.stands_ofDialog _ hs.2 hp⟩

theorem isHeld_ofDialog (h : Host) : Staged.OfDialog h.IsHeld :=
  Staged.ofDialog_of_process (P := fun isHeld p ↦ isHeld = true ∧ h.process.IsHeldAt h.base p)
    fun _ _ _ hs hp ↦ ⟨hs.1, h.process.isHeldAt_ofDialog _ hs.2 hp⟩

/-- Work on the process of a host. -/
theorem triple_onProcess {α : Type} {act : ProcessM α} (isHeld : Bool)
    {pre stop : AttachedProcess → Prop} {post : α → AttachedProcess → Prop}
    (hact : Triple pre act post stop) :
    Triple (fun s ↦ s.isHeld = isHeld ∧ pre s.process) (Staged.onProcess act)
      (fun a s ↦ s.isHeld = isHeld ∧ post a s.process)
      fun s ↦ s.isHeld = isHeld ∧ stop s.process := by
  intro s hs
  have hrun := hact s.process hs.2
  rw [Staged.run_onProcess]
  generalize act.run s.process = r at hrun ⊢
  rcases r with ⟨_ | a, p⟩ <;> exact ⟨hs.1, hrun⟩

theorem triple_hold (h : Host) (files : FileTree) :
    Triple h.IsLoaded (Staged.hold files) (fun _ ↦ h.IsEntered) h.IsUncalled :=
  Triple.bind ((triple_onProcess false (AttachedProcess.stands_tell files rfl (.enters h.base)
    fun _ hreply ↦ .refuses h.base hreply)).mono (fun _ hs ↦ hs) (fun _ _ hs ↦ hs)
      fun _ hs ↦ .inr ⟨hs.1, .inr hs.2⟩) fun _ ↦ Triple.modify fun _ hs ↦ ⟨rfl, hs.2⟩

theorem triple_letGo (h : Host) (files : FileTree) :
    Triple h.IsHeld (Staged.letGo files) (fun _ ↦ h.IsLeft) h.IsRevertible := by
  refine Triple.bind (R := fun _ s ↦ h.process.Stands (.left h.base) s.process) ?_ fun _ ↦
    Triple.modify fun _ hs ↦ ⟨rfl, hs⟩
  rintro s ⟨-, called, hs⟩
  exact (triple_onProcess s.isHeld (AttachedProcess.stands_tell_any files rfl
    fun reply ↦ .leaves h.base called reply)).mono (fun _ hs ↦ hs) (fun _ _ hs ↦ hs.2)
      (fun _ hs ↦ .inr (.inr hs.2)) s ⟨rfl, hs⟩

/-- A process in which an activation stopped short is let go, unless it never came to its sync
point. -/
theorem IsRevertible.stands_revert (hs : h.IsRevertible s) (files : FileTree) :
    h.process.Stands (.loaded h.base) (Staged.revert files s) ∨
      h.process.Stands (.refused h.base) (Staged.revert files s) ∨
      h.process.Stands (.left h.base) (Staged.revert files s) := by
  have hputBack : ∀ w, h.process.Stands w s.process → h.process.Stands w
      (if s.undo.code.isEmpty then s.process
        else ((Staged.putBackAll s.undo).run s.process).2) := by
    intro w hw
    split
    · exact hw
    · exact ((h.process.stands_ofDialog w).putBackAll s.undo).run hw
  have hleave : ∀ {w}, (∀ reply, w.Step ⟨.leaveSyncPoint, reply⟩ (.left h.base)) →
      ∀ {p}, h.process.Stands w p → h.process.Stands (.left h.base)
        ((AttachedProcess.tell files .leaveSyncPoint).run p).2 := by
    intro w hstep p hp
    have := AttachedProcess.stands_tell_any files rfl hstep p hp
    generalize (AttachedProcess.tell files .leaveSyncPoint).run p = r at this ⊢
    rcases r with ⟨_ | _, q⟩ <;> exact this
  unfold Staged.revert
  dsimp only
  rcases hs with (⟨hheld, hs⟩ | ⟨hheld, hs | hs⟩) | ⟨hheld, called, hs⟩ | hs
  · rw [if_pos hheld]
    exact .inr (.inr (hleave (.leaves h.base false) (hputBack _ hs)))
  · rw [if_neg (by simp [hheld])]
    exact .inl (hputBack _ hs)
  · rw [if_neg (by simp [hheld])]
    exact .inr (.inl (hputBack _ hs))
  · rw [if_pos hheld]
    exact .inr (.inr (hleave (.leaves h.base called) (hputBack _ hs)))
  · split
    · exact .inr (.inr (hleave (.leavesAgain h.base) (hputBack _ hs)))
    · exact .inr (.inr (hputBack _ hs))

end Host

/-! ### Phases -/

/-- Work on every state ends in one property when it came to an end on all of them, and in another
one when it stopped short on one. -/
theorem Each.triple_forEach_ends {σ τ : Type} {origins : List τ} {I J K : τ → σ → Prop}
    {act : ExceptT Stop (StateM σ) Unit} (h : ∀ o ∈ origins, Triple (I o) act (fun _ ↦ J o) (K o))
    (hIK : ∀ o s, I o s → K o s) (hJK : ∀ o s, J o s → K o s) :
    Triple (List.Forall₂ I origins) (Each.forEach act) (fun _ ↦ List.Forall₂ J origins)
      (List.Forall₂ K origins) := by
  have hends := triple_collect (fun o ho (_ : Nat) ↦ (h o ho).mono (fun _ hs ↦ hs)
    (fun _ s hs ↦ hJK o s hs) fun _ hs ↦ hs) fun o _ s hs ↦ hIK o s hs
  have hanswers := triple_collect_answers (P := fun _ ↦ True) fun o ho (_ : Nat) ↦
    (h o ho).mono (fun _ hs ↦ hs) (fun _ _ hs ↦ ⟨trivial, hs⟩) fun _ _ ↦ trivial
  exact Triple.bind ((hends.and hanswers).mono (fun _ hs ↦ ⟨hs, hs⟩) (fun _ _ hs ↦ hs.2.2)
    fun _ hs ↦ hs.1) fun _ ↦ Triple.pure fun _ hs ↦ hs

namespace Activation

/-- What activation came to when the entry point is about to run. -/
structure BeforeEntry where
  /-- The patch with its edits so far. -/
  patch : PatchRecord
  /-- The redirections that were tried. -/
  records : List ReferenceRedirection
  /-- Which of them failed, process by process. -/
  failures : List (List Bool)

variable (a : Activation) (objects : List (ObjectTable × List String)) (patch : PatchRecord)

/-- Brings all processes to sync points. -/
def holdAll : EachM Staged Unit := Each.forEach (Staged.hold a.files)

/-- What is done in all processes before the entry point may run: hooks are called, references are
redirected that the entry point must find redirected, and the entry point is prepared. -/
def prepareAll : EachM Staged BeforeEntry := do
  let preHooks ← Staged.onFleet (Hooks.call a.files a.view.registry .prePatch (some a.view.token))
  let records ← a.references .preEntry objects
  let failures ← Each.collect fun _ ↦
    Staged.onProcess (PatchSteps.redirectReferences a.view.registry a.view.token records)
  let patch := a.entryEdits { patch with
    preHooks := preHooks, preEntry := workedEverywhere records failures }
  Each.forEach (Staged.onProcess (PatchSteps.prepareEntry a.view.registry patch))
  pure ⟨patch, records, failures⟩

/-- Runs the entry point in all processes. -/
def callAll : EachM Staged Unit :=
  Each.forEach (Staged.onProcess (PatchSteps.callEntryPoint a.files a.view.registry patch))

/-- What is done in all processes after the entry point ran: the other references are redirected,
then the functions, and hooks are called. -/
def completeAll : EachM Staged PatchRecord := do
  let postEntry ← a.redirectEverywhere (← a.references .postEntry objects)
  let patch ← a.redirectFunctions (objects.map Prod.fst) { patch with postEntry := postEntry }
  let postHooks ← Staged.onFleet (Hooks.call a.files a.view.registry .postPatch none)
  pure { patch with postHooks := postHooks }

/-- Lets all processes go. -/
def letGoAll : EachM Staged Unit := Each.forEach (Staged.letGo a.files)

/-- An activation is its phases. -/
theorem run_eq_phases : a.run objects patch = (do
    a.holdAll
    let before ← a.prepareAll objects patch
    a.callAll before.patch
    let patch ← a.completeAll objects before.patch
    a.letGoAll
    pure patch) := by
  simp only [run, redirectEverywhere, holdAll, prepareAll, callAll, completeAll, letGoAll, bind_assoc,
    pure_bind]

section Dialog

variable {τ : Type} {origins : List τ} {I : τ → Staged → Prop} (hI : ∀ o, Staged.OfDialog (I o))

include hI

theorem keeps_hooks_of_dialog (kind : HookKind) (exclude : Option Token) :
    Keeps (List.Forall₂ I origins)
      (Staged.onFleet (Hooks.call a.files a.view.registry kind exclude)) := by
  apply Keeps.of_run
  intro staged hs
  have hcalled := (Hooks.informed_call a.files a.view.registry kind exclude).run
    (Fleet.informed_refl (staged.map Staged.process))
  change List.Forall₂ I origins (staged.zipWith (fun s p ↦ { s with process := p })
    ((Hooks.call a.files a.view.registry kind exclude).run (staged.map Staged.process)).2)
  generalize ((Hooks.call a.files a.view.registry kind exclude).run
    (staged.map Staged.process)).2 = fleet at hcalled ⊢
  induction hs generalizing fleet with
  | nil => exact .nil
  | cons hhead _ ih =>
    cases hcalled with
    | cons hp hrest => exact .cons ((hI _).process hhead hp.isOnlyInformed) (ih _ hrest)

theorem keeps_redirectEverywhere_of_dialog (records : List ReferenceRedirection) :
    Keeps (List.Forall₂ I origins) (a.redirectEverywhere records) :=
  (Each.keeps_collect fun o _ _ ↦ (hI o).onProcess fun p ↦
    p.isOnlyInformed_ofDialog.redirectReferences _ _ records).bind fun _ ↦ Keeps.pure _

theorem keeps_redirectFunctions_of_dialog (tables : List ObjectTable) :
    Keeps (List.Forall₂ I origins) (a.redirectFunctions tables patch) := by
  refine (Staged.keeps_suspendEach (fun o _ ↦ (hI o).onTarget _) fun o _ ↦ (hI o).onTarget _).bind
    fun _ ↦ Keeps.ensuring ?_ (Each.keeps_attempt fun o _ ↦ (hI o).onTarget _)
  refine (Each.keeps_collect fun o _ _ ↦ (hI o).onTarget _).bind fun ips ↦ ?_
  refine (keeps_planFunctions a (fun existing size ips ↦ Each.keeps_collect fun o _ i ↦
    keeps_optionsIn (fun _ _ _ ↦ (hI o).onTarget _) _ _ _ _) tables ips).bind fun plan ↦ ?_
  exact (Each.keeps_collect fun o _ i ↦ (hI o).redirectFunctions _ _ _ _).bind fun _ ↦
    Keeps.pure _

theorem keeps_prepareAll_of_dialog : Keeps (List.Forall₂ I origins) (a.prepareAll objects patch) :=
  (a.keeps_hooks_of_dialog hI _ _).bind fun _ ↦ (Keeps.lift _).bind fun records ↦
    Keeps.bind (Each.keeps_collect fun o _ _ ↦ (hI o).onProcess fun p ↦
      p.isOnlyInformed_ofDialog.redirectReferences _ _ records) fun _ ↦
    Keeps.bind (Each.keeps_forEach fun o _ ↦ (hI o).onProcess fun p ↦
      p.isOnlyInformed_ofDialog.prepareEntry _ _) fun _ ↦ Keeps.pure _

theorem keeps_completeAll_of_dialog :
    Keeps (List.Forall₂ I origins) (a.completeAll objects patch) :=
  (Keeps.lift _).bind fun _ ↦ (a.keeps_redirectEverywhere_of_dialog hI _).bind fun _ ↦
    (a.keeps_redirectFunctions_of_dialog _ hI _).bind fun _ ↦
    (a.keeps_hooks_of_dialog hI _ _).bind fun _ ↦ Keeps.pure _

end Dialog

/-- Bringing all processes to sync points. -/
theorem triple_holdAll (hosts : List Host) :
    Triple (List.Forall₂ Host.IsLoaded hosts) a.holdAll
      (fun _ ↦ List.Forall₂ Host.IsEntered hosts) (List.Forall₂ Host.IsUncalled hosts) :=
  Each.triple_forEach_ends (fun h _ ↦ h.triple_hold _) (fun _ _ hs ↦ .inr ⟨hs.1, .inl hs.2⟩)
    fun _ _ hs ↦ .inl hs

/-- Running the entry point in all processes. -/
theorem triple_callAll (hosts : List Host) :
    Triple (List.Forall₂ Host.IsEntered hosts) (a.callAll patch)
      (fun _ ↦ List.Forall₂ Host.IsHeld hosts) (List.Forall₂ Host.IsHeld hosts) :=
  Each.triple_forEach_ends (fun _ _ ↦
    Host.triple_onProcess true (AttachedProcess.stands_callEntryPoint _ _ patch))
    (fun _ _ hs ↦ hs.isHeld) fun _ _ hs ↦ hs

/-- Letting all processes go. -/
theorem triple_letGoAll (hosts : List Host) :
    Triple (List.Forall₂ Host.IsHeld hosts) a.letGoAll (fun _ ↦ List.Forall₂ Host.IsLeft hosts)
      (List.Forall₂ Host.IsRevertible hosts) :=
  Each.triple_forEach_ends (fun h _ ↦ h.triple_letGo _) (fun _ _ hs ↦ .inr (.inl hs))
    fun _ _ hs ↦ .inr (.inr hs.2)

/-- An activation brings all processes from where the patch was loaded to where they were let go,
or to where they can be brought back from. -/
theorem dialogs_run (hosts : List Host) :
    Triple (List.Forall₂ Host.IsLoaded hosts) (a.run objects patch)
      (fun _ ↦ List.Forall₂ Host.IsLeft hosts) (List.Forall₂ Host.IsRevertible hosts) := by
  have hheld : ∀ {staged}, List.Forall₂ Host.IsHeld hosts staged →
      List.Forall₂ Host.IsRevertible hosts staged := List.Forall₂.imp fun _ _ hs ↦ .inr (.inl hs)
  have huncalled : ∀ {staged}, List.Forall₂ Host.IsUncalled hosts staged →
      List.Forall₂ Host.IsRevertible hosts staged := List.Forall₂.imp fun _ _ hs ↦ .inl hs
  rw [run_eq_phases]
  refine Triple.bind ((a.triple_holdAll hosts).mono (fun _ hs ↦ hs) (fun _ _ hs ↦ hs)
    fun _ ↦ huncalled) fun _ ↦ ?_
  refine Triple.bind ((a.keeps_prepareAll_of_dialog objects patch Host.isEntered_ofDialog).mono
    (fun _ hs ↦ hs) (fun _ _ hs ↦ hs) fun _ hs ↦ huncalled (hs.imp fun _ _ hs ↦ .inl hs))
    fun before ↦ ?_
  refine Triple.bind ((a.triple_callAll before.patch hosts).mono (fun _ hs ↦ hs) (fun _ _ hs ↦ hs)
    fun _ ↦ hheld) fun _ ↦ ?_
  refine Triple.bind ((a.keeps_completeAll_of_dialog objects before.patch Host.isHeld_ofDialog).mono
    (fun _ hs ↦ hs) (fun _ _ hs ↦ hs) fun _ ↦ hheld) fun patch ↦ ?_
  exact Triple.bind (a.triple_letGoAll hosts) fun _ ↦ Triple.pure fun _ hs ↦ hs

end Activation
end LivePatch
