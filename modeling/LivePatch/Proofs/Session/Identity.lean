import LivePatch.Proofs.Attached.Identity
import LivePatch.Proofs.Patch.Loading
import LivePatch.Session.Replay

/-!
# Identity of the processes of a session

A session keeps its processes and their identifiers through every cycle and every installation of
earlier patches, whatever these come to. Only attaching and detaching changes who takes part.
-/

namespace LivePatch

namespace Staged

variable {pid : UInt32}

/-- The process has an identifier. -/
def Is (pid : UInt32) (s : Staged) : Prop := s.process.pid = pid

theorem is_onProcess {α : Type} {act : ProcessM α} (h : Keeps (AttachedProcess.Is pid) act) :
    Keeps (Is pid) (onProcess act) :=
  Keeps.of_run fun s hs ↦ h.run (s := s.process) hs

theorem is_onTarget {α : Type} {act : TargetM α} (h : Keeps (Target.Is pid) act) :
    Keeps (Is pid) (onTarget act) :=
  is_onProcess (AttachedProcess.is_onTarget h)

theorem is_hold (files : FileTree) : Keeps (Is pid) (hold files) :=
  (is_onProcess (AttachedProcess.is_tell files _)).bind fun _ ↦ Keeps.modify fun _ hs ↦ hs

theorem is_letGo (files : FileTree) : Keeps (Is pid) (letGo files) :=
  (is_onProcess (AttachedProcess.is_tell files _)).bind fun _ ↦ Keeps.modify fun _ hs ↦ hs

theorem is_save (image : Mapping) (rva : UInt32) (len : Nat) :
    Keeps (Is pid) (save image rva len) :=
  (Keeps.lift _).bind fun _ ↦ (is_onTarget (Target.is_ignoresThreads.read image _ _)).bind fun _ ↦
    Keeps.modify fun _ hs ↦ hs

theorem is_noteMark (start : UInt64) : Keeps (Is pid) (noteMark start) :=
  Keeps.modify fun s hs ↦ by
    split
    · exact hs
    · exact hs

theorem is_putBackAll (undo : Undo) : Keeps (AttachedProcess.Is pid) (putBackAll undo) :=
  AttachedProcess.is_suspended ((Keeps.forM fun _ _ ↦ AttachedProcess.is_onTarget
    ((Target.is_allowsWrites.writeMemory _ _).bind fun _ ↦ Target.is_ignoresThreads.flush)).bind fun _ ↦
      Keeps.forM fun _ _ ↦ Keeps.modify fun _ hp ↦ hp)

theorem is_revert (files : FileTree) {s : Staged} (hs : Is pid s) :
    AttachedProcess.Is pid (revert files s) := by
  have hputBack : AttachedProcess.Is pid
      (if s.undo.code.isEmpty then s.process else ((putBackAll s.undo).run s.process).2) := by
    split
    · exact hs
    · exact (is_putBackAll s.undo).run hs
  unfold revert
  dsimp only
  split
  · exact (AttachedProcess.is_tell files _).run hputBack
  · exact hputBack

end Staged

namespace PatchSteps

variable {pid : UInt32}

theorem is_redirectFunction (registry : Registry) (image : Mapping) (ips : List UInt64)
    (checks : Bool) (r : FunctionRedirection) :
    Keeps (Staged.Is pid) (redirectFunction registry image ips checks r) := by
  refine Keeps.get.bind fun s ↦ ?_
  split
  · exact Keeps.pure _
  · refine (Keeps.lift _).bind fun start ↦ (Keeps.lift _).bind fun isUnsafe ↦ ?_
    split
    · exact Keeps.pure _
    · exact (Keeps.lift _).bind fun ranges ↦
        (Keeps.forM fun range _ ↦ Staged.is_save _ _ _).bind fun _ ↦
        (Staged.is_noteMark start).bind fun _ ↦
        (Staged.is_onTarget (r.is_install _ _)).bind fun _ ↦
        Staged.is_onProcess (AttachedProcess.is_mark start)

theorem is_redirectLibraryFunction (registry : Registry) (image : Mapping)
    (r : LibraryRedirection) : Keeps (Staged.Is pid) (redirectLibraryFunction registry image r) := by
  refine Keeps.get.bind fun s ↦ ?_
  split
  · exact Keeps.pure _
  · exact Staged.is_onTarget ((Keeps.lift _).bind fun _ ↦ (Keeps.lift _).bind fun _ ↦
      (Keeps.lift _).bind fun _ ↦ Target.is_allowsWrites.write image _ _)

theorem is_redirectFunctions (registry : Registry) (patch : PatchRecord) (ips : List UInt64)
    (checks : Bool) : Keeps (Staged.Is pid) (redirectFunctions registry patch ips checks) := by
  refine Keeps.get.bind fun s ↦ ?_
  split
  · exact Keeps.pure _
  · exact (Keeps.forM fun r _ ↦ is_redirectFunction _ _ _ _ r).bind fun _ ↦
      Keeps.forM fun r _ ↦ is_redirectLibraryFunction _ _ r

end PatchSteps

/-- The processes have identifiers, in order. -/
abbrev Fleet.Are (pids : List UInt32) : Fleet → Prop := List.Forall₂ AttachedProcess.Is pids

variable {pids : List UInt32}

theorem Fleet.are_iff {fleet : Fleet} :
    Fleet.Are pids fleet ↔ fleet.map AttachedProcess.pid = pids := by
  rw [eq_comm, ← List.forall₂_eq_eq_eq, List.forall₂_map_right_iff]
  constructor
  · exact List.Forall₂.imp fun _ _ h ↦ Eq.symm h
  · exact List.Forall₂.imp fun _ _ h ↦ Eq.symm h

theorem Hooks.are_call (files : FileTree) (registry : Registry) (kind : HookKind)
    (exclude : Option Token) : Keeps (Fleet.Are pids) (Hooks.call files registry kind exclude) :=
  keeps_call_of (fun _ _ r base ↦ HookRecord.is_callIn r files base) registry kind exclude

namespace Staged

/-- The processes in which a patch is being activated have identifiers, in order. -/
abbrev Are (pids : List UInt32) : List Staged → Prop := List.Forall₂ Is pids

theorem are_allSuspended {α : Type} {act : EachM Staged α} (h : Keeps (Are pids) act) :
    Keeps (Are pids) (allSuspended act) :=
  (keeps_suspendEach (fun _ _ ↦ is_onTarget Target.is_ignoresThreads.suspend)
    fun _ _ ↦ is_onTarget Target.is_ignoresThreads.resume).bind fun _ ↦
      h.ensuring (Each.keeps_attempt fun _ _ ↦ is_onTarget Target.is_ignoresThreads.resume)

theorem are_onFleet {α : Type} {act : FleetM α} (h : Keeps (Fleet.Are pids) act) :
    Keeps (Are pids) (onFleet act) :=
  keeps_onFleet_of h

end Staged

namespace Activation

open Staged

variable (a : Activation)

theorem are_redirectEverywhere (records : List ReferenceRedirection) :
    Keeps (Are pids) (a.redirectEverywhere records) :=
  (Each.keeps_collect fun _ _ _ ↦ is_onProcess ((Target.is_allowsPatch _ _).redirectReferences _)).bind
    fun _ ↦ Keeps.pure _

theorem are_redirectFunctions (objects : List ObjectTable) (patch : PatchRecord) :
    Keeps (Are pids) (a.redirectFunctions objects patch) := by
  refine are_allSuspended (Keeps.bind (Each.keeps_collect fun _ _ _ ↦
    is_onTarget Target.is_ignoresThreads.threadIps) fun ips ↦ ?_)
  have hoptions : ∀ existing size (ips : List (List UInt64)), Keeps (Are pids)
      (Each.collect fun i ↦ optionsIn a.view.registry existing size (ips[i]?.getD [])) :=
    fun existing size ips ↦ Each.keeps_collect fun _ _ i ↦ keeps_optionsIn
      (fun image _ _ ↦ is_onTarget (keeps_readSite (Target.is_ignoresThreads.read image) _ _)) _ _ _ _
  refine (keeps_planFunctions a hoptions objects ips).bind fun plan ↦ ?_
  exact Keeps.bind (Each.keeps_collect fun _ _ i ↦ PatchSteps.is_redirectFunctions _ _ _ _)
    fun _ ↦ Keeps.pure _

/-- Activation keeps the identifiers of the processes, wherever it stops. -/
theorem are_run (objects : List (ObjectTable × List String)) (patch : PatchRecord) :
    Keeps (Are pids) (a.run objects patch) := by
  unfold run
  refine Keeps.bind (Each.keeps_forEach fun _ _ ↦ is_hold _) fun _ ↦ ?_
  refine (are_onFleet (Hooks.are_call _ _ _ _)).bind fun preHooks ↦ (Keeps.lift _).bind fun _ ↦ ?_
  refine (are_redirectEverywhere a _).bind fun preEntry ↦ ?_
  dsimp only
  refine Keeps.bind (Each.keeps_forEach fun _ _ ↦
    is_onProcess ((Target.is_allowsPatch _ _).prepareEntry rfl)) fun _ ↦ ?_
  refine Keeps.bind (Each.keeps_forEach fun _ _ ↦
    is_onProcess ((Target.is_allowsEntry _ _).callEntryPoint rfl _)) fun _ ↦ (Keeps.lift _).bind fun _ ↦ ?_
  refine (are_redirectEverywhere a _).bind fun postEntry ↦ ?_
  refine (are_redirectFunctions a _ _).bind fun patch ↦ ?_
  refine (are_onFleet (Hooks.are_call _ _ _ _)).bind fun postHooks ↦ ?_
  exact Keeps.bind (Each.keeps_forEach fun _ _ ↦ is_letGo _) fun _ ↦ Keeps.pure _

end Activation

end LivePatch
