import LivePatch.Proofs.Attached.Preserving
import LivePatch.Proofs.Patch.Activation
import LivePatch.Proofs.Patch.Loading
import LivePatch.Proofs.Process.Stillness

/-!
# Still processes while a patch is activated

Everything that a session does to a process edits it only while nothing else runs there, and leaves
it as it was found: loading a patch, activating it, taking it back, and making its edits again in a
process that was attached later. Steps that edit suspend the process themselves or work in a cave,
apart from redirecting functions, which all processes are suspended for at once.
-/

namespace LivePatch

namespace Target

variable {inv : Target → Prop}

namespace AllowsWrites

variable (h : AllowsWrites inv)

include h

theorem apply (r : ReferenceRedirection) (patch : Mapping) (bases : List (Option UInt64)) :
    Keeps inv (r.apply patch bases) := by
  unfold ReferenceRedirection.apply
  split
  · exact Keeps.get.bind fun _ ↦ Keeps.fail _
  · exact (Keeps.lift _).bind fun _ ↦ (Keeps.lift _).bind fun _ ↦ (h.read _ _ _).bind fun _ ↦
      (Keeps.lift _).bind fun _ ↦ h.write _ _ _

theorem redirectReference (patch : Mapping) (bases : List (Option UInt64))
    (r : ReferenceRedirection) : Keeps inv (PatchSteps.redirectReference patch bases r) := by
  apply Keeps.of_run
  intro t ht
  rw [PatchSteps.run_redirectReference]
  exact (h.apply r patch bases).run ht

theorem installFunction (r : FunctionRedirection) (existing patch : Mapping) :
    Keeps inv (r.install existing patch) := by
  unfold FunctionRedirection.install
  refine (Keeps.lift _).bind fun target ↦ ?_
  refine Keeps.bind (Keeps.forM fun thunk _ ↦ (Keeps.lift _).bind fun source ↦
    (Keeps.lift _).bind fun jump ↦ h.write _ _ _) fun _ ↦ (Keeps.lift _).bind fun start ↦ ?_
  split
  · exact (Keeps.lift _).bind fun code ↦ h.write _ _ _
  · exact (Keeps.lift _).bind fun padding ↦ (Keeps.lift _).bind fun source ↦
      (Keeps.lift _).bind fun jump ↦ (h.write _ _ _).bind fun _ ↦ h.write _ _ _

theorem installLibrary (r : LibraryRedirection) (existing patch : Mapping) :
    Keeps inv (r.install existing patch) :=
  (Keeps.lift _).bind fun _ ↦ (Keeps.lift _).bind fun _ ↦ (Keeps.lift _).bind fun _ ↦ h.write _ _ _

end AllowsWrites
end Target

/-! ### Single processes -/

namespace AttachedProcess

variable {p : AttachedProcess} {held : Nat} {α : Type}

/-- Work is under way in a process that began when it was `p`, and it is held by so many suspensions
more. -/
def UnderWay (p : AttachedProcess) (held : Nat) (q : AttachedProcess) : Prop :=
  q.commandThread = p.commandThread ∧
    p.target.UnderWay p.commandThread [] held p.target.threads q.target

theorem UnderWay.refl (p : AttachedProcess) : p.UnderWay 0 p := ⟨rfl, .refl ..⟩

/-- What is seen of the target and of the thread that serves commands. -/
theorem triple_onTarget_of {act : TargetM α} {command : Option UInt32} {pre stop : Target → Prop}
    {post : α → Target → Prop} (h : Triple pre act post stop) :
    Triple (fun q ↦ q.commandThread = command ∧ pre q.target) (onTarget act)
      (fun a q ↦ q.commandThread = command ∧ post a q.target)
      fun q ↦ q.commandThread = command ∧ stop q.target := by
  intro q hq
  have hrun := h q.target hq.2
  rw [show (onTarget act).run q
    = ((act.run q.target).1, { q with target := (act.run q.target).2 }) from rfl]
  generalize act.run q.target = r at hrun ⊢
  rcases r with ⟨_ | a, t⟩ <;> exact ⟨hq.1, hrun⟩

theorem underWay_suspended (hp : p.target.gate.LetsGo) {act : TargetM α}
    (h : Keeps (p.target.UnderWay p.commandThread [] (held + 1) p.target.threads) act) :
    Keeps (p.UnderWay held) (onTarget (Target.suspended act)) :=
  triple_onTarget_of (Target.underWay_suspended hp h)

/-- Commands other than those that load and unload show neither in the target nor in which thread
serves them. -/
theorem tell_of_isQuiet (files : FileTree) {c : Command} (hc : isQuiet c = true)
    {inv : Target → Prop} {command : Option UInt32} :
    Keeps (fun q ↦ q.commandThread = command ∧ inv q.target) (tell files c) := by
  apply Keeps.of_run
  intro q hq
  rw [run_tell_of_isQuiet files hc]
  exact hq

/-- Whatever an agent does with the memory of its process, it is no edit. -/
theorem underWay_exchange (files : FileTree) (c : Command) :
    Keeps (p.UnderWay held) (exchange files c) := by
  have hserve : Keeps (p.UnderWay held) (serve files c) := by
    cases c with
    | loadPatch path =>
      refine Triple.bind_get fun q hq ↦ ?_
      have hstop : ∀ s, s = q → p.UnderWay held s := fun _ h ↦ h ▸ hq
      have hmap : ∀ base data, Triple (· = q) (do
          set ({ q with target := q.target.map base data } : AttachedProcess)
          pure (.patchLoaded (some base)) : ProcessM Reply)
          (fun _ ↦ p.UnderWay held) (p.UnderWay held) := fun base data ↦
        Triple.bind (R := fun _ ↦ p.UnderWay held)
          (Triple.set fun _ _ ↦ ⟨hq.1, hq.2.withMemory _⟩) fun _ ↦ Keeps.pure _
      split
      · exact Triple.pure hstop
      · refine Triple.bind_lift (fun image _ ↦ ?_) hstop
        cases q.agent.loadAt with
        | some base => exact hmap base _
        | none => exact Triple.bind_lift (fun base _ ↦ hmap base _) hstop
    | unloadPatch base => exact Keeps.of_run fun q hq ↦ ⟨hq.1, hq.2.withMemory _⟩
    | _ => exact Keeps.pure _
  refine Triple.bind_get fun q hq ↦ Triple.bind (R := fun _ ↦ p.UnderWay held)
    (Triple.set fun _ _ ↦ hq) fun _ ↦ ?_
  split
  · exact Keeps.fail _
  · exact Keeps.pure _
  · exact hserve

theorem underWay_tell (files : FileTree) (c : Command) :
    Keeps (p.UnderWay held) (tell files c) := by
  refine (underWay_exchange files c).bind fun reply ↦ ?_
  cases reply with
  | ack => exact Keeps.pure _
  | patchLoaded base => exact Keeps.fail _

theorem underWay_loadPatch (files : FileTree) (path : Path) :
    Keeps (p.UnderWay held) (loadPatch files path) := by
  refine (underWay_exchange files _).bind fun reply ↦ ?_
  cases reply with
  | ack => exact Keeps.fail _
  | patchLoaded base => exact Keeps.pure _

end AttachedProcess

variable {p : AttachedProcess} {held : Nat}

open AttachedProcess (triple_onTarget_of)

/-- The real entry point is put back and covered again while every other thread is parked. -/
theorem SavedEntryPoint.underWay_callOnce (hp : p.target.gate.LetsGo) (saved : SavedEntryPoint)
    (files : FileTree) (image : Mapping) :
    Keeps (p.UnderWay held) (saved.callOnce files image) := by
  refine Triple.bind_get fun q hq ↦ ?_
  rw [hq.1]
  refine Triple.bind (fun s h ↦ triple_onTarget_of (Cave.underWay_enter hp) s (h ▸ hq))
    fun cave ↦ Triple.of_pre ?_
  rintro q ⟨hcommand, hparks, hparked⟩
  have hwrites : Target.AllowsWrites (Cave.Parks p.target p.commandThread [cave.page] held
      cave.page cave.parked) := Cave.parks_allowsWrites (List.mem_singleton.mpr rfl) hparked
  have hcall : Keeps (fun q ↦ q.commandThread = p.commandThread ∧ Cave.Parks p.target
      p.commandThread [cave.page] held cave.page cave.parked q.target)
      (saved.callUncovered files image) :=
    Keeps.bind (triple_onTarget_of (hwrites.write _ _ _)) fun _ ↦
      (AttachedProcess.tell_of_isQuiet files rfl).tried.bind fun _ ↦
      Keeps.bind (triple_onTarget_of (hwrites.write _ _ _)) fun _ ↦ Keeps.lift _
  have hleave : ∀ q : AttachedProcess, (q.commandThread = p.commandThread ∧ Cave.Parks p.target
      p.commandThread [cave.page] held cave.page cave.parked q.target) →
      p.UnderWay held ((AttachedProcess.onTarget cave.leave).run q).2 := fun q h ↦
    ⟨h.1, (Cave.underWay_leave hp h.2).tail⟩
  exact Triple.ensuring (fun s h ↦ hcall s (h ▸ ⟨hcommand, hparks⟩)) (fun _ ↦ hleave) hleave

namespace PatchSteps

theorem underWay_redirectReferences (hp : p.target.gate.LetsGo) (registry : Registry)
    (token : Token) (records : List ReferenceRedirection) :
    Keeps (p.UnderWay held) (redirectReferences registry token records) := by
  refine Keeps.get.bind fun q ↦ ?_
  dsimp only
  split
  · exact Keeps.pure _
  · exact AttachedProcess.underWay_suspended hp (Keeps.mapM fun r _ ↦
      Target.underWay_allowsWrites.redirectReference _ _ r)

theorem underWay_prepareEntry (hp : p.target.gate.LetsGo) (registry : Registry)
    (patch : PatchRecord) : Keeps (p.UnderWay held) (prepareEntry registry patch) := by
  refine Keeps.get.bind fun q ↦ ?_
  dsimp only
  split
  · exact Keeps.pure _
  · next image _ =>
    have hwrites : Target.AllowsWrites (p.target.UnderWay p.commandThread [] (held + 1)
      p.target.threads) := Target.underWay_allowsWrites
    refine AttachedProcess.underWay_suspended hp
      ((Keeps.forM fun slot _ ↦ hwrites.write _ _ _).bind fun _ ↦ ?_)
    split
    · refine Keeps.bind ((hwrites.readWord _ _).bind fun _ ↦ hwrites.write _ _ _) fun _ ↦ ?_
      split
      · exact hwrites.write _ _ _
      · exact Keeps.pure _
    · split
      · exact hwrites.write _ _ _
      · exact Keeps.pure _

theorem underWay_callEntryPoint (hp : p.target.gate.LetsGo) (files : FileTree)
    (registry : Registry) (patch : PatchRecord) :
    Keeps (p.UnderWay held) (callEntryPoint files registry patch) := by
  refine Keeps.get.bind fun q ↦ ?_
  split
  · exact SavedEntryPoint.underWay_callOnce hp _ _ _
  · exact Keeps.pure _

end PatchSteps

namespace Staged

/-- Work is under way in a process in which a patch is being activated. -/
def UnderWay (p : AttachedProcess) (held : Nat) (s : Staged) : Prop := p.UnderWay held s.process

theorem underWay_onProcess {α : Type} {act : ProcessM α} {held' : Nat}
    (h : Triple (p.UnderWay held) act (fun _ ↦ p.UnderWay held') (p.UnderWay held')) :
    Triple (UnderWay p held) (onProcess act) (fun _ ↦ UnderWay p held') (UnderWay p held') :=
  triple_onProcess h

theorem underWay_onTarget {α : Type} {act : TargetM α}
    (h : Keeps (p.target.UnderWay p.commandThread [] held p.target.threads) act) :
    Keeps (UnderWay p held) (onTarget act) :=
  underWay_onProcess (triple_onTarget_of h)

theorem underWay_suspend (hp : p.target.gate.LetsGo) {s : Staged} (hs : UnderWay p held s) :
    UnderWay p (held + 1) ((onTarget Target.suspend).run s).2 ∧
      ((onTarget Target.suspend).run s).1 = .ok () := by
  have hrun := Target.underWay_suspend hp s.process.target hs.2
  change UnderWay p (held + 1) { s with process := { s.process with
    target := (Target.suspend.run s.process.target).2 } } ∧
    (Target.suspend.run s.process.target).1 = .ok ()
  generalize Target.suspend.run s.process.target = r at hrun ⊢
  rcases r with ⟨_ | _, t⟩
  · exact hrun.elim
  · exact ⟨⟨hs.1, hrun⟩, rfl⟩

theorem underWay_resume (hp : p.target.gate.LetsGo) {s : Staged} (hs : UnderWay p (held + 1) s) :
    UnderWay p held ((onTarget Target.resume).run s).2 :=
  ⟨hs.1, (Target.underWay_resume hp).run_of_ok hs.2⟩

theorem underWay_hold (files : FileTree) : Keeps (UnderWay p held) (hold files) :=
  (underWay_onProcess (AttachedProcess.underWay_tell files _)).bind fun _ ↦
    Keeps.modify fun _ hs ↦ hs

theorem underWay_letGo (files : FileTree) : Keeps (UnderWay p held) (letGo files) :=
  (underWay_onProcess (AttachedProcess.underWay_tell files _)).bind fun _ ↦
    Keeps.modify fun _ hs ↦ hs

theorem underWay_redirectFunction (registry : Registry) (image : Mapping) (ips : List UInt64)
    (checks : Bool) (r : FunctionRedirection) :
    Keeps (UnderWay p (held + 1)) (PatchSteps.redirectFunction registry image ips checks r) := by
  have hsave : ∀ existing rva len, Keeps (UnderWay p (held + 1)) (save existing rva len) :=
    fun existing rva len ↦ (Keeps.lift _).bind fun _ ↦
      (underWay_onTarget (Target.underWay_ignoresCalls.read _ _ _)).bind fun _ ↦
      Keeps.modify fun _ hs ↦ hs
  have hnoteMark : ∀ start, Keeps (UnderWay p (held + 1)) (noteMark start) := by
    refine fun start ↦ Keeps.modify fun s hs ↦ ?_
    split <;> exact hs
  have hmark : ∀ start, Keeps (p.UnderWay (held + 1)) (AttachedProcess.mark start) := by
    refine fun start ↦ Keeps.modify fun q hq ↦ ?_
    split <;> exact hq
  refine Keeps.get.bind fun s ↦ ?_
  split
  · exact Keeps.pure _
  · refine (Keeps.lift _).bind fun start ↦ (Keeps.lift _).bind fun isUnsafe ↦ ?_
    split
    · exact Keeps.pure _
    · exact (Keeps.lift _).bind fun ranges ↦ (Keeps.forM fun range _ ↦ hsave _ _ _).bind fun _ ↦
        (hnoteMark start).bind fun _ ↦
        (underWay_onTarget (Target.underWay_allowsWrites.installFunction r _ _)).bind fun _ ↦
        underWay_onProcess (hmark start)

theorem underWay_redirectFunctions (registry : Registry) (patch : PatchRecord) (ips : List UInt64)
    (checks : Bool) :
    Keeps (UnderWay p (held + 1)) (PatchSteps.redirectFunctions registry patch ips checks) := by
  have hlibrary : ∀ image r, Keeps (UnderWay p (held + 1))
      (PatchSteps.redirectLibraryFunction registry image r) := by
    intro image r
    refine Keeps.get.bind fun s ↦ ?_
    split
    · exact Keeps.pure _
    · exact underWay_onTarget (Target.underWay_allowsWrites.installLibrary r _ _)
  refine Keeps.get.bind fun s ↦ ?_
  split
  · exact Keeps.pure _
  · exact (Keeps.forM fun r _ ↦ underWay_redirectFunction _ _ _ _ r).bind fun _ ↦
      Keeps.forM fun r _ ↦ hlibrary _ r

/-- Code is put back while the process is suspended. -/
theorem underWay_putBackAll (hp : p.target.gate.LetsGo) (undo : Undo) :
    Keeps (p.UnderWay held) (putBackAll undo) := by
  have hputBack : Keeps (p.UnderWay (held + 1)) (do
      undo.code.forM fun saved ↦ AttachedProcess.onTarget (putBack saved)
      undo.marked.forM AttachedProcess.unmark) :=
    (Keeps.forM fun saved _ ↦ triple_onTarget_of
      ((Target.underWay_allowsWrites.writeMemory _ _).bind fun _ ↦
        Target.underWay_ignoresCalls.flush)).bind fun _ ↦
      Keeps.forM fun _ _ ↦ Keeps.modify fun _ hq ↦ hq
  have hresume : ∀ q, p.UnderWay (held + 1) q →
      p.UnderWay held ((AttachedProcess.onTarget Target.resume).run q).2 := fun q hq ↦
    ⟨hq.1, (Target.underWay_resume hp).run_of_ok hq.2⟩
  exact Triple.bind ((triple_onTarget_of (Target.underWay_suspend hp)).mono (fun _ h ↦ h)
    (fun _ _ h ↦ h) fun _ h ↦ h.2.elim) fun _ ↦
    Triple.ensuring hputBack (fun _ ↦ hresume) hresume

theorem underWay_revert (hp : p.target.gate.LetsGo) (files : FileTree) {s : Staged}
    (hs : UnderWay p held s) : p.UnderWay held (revert files s) := by
  have hputBack : p.UnderWay held
      (if s.undo.code.isEmpty then s.process else ((putBackAll s.undo).run s.process).2) := by
    split
    · exact hs
    · exact (underWay_putBackAll hp s.undo).run hs
  unfold revert
  dsimp only
  split
  · exact (AttachedProcess.underWay_tell files _).run hputBack
  · exact hputBack

end Staged

/-- Calling recorded hooks edits nothing. -/
theorem PatchRecord.underWay_callHooks (files : FileTree) (registry : Registry)
    (hooks : Option HookRecord) :
    Keeps (Staged.UnderWay p held) (Staged.onProcess (callHooks files registry hooks)) :=
  Staged.underWay_onProcess (keeps_callHooks_of (fun _ _ ↦ (Keeps.lift _).bind fun _ ↦
    (Keeps.lift _).bind fun _ ↦ AttachedProcess.underWay_tell files _) hooks)

/-- Making the edits of a patch again in a process. -/
theorem PatchRecord.underWay_replay (hp : p.target.gate.LetsGo) (patch : PatchRecord)
    (files : FileTree) (registry : Registry) :
    Keeps (Staged.UnderWay p held) (patch.replay files registry) := by
  have hfunctions : Keeps (Staged.UnderWay p held) (patch.redirectFunctions registry) := by
    have hedits : Keeps (Staged.UnderWay p (held + 1)) (do
        let ips ← Staged.onTarget Target.threadIps
        PatchSteps.redirectFunctions registry patch ips true) :=
      (Staged.underWay_onTarget Target.underWay_ignoresCalls.threadIps).bind fun ips ↦
        Staged.underWay_redirectFunctions _ _ _ _
    have hsuspend : Triple (Staged.UnderWay p held) (Staged.onTarget Target.suspend)
        (fun _ ↦ Staged.UnderWay p (held + 1)) (Staged.UnderWay p held) := by
      intro s hs
      obtain ⟨hheld, hok⟩ := Staged.underWay_suspend hp hs
      generalize (Staged.onTarget Target.suspend).run s = r at hheld hok ⊢
      rcases r with ⟨_ | _, s⟩
      · cases hok
      · exact hheld
    exact Triple.bind hsuspend fun _ ↦ Triple.ensuring hedits
      (fun _ _ ↦ Staged.underWay_resume hp) fun _ ↦ Staged.underWay_resume hp
  exact (Staged.underWay_hold files).bind fun _ ↦
    (underWay_callHooks files registry _).bind fun _ ↦
    (Staged.underWay_onProcess (PatchSteps.underWay_redirectReferences hp _ _ _)).bind fun _ ↦
    (Staged.underWay_onProcess (PatchSteps.underWay_prepareEntry hp _ _)).bind fun _ ↦
    (Staged.underWay_onProcess (PatchSteps.underWay_callEntryPoint hp _ _ _)).bind fun _ ↦
    (Staged.underWay_onProcess (PatchSteps.underWay_redirectReferences hp _ _ _)).bind fun _ ↦
    hfunctions.bind fun _ ↦ (underWay_callHooks files registry _).bind fun _ ↦
    Staged.underWay_letGo files

/-- Loading a patch into a process edits nothing. -/
theorem LoadState.underWay_load (hp : p.target.gate.LetsGo) (moduleSize : UInt32) (path : Path)
    (inPlace : Bool) :
    Keeps (fun s ↦ p.UnderWay held s.process) (load moduleSize path inPlace) := by
  have hroom : ∀ size, Keeps (fun s ↦ p.UnderWay held s.process) (findRoom moduleSize size) :=
    fun size ↦ Keeps.get.bind fun _ ↦ triple_onProcess (AttachedProcess.underWay_suspended hp
      (Placement.keeps_freeRegionNear Target.underWay_ignoresCalls.isRangeFree _ _ _))
  refine Keeps.bind Keeps.get fun s ↦ (Keeps.lift _).bind fun size ↦ (hroom size).bind fun room ↦ ?_
  cases room with
  | none => exact Keeps.pure _
  | some base =>
    exact (keeps_placeAt path inPlace base).bind fun file ↦ Keeps.get.bind fun _ ↦
      triple_onProcess (AttachedProcess.underWay_loadPatch _ file)

/-! ### All processes at once -/

namespace Staged

variable {fleet : Fleet}

/-- Work is under way in all processes of a session. -/
abbrev AllUnderWay (fleet : Fleet) (held : Nat) : List Staged → Prop :=
  List.Forall₂ (UnderWay · held) fleet

/-- Suspending all processes always works. -/
theorem underWay_suspendEach (hfleet : ∀ p ∈ fleet, p.target.gate.LetsGo) {staged : List Staged}
    (hs : AllUnderWay fleet held staged) :
    ∃ staged', suspendEach staged = (.ok (), staged') ∧ AllUnderWay fleet (held + 1) staged' := by
  induction hs with
  | nil => exact ⟨[], rfl, .nil⟩
  | @cons p s fleet rest hhead _ ih =>
    obtain ⟨rest', hrun, hrest⟩ := ih fun q hq ↦ hfleet q (List.mem_cons_of_mem p hq)
    obtain ⟨hheld, hok⟩ := underWay_suspend (hfleet p (List.mem_cons_self ..)) hhead
    unfold suspendEach
    generalize (onTarget Target.suspend).run s = r at hheld hok ⊢
    rcases r with ⟨_ | _, s'⟩
    · cases hok
    · exact ⟨s' :: rest', by rw [hrun], .cons hheld hrest⟩

/-- Work done while all processes are suspended, which are then resumed. -/
theorem underWay_allSuspended {α : Type} (hfleet : ∀ p ∈ fleet, p.target.gate.LetsGo)
    {act : EachM Staged α} (hact : Keeps (AllUnderWay fleet (held + 1)) act) :
    Keeps (AllUnderWay fleet held) (allSuspended act) := by
  have hresume : ∀ staged, AllUnderWay fleet (held + 1) staged →
      AllUnderWay fleet held ((Each.attempt (onTarget Target.resume)).run staged).2 := fun _ hs ↦
    Each.attempt_related (fun p hp _ hs ↦ underWay_resume (hfleet p hp) hs) hs
  refine Triple.bind (R := fun _ ↦ AllUnderWay fleet (held + 1)) ?_ fun _ ↦
    Triple.ensuring hact (fun _ ↦ hresume) hresume
  intro staged hs
  obtain ⟨staged', hrun, hs'⟩ := underWay_suspendEach hfleet hs
  rw [show (ExceptT.mk suspendEach : EachM Staged Unit).run staged = suspendEach staged from rfl,
    hrun]
  exact hs'

/-- Calling hooks edits nothing. -/
theorem underWay_callHooks (files : FileTree) (registry : Registry) (kind : HookKind)
    (exclude : Option Token) :
    Keeps (AllUnderWay fleet held) (onFleet (Hooks.call files registry kind exclude)) :=
  keeps_onFleet_of (Hooks.keeps_call_of (fun _ _ _ _ ↦
    (Keeps.lift _).bind fun _ ↦ (Keeps.lift _).bind fun _ ↦ AttachedProcess.underWay_tell files _)
    registry kind exclude)

end Staged

/-- An activation edits all processes only while nothing else runs in them, and leaves them as they
were found, wherever it stops. -/
theorem Activation.underWay_run {fleet : Fleet} (hfleet : ∀ p ∈ fleet, p.target.gate.LetsGo)
    (a : Activation) (objects : List (ObjectTable × List String)) (patch : PatchRecord) :
    Keeps (Staged.AllUnderWay fleet held) (a.run objects patch) := by
  have hreferences : ∀ records, Keeps (Staged.AllUnderWay fleet held)
      (a.redirectEverywhere records) := fun records ↦
    (Each.keeps_collect fun p hp _ ↦ Staged.underWay_onProcess
      (PatchSteps.underWay_redirectReferences (hfleet p hp) _ _ _)).bind fun _ ↦ Keeps.pure _
  have hfunctions : ∀ objects patch, Keeps (Staged.AllUnderWay fleet held)
      (a.redirectFunctions objects patch) := by
    intro objects patch
    refine Staged.underWay_allSuspended hfleet (Keeps.bind (Each.keeps_collect fun _ _ _ ↦
      Staged.underWay_onTarget Target.underWay_ignoresCalls.threadIps) fun ips ↦ ?_)
    have hoptions : ∀ existing size (ips : List (List UInt64)),
        Keeps (Staged.AllUnderWay fleet (held + 1))
          (Each.collect fun i ↦ optionsIn a.view.registry existing size (ips[i]?.getD [])) :=
      fun existing size ips ↦ Each.keeps_collect fun _ _ i ↦ keeps_optionsIn
        (fun image _ _ ↦ Staged.underWay_onTarget
          (keeps_readSite (Target.underWay_ignoresCalls.read image) _ _)) _ _ _ _
    refine (keeps_planFunctions a hoptions objects ips).bind fun plan ↦ ?_
    exact Keeps.bind (Each.keeps_collect fun _ _ i ↦ Staged.underWay_redirectFunctions _ _ _ _)
      fun _ ↦ Keeps.pure _
  unfold run
  refine Keeps.bind (Each.keeps_forEach fun _ _ ↦ Staged.underWay_hold _) fun _ ↦ ?_
  refine (Staged.underWay_callHooks _ _ _ _).bind fun preHooks ↦ (Keeps.lift _).bind fun _ ↦ ?_
  refine (hreferences _).bind fun preEntry ↦ ?_
  dsimp only
  refine Keeps.bind (Each.keeps_forEach fun p hp ↦ Staged.underWay_onProcess
    (PatchSteps.underWay_prepareEntry (hfleet p hp) _ _)) fun _ ↦ ?_
  refine Keeps.bind (Each.keeps_forEach fun p hp ↦ Staged.underWay_onProcess
    (PatchSteps.underWay_callEntryPoint (hfleet p hp) _ _ _)) fun _ ↦ (Keeps.lift _).bind fun _ ↦ ?_
  refine (hreferences _).bind fun postEntry ↦ (hfunctions _ _).bind fun patch ↦ ?_
  refine (Staged.underWay_callHooks _ _ _ _).bind fun postHooks ↦ ?_
  exact Keeps.bind (Each.keeps_forEach fun _ _ ↦ Staged.underWay_letGo _) fun _ ↦ Keeps.pure _

end LivePatch
