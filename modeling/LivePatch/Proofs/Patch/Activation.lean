import LivePatch.Patch.Activate
import LivePatch.Proofs.Attached.Fleet
import LivePatch.Proofs.Patch.Undoing

/-!
# Reversibility of an activation

Wherever an activation stops, what it noted in each process suffices to bring the process back. Each
step keeps that, for all processes at once, so the whole run does.
-/

namespace LivePatch

/-- A process that a patch was loaded into, and the base of the patch there. -/
structure Host where
  process : AttachedProcess
  base : UInt64

/-- A host that lets everything be taken back, whose patch has its room to itself and whose next
allocation is new. -/
structure Host.IsReady (h : Host) (registry : Registry) (token : Token) : Prop where
  gate : h.process.target.gate.IsTolerant
  owns : h.process.Owns registry token (.region h.base)
  page : h.process.target.memory.isMapped h.process.target.nextAllocation = false

namespace Staged

/-- A process in which a patch is being activated, which can be brought back to what it was when
the patch was loaded, but for the region of the patch. -/
def Reversible (held : Nat) (allocates : Bool) (h : Host) (s : Staged) : Prop :=
  Undoable ⟨.region h.base, held, [], allocates⟩ h.process s

/-- What can be brought back can be after an allocation too. -/
theorem Reversible.allocated {held : Nat} {allocates : Bool} {h : Host} {s : Staged}
    (hs : Reversible held allocates h s) : Reversible held true h s :=
  ⟨⟨hs.strayed.target.allocated, hs.strayed.reacts, hs.strayed.commandThread,
    hs.strayed.moduleBase, hs.strayed.redirected⟩, hs.code, hs.marks, hs.noted⟩

variable {held : Nat} {allocates : Bool} {h : Host}

/-- Work on the process that strays no further than the room of the patch keeps it reversible. -/
theorem keeps_onProcess_reversible {α : Type} {act : ProcessM α} {registry : Registry}
    {token : Token} (hh : h.IsReady registry token)
    (hact : ∀ p : AttachedProcess, p.target.gate.IsTolerant → p.Owns registry token (.region h.base) →
      Keeps (p.Within ⟨.region h.base, 0, [], allocates⟩) act) :
    Keeps (Reversible held allocates h) (onProcess act) :=
  keeps_onProcess fun _ hs ↦ hact _ (hs.strayed.target.isTolerant hh.gate) (hs.owns hh.owns)

/-- Holding a process at a sync point keeps it reversible. -/
theorem keeps_hold (files : FileTree) {registry : Registry} {token : Token}
    (hh : h.IsReady registry token) : Keeps (Reversible held allocates h) (hold files) :=
  (keeps_onProcess_reversible hh fun _ _ _ ↦ AttachedProcess.keeps_tell files rfl).bind fun _ ↦
    Keeps.modify fun _ hs ↦ ⟨hs.strayed, hs.code, hs.marks, hs.noted⟩

/-- Letting a process go keeps it reversible. -/
theorem keeps_letGo (files : FileTree) {registry : Registry} {token : Token}
    (hh : h.IsReady registry token) : Keeps (Reversible held allocates h) (letGo files) :=
  (keeps_onProcess_reversible hh fun _ _ _ ↦ AttachedProcess.keeps_tell files rfl).bind fun _ ↦
    Keeps.modify fun _ hs ↦ ⟨hs.strayed, hs.code, hs.marks, hs.noted⟩

/-- What working on the process comes to. -/
theorem run_onProcess {α : Type} (act : ProcessM α) (s : Staged) :
    (onProcess act).run s = ((act.run s.process).1, { s with process := (act.run s.process).2 }) :=
  rfl

/-- What work on a process guarantees there. -/
theorem triple_onProcess {α : Type} {act : ProcessM α} {pre stop : AttachedProcess → Prop}
    {post : α → AttachedProcess → Prop} (h : Triple pre act post stop) :
    Triple (fun s ↦ pre s.process) (onProcess act) (fun a s ↦ post a s.process)
      fun s ↦ stop s.process := by
  intro s hs
  rw [run_onProcess]
  have hact := h s.process hs
  generalize act.run s.process = r at hact ⊢
  rcases r with ⟨_ | a, p⟩ <;> exact hact

/-- Running the entry point keeps a process reversible. -/
theorem triple_callEntryPoint (files : FileTree) {registry : Registry} {patch : PatchRecord}
    (hh : h.IsReady registry patch.token) :
    Triple (Reversible held false h)
      (onProcess (PatchSteps.callEntryPoint files registry patch))
      (fun _ ↦ Reversible held true h) (Reversible held true h) := by
  intro s hs
  have hpage : s.process.target.memory.isMapped s.process.target.nextAllocation = false := by
    rw [hs.strayed.target.nextAllocation rfl, ← hs.strayed.target.memory.isMapped]
    exact hh.page
  have hcall := PatchSteps.triple_callEntryPoint (l := ⟨.region h.base, 0, [], false⟩) files patch
    (hs.strayed.target.isTolerant hh.gate) (hs.owns hh.owns) hpage rfl rfl s.process (.refl _ _ s.process)
  have hstray : ∀ p, s.process.Within ⟨.region h.base, 0, [], true⟩ p →
      Reversible held true h { s with process := p } := fun p hp ↦
    Undoable.stray hs.allocated (hp.mono_places _ fun _ _ h ↦ .inl h)
  rw [run_onProcess]
  generalize (PatchSteps.callEntryPoint files registry patch).run s.process = r at hcall ⊢
  rcases r with ⟨_ | _, p⟩ <;> exact hstray p hcall

/-- A change of the suspensions alone keeps a process reversible. -/
theorem Reversible.of_target {held' : Nat} {s : Staged} (hs : Reversible held allocates h s)
    {t : Target} (ht : h.process.target.Within ⟨.all, held', [], allocates⟩ t)
    (hmemory : t.memory = s.process.target.memory) :
    Reversible held' allocates h { s with process := { s.process with target := t } } := by
  refine ⟨⟨ht, hs.strayed.reacts, hs.strayed.commandThread, hs.strayed.moduleBase, rfl⟩, ?_,
    hs.marks, hs.noted⟩
  rw [hmemory]
  exact hs.code

/-- Suspending a process always works and keeps it reversible. -/
theorem triple_suspend_reversible (hh : h.process.target.gate.IsTolerant) :
    Triple (Reversible held allocates h) (onTarget Target.suspend)
      (fun _ ↦ Reversible (held + 1) allocates h) fun _ ↦ False := by
  intro s hs
  have hsuspend := Target.triple_suspend_memory (l := ⟨.all, held, [], allocates⟩) hh
    (· = s.process.target.memory) s.process.target ⟨hs.strayed.target, rfl⟩
  rw [run_onTarget]
  generalize Target.suspend.run s.process.target = r at hsuspend ⊢
  rcases r with ⟨_ | _, t⟩
  · exact hsuspend.elim
  · exact hs.of_target hsuspend.1 hsuspend.2

/-- Resuming a process always works and keeps it reversible. -/
theorem triple_resume_reversible (hh : h.process.target.gate.IsTolerant) :
    Triple (Reversible (held + 1) allocates h) (onTarget Target.resume)
      (fun _ ↦ Reversible held allocates h) fun _ ↦ False := by
  intro s hs
  have hresume := Target.triple_resume_memory (l := ⟨.all, held, [], allocates⟩) hh
    (· = s.process.target.memory) s.process.target ⟨hs.strayed.target, rfl⟩
  rw [run_onTarget]
  generalize Target.resume.run s.process.target = r at hresume ⊢
  rcases r with ⟨_ | _, t⟩
  · exact hresume.elim
  · exact hs.of_target hresume.1 hresume.2

section Suspending

variable {τ : Type} {origins : List τ} {I : τ → Staged → Prop}

/-- Suspending all processes keeps what suspending and resuming keep in each. -/
theorem keeps_suspendEach (hsuspend : ∀ o ∈ origins, Keeps (I o) (onTarget Target.suspend))
    (hresume : ∀ o ∈ origins, Keeps (I o) (onTarget Target.resume)) :
    Keeps (List.Forall₂ I origins) (ExceptT.mk suspendEach) := by
  apply Keeps.of_run
  intro staged hs
  change List.Forall₂ I origins (suspendEach staged).2
  induction hs with
  | nil => exact .nil
  | cons hhead htail ih =>
    have hfirst := (hsuspend _ (List.mem_cons_self ..)).run hhead
    have hrest := ih (fun o ho ↦ hsuspend o (List.mem_cons_of_mem _ ho))
      fun o ho ↦ hresume o (List.mem_cons_of_mem _ ho)
    unfold suspendEach
    generalize (onTarget Target.suspend).run _ = r at hfirst ⊢
    rcases r with ⟨_ | _, s⟩
    · exact .cons hfirst htail
    · dsimp only
      generalize suspendEach _ = more at hrest ⊢
      rcases more with ⟨_ | _, rest⟩
      · exact .cons ((hresume _ (List.mem_cons_self ..)).run hfirst) hrest
      · exact .cons hfirst hrest

end Suspending

variable {hosts : List Host} {registry : Registry} {token : Token}

/-- All processes of a session are reversible. -/
abbrev AllReversible (held : Nat) (allocates : Bool) (hosts : List Host) : List Staged → Prop :=
  List.Forall₂ (Reversible held allocates) hosts

/-- Suspending all processes always works. -/
theorem suspendEach_reversible (hh : ∀ h ∈ hosts, h.process.target.gate.IsTolerant)
    {staged : List Staged}
    (hs : AllReversible held allocates hosts staged) :
    ∃ staged', suspendEach staged = (.ok (), staged') ∧
      AllReversible (held + 1) allocates hosts staged' := by
  induction hs with
  | nil => exact ⟨[], rfl, .nil⟩
  | cons hhead _ ih =>
    obtain ⟨rest, hrun, hrest⟩ := ih fun h hmem ↦ hh h (List.mem_cons_of_mem _ hmem)
    have hsuspend := triple_suspend_reversible (hh _ (List.mem_cons_self ..)) _ hhead
    unfold suspendEach
    generalize (onTarget Target.suspend).run _ = r at hsuspend ⊢
    rcases r with ⟨_ | _, s⟩
    · exact hsuspend.elim
    · exact ⟨s :: rest, by rw [hrun], .cons hsuspend hrest⟩

/-- Work done while all processes are suspended ends with the suspensions taken back. -/
theorem keeps_allSuspended {α : Type} {act : EachM Staged α}
    (hh : ∀ h ∈ hosts, h.process.target.gate.IsTolerant)
    (hact : Keeps (AllReversible (held + 1) allocates hosts) act) :
    Keeps (AllReversible held allocates hosts) (allSuspended act) := by
  have hresume : ∀ staged, AllReversible (held + 1) allocates hosts staged →
      AllReversible held allocates hosts ((Each.attempt (onTarget Target.resume)).run staged).2 :=
    fun _ hs ↦ Each.attempt_related
      (fun h hmem _ hs ↦ (triple_resume_reversible (hh h hmem)).run_of_ok hs) hs
  refine Triple.bind (R := fun _ ↦ AllReversible (held + 1) allocates hosts) ?_ fun _ ↦
    Triple.ensuring hact (fun _ _ hs ↦ hresume _ hs) fun _ hs ↦ hresume _ hs
  intro staged hs
  obtain ⟨staged', hrun, hs'⟩ := suspendEach_reversible hh hs
  rw [show (ExceptT.mk suspendEach : EachM Staged Unit).run staged = suspendEach staged from rfl,
    hrun]
  exact hs'

private theorem zipWith_reversible
    {staged : List Staged} (hs : AllReversible held allocates hosts staged) {fleet : Fleet}
    (hfleet : List.Forall₂ (AttachedProcess.Within (.at .none)) (staged.map Staged.process) fleet) :
    AllReversible held allocates hosts (staged.zipWith (fun s p ↦ { s with process := p }) fleet) := by
  induction hs generalizing fleet with
  | nil => exact .nil
  | cons hhead _ ih =>
    cases hfleet with
    | cons hp hrest =>
      refine .cons (Undoable.stray hhead ?_) (ih hrest)
      exact ⟨⟨hp.target.pid, hp.target.refuses, hp.target.threads, hp.target.suspensions,
        fun _ ↦ hp.target.nextAllocation rfl, hp.target.memory.mono fun _ _ _ h ↦ h.elim⟩,
        hp.reacts, hp.commandThread, hp.moduleBase, hp.redirected⟩

/-- Work on the processes that changes nothing keeps them reversible. -/
theorem keeps_onFleet {α : Type} {act : FleetM α}
    (hact : ∀ fleet : Fleet, Keeps (List.Forall₂ (AttachedProcess.Within (.at .none)) fleet) act) :
    Keeps (AllReversible held allocates hosts) (onFleet act) := by
  apply Keeps.of_run
  intro staged hs
  have hrefl : List.Forall₂ (AttachedProcess.Within (.at .none)) (staged.map Staged.process)
      (staged.map Staged.process) := List.forall₂_same.mpr fun p _ ↦ .refl ..
  exact zipWith_reversible hs ((hact _).run hrefl)

/-- Work on the processes alone keeps for the staged processes what it keeps for them. -/
theorem keeps_onFleet_of {τ α : Type} {origins : List τ} {I : τ → AttachedProcess → Prop}
    {act : FleetM α} (hact : Keeps (List.Forall₂ I origins) act) :
    Keeps (List.Forall₂ (fun o s ↦ I o s.process) origins) (onFleet act) := by
  apply Keeps.of_run
  intro staged hs
  have hrun := hact.run (s := staged.map Staged.process) (List.forall₂_map_right_iff.mpr hs)
  change List.Forall₂ _ origins (staged.zipWith (fun s p ↦ { s with process := p })
    (act.run (staged.map Staged.process)).2)
  generalize (act.run (staged.map Staged.process)).2 = fleet at hrun ⊢
  clear hact
  induction hs generalizing fleet with
  | nil => exact .nil
  | cons _ _ ih =>
    cases hrun with
    | cons hhead hrest => exact .cons hhead (ih _ hrest)

end Staged

namespace Activation

open Staged

variable {held : Nat} {allocates : Bool} {hosts : List Host} (a : Activation)

/-- Redirecting references keeps all processes reversible. -/
theorem keeps_redirectEverywhere (hh : ∀ h ∈ hosts, h.IsReady a.view.registry a.view.token)
    (records : List ReferenceRedirection) :
    Keeps (AllReversible held allocates hosts) (a.redirectEverywhere records) :=
  (Each.keeps_collect fun h hmem _ ↦ keeps_onProcess_reversible (hh h hmem) fun _ hp hown ↦
    PatchSteps.keeps_redirectReferences (l := ⟨.region h.base, 0, [], allocates⟩) hp hown records).bind
    fun _ ↦ Keeps.pure _

/-- Looking at the code around a function does no more than reading it. -/
theorem keeps_readSite {inv : Target → Prop} {image : Mapping}
    (hread : ∀ rva len, Keeps inv (image.read rva len)) (rva imageSize : UInt32) :
    Keeps inv (readSite image rva imageSize) := by
  unfold readSite
  dsimp only
  split
  · exact Keeps.fail _
  · refine (hread _ _).bind fun code ↦ ?_
    split
    · exact (hread _ _).bind fun _ ↦ Keeps.pure _
    · exact Keeps.pure _

/-- Looking for the techniques for a function does no more than looking at the code around it. -/
theorem keeps_optionsIn {inv : Staged → Prop}
    (hsite : ∀ image rva imageSize, Keeps inv (onTarget (readSite image rva imageSize)))
    (images : Registry) (existing : FoundSymbol) (size : UInt32) (ips : List UInt64) :
    Keeps inv (optionsIn images existing size ips) := by
  refine Keeps.get.bind fun s ↦ ?_
  dsimp only
  split
  · exact Keeps.pure _
  · refine (hsite _ _ _).bind fun site ↦ ?_
    exact (Keeps.lift _).bind fun _ ↦ (Keeps.lift _).bind fun _ ↦ Keeps.pure _

section Planning

variable {inv : List Staged → Prop}
  (hoptions : ∀ existing size (ips : List (List UInt64)),
    Keeps inv (Each.collect fun i ↦ optionsIn a.view.registry existing size (ips[i]?.getD [])))

include hoptions

/-- Looking for the techniques for a function does the same in all processes. -/
theorem keeps_optionsEverywhere (existing : FoundSymbol) (size : UInt32)
    (ips : List (List UInt64)) : Keeps inv (a.optionsEverywhere existing size ips) := by
  refine (hoptions _ _ _).tried.bind fun result ↦ (Keeps.lift _).bind fun options ↦ ?_
  split
  · exact Keeps.pure _
  · dsimp only
    split
    · exact (Keeps.lift _).bind fun _ ↦ Keeps.pure _
    · exact Keeps.pure _

/-- Choosing a technique for a function does no more than looking for techniques. -/
private theorem keeps_chosen (existing : FoundSymbol) (size own : UInt32)
    (ips : List (List UInt64)) (name : String) : Keeps inv (do
      match (← a.optionsEverywhere existing size ips).bind TechniqueOptions.combine with
      | none => pure none
      | some technique => pure (some (⟨name, existing.token, existing.rva, own, technique,
          existing.image.tables.thunks.leadingTo existing.rva⟩ : FunctionRedirection))) :=
  (keeps_optionsEverywhere a hoptions existing size ips).bind fun options ↦ by
    split <;> exact Keeps.pure _

/-- Planning a redirection does no more than looking for techniques. -/
theorem keeps_planFunction (ips : List (List UInt64)) (name : String) :
    Keeps inv (a.planFunction ips name) := by
  unfold planFunction
  split
  · next own existing _ _ =>
    refine (Keeps.lift _).bind fun contribution ↦ ?_
    split
    · exact Keeps.pure _
    · cases contribution with
      | none => exact keeps_chosen a hoptions existing 0 own ips name
      | some c =>
        exact (Keeps.lift _).bind fun size ↦ keeps_chosen a hoptions existing size own ips name
  · exact Keeps.pure _

/-- Planning all redirections does no more than looking for techniques. -/
theorem keeps_planFunctions (objects : List ObjectTable) (ips : List (List UInt64)) :
    Keeps inv (a.planFunctions objects ips) :=
  (Keeps.mapM fun name _ ↦ keeps_planFunction a hoptions ips name).bind fun _ ↦
    (Keeps.lift _).bind fun _ ↦ Keeps.pure _

end Planning

/-- Redirecting functions keeps all processes reversible, at whichever record of whichever process
it stops. -/
theorem keeps_redirectFunctions {patch : PatchRecord}
    (hh : ∀ h ∈ hosts, h.IsReady a.view.registry patch.token) (objects : List ObjectTable) :
    Keeps (AllReversible held allocates hosts) (a.redirectFunctions objects patch) := by
  refine keeps_allSuspended (fun h hmem ↦ (hh h hmem).gate) ?_
  refine Keeps.bind (Each.keeps_collect fun h hmem _ ↦ keeps_onProcess_reversible (hh h hmem)
    fun _ _ _ ↦ AttachedProcess.keeps_onTarget Target.keeps_threadIps) fun ips ↦ ?_
  have hoptions : ∀ existing size (ips : List (List UInt64)),
      Keeps (AllReversible (held + 1) allocates hosts) (Each.collect fun i ↦
        optionsIn a.view.registry existing size (ips[i]?.getD [])) :=
    fun existing size ips ↦ Each.keeps_collect fun h hmem i ↦ keeps_optionsIn
      (fun _ _ _ ↦ keeps_onProcess_reversible (hh h hmem) fun _ _ _ ↦
        AttachedProcess.keeps_onTarget (keeps_readSite (Mapping.keeps_read) _ _)) _ _ _ _
  refine (keeps_planFunctions a hoptions objects ips).bind fun plan ↦ ?_
  refine Keeps.bind (Each.keeps_collect fun h hmem i ↦ ?_) fun _ ↦ Keeps.pure _
  exact PatchSteps.keeps_redirectFunctions _ (hh h hmem).owns _ _

/-- Wherever activation stops, all processes are reversible. -/
theorem triple_run {patch : PatchRecord} (htoken : a.view.token = patch.token)
    (hh : ∀ h ∈ hosts, h.IsReady a.view.registry patch.token)
    (objects : List (ObjectTable × List String)) :
    Triple (AllReversible 0 false hosts) (a.run objects patch)
      (fun _ ↦ AllReversible 0 true hosts) (AllReversible 0 true hosts) := by
  have hview : ∀ h ∈ hosts, h.IsReady a.view.registry a.view.token := htoken ▸ hh
  have hhooks : ∀ allocates kind exclude, Keeps (AllReversible 0 allocates hosts)
      (onFleet (Hooks.call a.files a.view.registry kind exclude)) := fun _ _ _ ↦
    keeps_onFleet fun _ ↦ Hooks.keeps_call (o := id) (l := fun _ ↦ .at .none) _ _ _ _
  have hprepare : ∀ patch', patch'.token = patch.token → Keeps (AllReversible 0 false hosts)
      (Each.forEach (onProcess (PatchSteps.prepareEntry a.view.registry patch'))) := by
    intro patch' heq
    exact Each.keeps_forEach fun h hmem ↦ keeps_onProcess_reversible (hh h hmem) fun _ hp hown ↦
      PatchSteps.keeps_prepareEntry (l := ⟨.region h.base, 0, [], false⟩) patch' hp (heq ▸ hown)
  have hcall : ∀ patch', patch'.token = patch.token → Triple (AllReversible 0 false hosts)
      (Each.forEach (onProcess (PatchSteps.callEntryPoint a.files a.view.registry patch')))
      (fun _ ↦ AllReversible 0 true hosts) (AllReversible 0 true hosts) := by
    intro patch' heq
    exact Each.triple_forEach (fun h hmem ↦ triple_callEntryPoint a.files (heq ▸ hh h hmem))
      fun h hmem s hs ↦ hs.allocated
  have hfunctions : ∀ patch', patch'.token = patch.token → Keeps (AllReversible 0 true hosts)
      (a.redirectFunctions (objects.map Prod.fst) patch') := by
    intro patch' heq
    exact keeps_redirectFunctions a (heq ▸ hh) _
  have hbefore : ∀ {α : Type} {act : EachM Staged α}, Keeps (AllReversible 0 false hosts) act →
      Triple (AllReversible 0 false hosts) act (fun _ ↦ AllReversible 0 false hosts)
        (AllReversible 0 true hosts) := fun hact ↦
    hact.mono (fun _ hs ↦ hs) (fun _ _ hs ↦ hs) fun _ hs ↦
      List.Forall₂.imp (fun _ _ hs ↦ hs.allocated) hs
  unfold run
  refine Triple.bind (hbefore (Each.keeps_forEach fun h hmem ↦ keeps_hold _ (hh h hmem))) fun _ ↦ ?_
  refine Triple.bind (hbefore (hhooks _ _ _)) fun preHooks ↦ ?_
  refine Triple.bind (hbefore (Keeps.lift _)) fun records ↦ ?_
  refine Triple.bind (hbefore (keeps_redirectEverywhere a hview _)) fun preEntry ↦ ?_
  dsimp only
  refine Triple.bind (hbefore (hprepare _ rfl)) fun _ ↦ ?_
  refine Triple.bind (hcall _ rfl) fun _ ↦ ?_
  refine Keeps.bind (Keeps.lift _) fun records ↦ ?_
  refine Keeps.bind (keeps_redirectEverywhere a hview _) fun postEntry ↦ ?_
  refine Keeps.bind (hfunctions _ rfl) fun patch' ↦ ?_
  refine Keeps.bind (hhooks _ _ _) fun postHooks ↦ ?_
  refine Keeps.bind (Each.keeps_forEach fun h hmem ↦ keeps_letGo _ (hh h hmem)) fun _ ↦ ?_
  exact Keeps.pure _

end Activation
end LivePatch
