import LivePatch.Proofs.Memory.Staying
import LivePatch.Proofs.Patch.Stillness
import LivePatch.Proofs.Session.Sparing

/-!
# Processes receive patches

A patch comes into a process where nothing is. Up to the moment where functions are redirected,
whatever is done reaches into the patch alone or into the page of a cave, so that all older memory
stays as it was. Then the redirections are written, and nothing else is, whether the patch was just
built or is installed again.
-/

namespace LivePatch

namespace Target

/-- A process in which all memory of another one stayed as it was, and in which no more was allocated
unless `allocates`. -/
structure StaysIn (o : Target) (allocates : Bool) (t : Target) : Prop where
  pid : t.pid = o.pid
  memory : o.memory.StaysIn t.memory
  nextAllocation : allocates = false → t.nextAllocation = o.nextAllocation

/-- A process that received a patch: older memory stayed as it was until the redirections of
functions were written, and nothing was written after that. -/
def Receives (o : Target) (registry : Registry) (patch : PatchRecord)
    (seen : UInt32 × Memory) : Prop :=
  ∃ m log m', o.memory.StaysIn m ∧ patch.writesIn registry o.pid = .ok log ∧
    Memory.writeAll log m = .ok m' ∧ seen = (o.pid, m')

variable {o t : Target} {allocates : Bool} {image : Mapping} {registry : Registry} {token : Token}

/-- A process stays in itself. -/
theorem StaysIn.refl (o : Target) : o.StaysIn false o := ⟨rfl, .refl _, fun _ ↦ rfl⟩

theorem StaysIn.allocated (h : o.StaysIn false t) : o.StaysIn true t := ⟨h.pid, h.memory, nofun⟩

theorem staysIn_ignoresThreads : IgnoresThreads (o.StaysIn allocates) where
  counted := fun _ ht ↦ ⟨ht.pid, ht.memory, ht.nextAllocation⟩
  flushed := fun ht ↦ ⟨ht.pid, ht.memory, ht.nextAllocation⟩
  suspended := fun _ ht ↦ ⟨ht.pid, ht.memory, ht.nextAllocation⟩
  changed := fun _ _ ht ↦ ⟨ht.pid, ht.memory, ht.nextAllocation⟩

/-- What is written where nothing was changes no older memory. -/
theorem staysIn_writeMemory {address : UInt64} (hclear : o.memory.IsClear address) (bytes : Bytes) :
    Keeps (o.StaysIn allocates) (writeMemory address bytes) :=
  (staysIn_ignoresThreads.pass _).bind fun _ ↦ Triple.bind_get fun _ ht ↦ Triple.bind_lift
    (fun _ hm ↦ Triple.set fun _ _ ↦ ⟨ht.pid, ht.memory.write hclear hm, ht.nextAllocation⟩)
    fun _ hs ↦ hs ▸ ht

/-- Every address of an image in room of its own is clear. -/
theorem HasRoom.isClear (h : o.HasRoom image.base image.size) {rva : UInt32} {address : UInt64}
    (haddress : image.address rva = .ok address) : o.memory.IsClear address := by
  obtain ⟨hto, hlt⟩ := Mapping.address_eq_ok haddress
  exact h.image.isClear (by omega) (by omega)

theorem HasRoom.isClear_page (h : o.HasRoom image.base image.size) :
    o.memory.IsClear o.nextAllocation :=
  h.page.isClear (Nat.le_refl _) (Nat.lt_add_of_pos_right (by decide))

/-- What is written into an image in room of its own changes no older memory. -/
theorem staysIn_write (h : o.HasRoom image.base image.size) (rva : UInt32) (bytes : Bytes) :
    Keeps (o.StaysIn allocates) (image.write rva bytes) :=
  (Keeps.lift _).bind fun _ ↦ Triple.bind_lift
    (fun _ haddress ↦ (staysIn_writeMemory (h.isClear haddress) bytes).inContext.bind fun _ ↦
      staysIn_ignoresThreads.flush) fun _ ht ↦ ht

/-- The first allocation takes the page that was to come next. -/
theorem staysIn_allocate (hclear : o.memory.IsClear o.nextAllocation) (size : Nat) :
    Triple (o.StaysIn false) (allocate size) (fun page t ↦ page = o.nextAllocation ∧ o.StaysIn true t)
      (o.StaysIn true) := by
  unfold allocate
  generalize granularity = granularity
  refine Triple.bind ((staysIn_ignoresThreads.pass _).mono (fun _ ht ↦ ht) (fun _ _ ht ↦ ht)
    fun _ ht ↦ ht.allocated) fun _ ↦ Triple.bind_get fun t ht ↦ ?_
  have hstop : ∀ s, s = t → o.StaysIn true s := fun _ hs ↦ hs ▸ ht.allocated
  have hpage : t.nextAllocation = o.nextAllocation := ht.nextAllocation rfl
  refine Triple.bind_lift (fun _ _ ↦ Triple.bind_lift (fun _ _ ↦ ?_) hstop) hstop
  rw [hpage]
  exact Triple.bind (R := fun _ ↦ o.StaysIn true)
    (Triple.set fun _ _ ↦ ⟨ht.pid, ht.memory.map hclear _, nofun⟩) fun _ ↦
    Triple.pure fun _ hs ↦ ⟨rfl, hs⟩

theorem staysIn_free (hclear : o.memory.IsClear o.nextAllocation) :
    Keeps (o.StaysIn allocates) (free o.nextAllocation) := by
  refine (staysIn_ignoresThreads.pass _).bind fun _ ↦ Triple.bind_get fun t ht ↦ ?_
  split
  · exact Triple.set fun _ _ ↦ ⟨ht.pid, ht.memory.unmap hclear, ht.nextAllocation⟩
  · exact Triple.fail fun _ hs ↦ hs ▸ ht

variable (himage : registry.mapping? o.pid token = some image)
  (hroom : o.HasRoom image.base image.size)

include himage hroom

theorem staysIn_allowsPatch : AllowsPatch o.pid registry token (o.StaysIn allocates) where
  toIgnoresThreads := staysIn_ignoresThreads
  owner := fun ht ↦ ht.pid
  write := fun {_} hmapped rva bytes ↦ by
    cases himage.symm.trans hmapped
    exact staysIn_write hroom rva bytes

theorem staysIn_allowsEntry :
    AllowsEntry o.pid registry token (o.StaysIn false) (o.StaysIn true) where
  toIgnoresThreads := staysIn_ignoresThreads
  opens := (staysIn_allocate hroom.isClear_page _).mono (fun _ ht ↦ ht)
    (fun _ _ ht ↦ ⟨ht.2, ht.1 ▸ staysIn_writeMemory hroom.isClear_page _,
      ht.1 ▸ staysIn_free hroom.isClear_page⟩) fun _ ht ↦ ht
  patchBefore := staysIn_allowsPatch himage hroom
  patch := staysIn_allowsPatch himage hroom
  later := StaysIn.allocated

end Target

namespace Staged

variable {I : Target → Prop} {files : FileTree}

/-- Holding a process at a sync point changes nothing in it. -/
theorem keeps_hold_target : Keeps (fun s ↦ I s.process.target) (hold files) :=
  (triple_onProcess (AttachedProcess.keeps_tell_target files rfl)).bind fun _ ↦
    Keeps.modify fun _ hs ↦ hs

/-- Letting a process go changes nothing in it. -/
theorem keeps_letGo_target : Keeps (fun s ↦ I s.process.target) (letGo files) :=
  (triple_onProcess (AttachedProcess.keeps_tell_target files rfl)).bind fun _ ↦
    Keeps.modify fun _ hs ↦ hs

/-- Calling hooks changes nothing in any process. -/
theorem keeps_callHooks_target {τ : Type} {origins : List τ} {I : τ → Target → Prop}
    (registry : Registry) (kind : HookKind) (exclude : Option Token) :
    Keeps (List.Forall₂ (fun o s ↦ I o s.process.target) origins)
      (onFleet (Hooks.call files registry kind exclude)) :=
  keeps_onFleet_of (Hooks.keeps_call_of (fun _ _ r base ↦ r.keeps_callIn_target files base)
    registry kind exclude)

end Staged

/-- Behind the redirections of functions, a process received the patch. -/
theorem Target.StaysIn.receives {o : Target} {allocates : Bool} {registry : Registry}
    {patch : PatchRecord} {s t : Staged} (hs : o.StaysIn allocates s.process.target)
    (ht : Staged.IsWritten registry patch s t) : o.Receives registry patch t.sight := by
  obtain ⟨log, m', hlog, hm', ht⟩ := ht
  have hpid : s.process.pid = o.pid := hs.pid
  rw [hpid] at hlog ht
  exact ⟨_, log, m', hs.memory, hlog, hm', ht⟩

namespace Activation

variable {a : Activation} {origins : List Target}

/-- An activation brings the patch into every process that has room for it. -/
theorem receives_run {patch : PatchRecord} (hpatch : patch.token = a.view.token)
    (hroom : ∀ o ∈ origins, ∃ image, a.view.registry.mapping? o.pid a.view.token = some image ∧
      o.HasRoom image.base image.size) (objects : List (ObjectTable × List String)) :
    Triple (List.Forall₂ (fun o s ↦ o.StaysIn false (Staged.process s).target) origins)
      (a.run objects patch)
      (fun patch' staged ↦ (∀ r ∈ patch'.functions, r.technique.IsRoomy) ∧
        List.Forall₂ (fun o s ↦ o.Receives a.view.registry patch' (Staged.sight s)) origins staged)
      fun _ ↦ True := by
  have hstop : ∀ {J : List Staged → Prop}, ∀ s, J s → True := fun _ _ ↦ trivial
  have hreferences : ∀ allocates records, Keeps
      (List.Forall₂ (fun o s ↦ Target.StaysIn o allocates (Staged.process s).target) origins)
      (a.redirectEverywhere records) := by
    refine fun allocates records ↦ (Each.keeps_collect fun o ho _ ↦ ?_).bind fun _ ↦ Keeps.pure _
    obtain ⟨image, himage, hroom⟩ := hroom o ho
    exact Staged.triple_onProcess ((Target.staysIn_allowsPatch himage hroom).redirectReferences _)
  have hprepare : ∀ patch' : PatchRecord, patch'.token = a.view.token → Keeps
      (List.Forall₂ (fun o s ↦ Target.StaysIn o false (Staged.process s).target) origins)
      (Each.forEach (Staged.onProcess (PatchSteps.prepareEntry a.view.registry patch'))) := by
    refine fun patch' htoken ↦ Each.keeps_forEach fun o ho ↦ ?_
    obtain ⟨image, himage, hroom⟩ := hroom o ho
    exact Staged.triple_onProcess ((Target.staysIn_allowsPatch himage hroom).prepareEntry htoken)
  have hcall : ∀ patch' : PatchRecord, patch'.token = a.view.token → Triple
      (List.Forall₂ (fun o s ↦ Target.StaysIn o false (Staged.process s).target) origins)
      (Each.forEach (Staged.onProcess (PatchSteps.callEntryPoint a.files a.view.registry patch')))
      (fun _ ↦ List.Forall₂ (fun o s ↦ Target.StaysIn o true (Staged.process s).target) origins)
      (List.Forall₂ (fun o s ↦ Target.StaysIn o true (Staged.process s).target) origins) := by
    refine fun patch' htoken ↦ Each.triple_forEach (fun o ho ↦ ?_) fun _ _ _ hs ↦ hs.allocated
    obtain ⟨image, himage, hroom⟩ := hroom o ho
    exact Staged.triple_onProcess
      ((Target.staysIn_allowsEntry himage hroom).callEntryPoint htoken a.files)
  unfold run
  refine Triple.bind ((Each.keeps_forEach fun _ _ ↦ Staged.keeps_hold_target).mono (fun _ h ↦ h)
    (fun _ _ h ↦ h) hstop) fun _ ↦ ?_
  refine Triple.bind ((Staged.keeps_callHooks_target _ _ _).mono (fun _ h ↦ h) (fun _ _ h ↦ h)
    hstop) fun preHooks ↦ Triple.bind_lift (fun records _ ↦ ?_) hstop
  refine Triple.bind ((hreferences _ _).mono (fun _ h ↦ h) (fun _ _ h ↦ h) hstop) fun preEntry ↦ ?_
  dsimp only
  refine Triple.bind ((hprepare (a.entryEdits _) hpatch).mono (fun _ h ↦ h)
    (fun _ _ h ↦ h) hstop) fun _ ↦ ?_
  refine Triple.bind ((hcall (a.entryEdits _) hpatch).mono (fun _ h ↦ h)
    (fun _ _ h ↦ h) hstop) fun _ ↦ Triple.bind_lift (fun records _ ↦ ?_) hstop
  refine Triple.bind ((hreferences _ _).mono (fun _ h ↦ h) (fun _ _ h ↦ h) hstop)
    fun postEntry ↦ Triple.of_pre fun staged hstaged ↦ ?_
  -- from here on nothing is written but what redirecting the functions takes
  have hsame : List.Forall₂ (fun s t ↦ Staged.sight t = s.sight) staged staged :=
    List.forall₂_same.mpr fun _ _ ↦ rfl
  refine Triple.bind ((triple_redirectFunctions a _ _ staged).mono (fun _ h ↦ h ▸ hsame)
    (fun _ _ h ↦ h) hstop) fun patch' ↦ Triple.of_pre fun staged' ⟨hroomy, hwritten⟩ ↦ ?_
  have hreceived : List.Forall₂ (fun o s ↦ Target.Receives o a.view.registry patch'
      (Staged.sight s)) origins staged' :=
    Pointwise.comp hstaged hwritten fun _ _ _ hs ht ↦ hs.receives ht
  have hhooks : ∀ kind exclude, Keeps (List.Forall₂ (fun o s ↦ Target.Receives o a.view.registry
      patch' (Staged.sight s)) origins)
      (Staged.onFleet (Hooks.call a.files a.view.registry kind exclude)) :=
    Staged.keeps_callHooks_target (I := fun o t ↦ Target.Receives o a.view.registry patch' t.sight) _
  have hletGo : Keeps (List.Forall₂ (fun o s ↦ Target.Receives o a.view.registry
      patch' (Staged.sight s)) origins) (Each.forEach (Staged.letGo a.files)) :=
    Each.keeps_forEach fun o _ ↦ Staged.keeps_letGo_target
      (I := fun t ↦ o.Receives a.view.registry patch' t.sight)
  refine Triple.bind ((hhooks _ _).mono (fun _ h ↦ h ▸ hreceived) (fun _ _ h ↦ h) hstop) fun _ ↦ ?_
  exact Triple.bind (hletGo.mono (fun _ h ↦ h) (fun _ _ h ↦ h) hstop) fun _ ↦
    Triple.pure fun _ h ↦ ⟨hroomy, h⟩

end Activation

namespace PatchRecord

/-- A patch as a process gets it that it is installed in again: without the functions that a thread
of the process is found inside. -/
def sparingIn (patch : PatchRecord) (registry : Registry) (p : AttachedProcess) : PatchRecord :=
  patch.sparing registry p.pid (p.target.threads.map Thread.ip)

/-- A replay brings the patch into a process that has room for it, but for the functions that a
thread is inside. -/
theorem receives_replay {o : Target} {p : AttachedProcess} {patch : PatchRecord}
    {registry : Registry} {image : Mapping}
    (himage : registry.mapping? o.pid patch.token = some image)
    (hroom : o.HasRoom image.base image.size) (hp : p.target.gate.LetsGo) (hpid : p.pid = o.pid)
    (files : FileTree) :
    Triple (fun s ↦ Staged.UnderWay p 0 s ∧ o.StaysIn false s.process.target)
      (patch.replay files registry)
      (fun _ s ↦ o.Receives registry (patch.sparingIn registry p) s.sight) fun _ ↦ True := by
  have hboth : ∀ {α : Type} {act : StagedM α} {before after : Bool},
      Keeps (Staged.UnderWay p 0) act →
      Triple (fun s ↦ o.StaysIn before (Staged.process s).target) act
        (fun _ s ↦ o.StaysIn after s.process.target) (fun s ↦ o.StaysIn after s.process.target) →
      Triple (fun s ↦ Staged.UnderWay p 0 s ∧ o.StaysIn before s.process.target) act
        (fun _ s ↦ Staged.UnderWay p 0 s ∧ o.StaysIn after s.process.target) fun _ ↦ True :=
    fun h h' ↦ (h.and h').mono (fun _ h ↦ h) (fun _ _ h ↦ h) fun _ _ ↦ trivial
  have hhooks : ∀ {I : Target → Prop} hooks, Keeps (fun s ↦ I (Staged.process s).target)
      (Staged.onProcess (callHooks files registry hooks)) := fun hooks ↦
    Staged.triple_onProcess (keeps_callHooks_of (fun r base ↦ r.keeps_callIn_target files base) hooks)
  have hreferences : ∀ allocates records, Keeps
      (fun s ↦ o.StaysIn allocates (Staged.process s).target)
      (Staged.onProcess (PatchSteps.redirectReferences registry patch.token records)) :=
    fun allocates records ↦ Staged.triple_onProcess
      ((Target.staysIn_allowsPatch himage hroom).redirectReferences records)
  have hunderWay : ∀ records, Keeps (Staged.UnderWay p 0)
      (Staged.onProcess (PatchSteps.redirectReferences registry patch.token records)) :=
    fun _ ↦ Staged.underWay_onProcess (PatchSteps.underWay_redirectReferences hp _ _ _)
  unfold replay
  refine Triple.bind (hboth (Staged.underWay_hold files) Staged.keeps_hold_target) fun _ ↦ ?_
  refine Triple.bind (hboth (underWay_callHooks files registry _) (hhooks _)) fun _ ↦ ?_
  refine Triple.bind (hboth (hunderWay _) (hreferences false _)) fun _ ↦ ?_
  refine Triple.bind (hboth (Staged.underWay_onProcess (PatchSteps.underWay_prepareEntry hp _ _))
    (Staged.triple_onProcess ((Target.staysIn_allowsPatch himage hroom).prepareEntry rfl))) fun _ ↦ ?_
  refine Triple.bind (hboth (Staged.underWay_onProcess (PatchSteps.underWay_callEntryPoint hp _ _ _))
    (Staged.triple_onProcess ((Target.staysIn_allowsEntry himage hroom).callEntryPoint rfl files)))
    fun _ ↦ ?_
  refine Triple.bind (hboth (hunderWay _) (hreferences true _)) fun _ ↦
    Triple.of_pre fun s ⟨hunder, hstays⟩ ↦ ?_
  -- the threads are where they were found, and all older memory is as it was
  have hredirect : Triple (· = s) (patch.redirectFunctions registry)
      (fun _ t ↦ o.Receives registry (patch.sparingIn registry p) t.sight) fun _ ↦ True := by
    intro _ heq
    rw [heq, patch.run_redirectFunctions s]
    refine ((patch.triple_redirectFunctions s).mono (fun _ h ↦ h) (fun _ t ht ↦ ?_)
      fun _ h ↦ h) s ⟨rfl, rfl⟩
    have hips : s.ips = p.target.threads.map Thread.ip := congrArg _ hunder.2.threads
    have hwritten := ht.written
    rw [hips, show s.process.pid = p.pid from hstays.pid.trans hpid.symm] at hwritten
    exact hstays.receives hwritten
  refine Triple.bind hredirect fun _ ↦ ?_
  refine Triple.bind ((hhooks (I := fun t ↦ o.Receives registry (patch.sparingIn registry p) t.sight)
    _).mono (fun _ h ↦ h) (fun _ _ h ↦ h) fun _ _ ↦ trivial) fun _ ↦ ?_
  exact (Staged.keeps_letGo_target
    (I := fun t ↦ o.Receives registry (patch.sparingIn registry p) t.sight)).mono
    (fun _ h ↦ h) (fun _ _ h ↦ h) fun _ _ ↦ trivial

end PatchRecord

/-- Loading a patch maps it at the base that is answered, or nothing. -/
theorem AttachedProcess.triple_loadPatch_of {I : Target → Prop} {J : UInt64 → Target → Prop}
    (hkept : ∀ base t, I t → J base t) (hmap : ∀ base bytes t, I t → J base (t.map base bytes))
    (files : FileTree) (path : Path) :
    Triple (fun p ↦ I (AttachedProcess.target p)) (loadPatch files path)
      (fun found p ↦ ∀ base, found = some base → J base p.target) fun _ ↦ True := by
  have hstop : ∀ {I : AttachedProcess → Prop}, ∀ p, I p → True := fun _ _ ↦ trivial
  have hserve : Triple (fun p ↦ I (AttachedProcess.target p))
      (serve files (.loadPatch path)) (fun reply p ↦ ∀ base, reply = .patchLoaded (some base) →
        J base p.target) fun _ ↦ True := by
    refine Triple.bind_get fun p hp ↦ ?_
    have hmap : ∀ base bytes, Triple (· = p)
        (do set ({ p with target := p.target.map base bytes } : AttachedProcess)
            pure (Reply.patchLoaded (some base)) : ProcessM Reply)
        (fun reply p ↦ ∀ base, reply = .patchLoaded (some base) → J base p.target)
        fun _ ↦ True := by
      intro base bytes
      refine Triple.bind (R := fun _ q ↦ J base q.target)
        (Triple.set fun _ _ ↦ hmap base bytes _ hp) fun _ ↦ Triple.pure fun q hq base' hreply ↦ ?_
      cases hreply
      exact hq
    split
    · exact Triple.pure fun _ _ _ hreply ↦ by cases hreply
    · refine Triple.bind_lift (fun image _ ↦ ?_) hstop
      cases p.agent.loadAt with
      | some base => exact hmap base image.data
      | none => exact Triple.bind_lift (fun base _ ↦ hmap base image.data) hstop
  have hexchange : Triple (fun p ↦ I (AttachedProcess.target p))
      (exchange files (.loadPatch path)) (fun reply p ↦ ∀ base, reply = .patchLoaded (some base) →
        J base p.target) fun _ ↦ True := by
    refine Triple.bind_get fun p hp ↦ Triple.bind
      (R := fun _ q ↦ I (AttachedProcess.target q)) (Triple.set fun _ _ ↦ hp) fun _ ↦ ?_
    split
    · exact Triple.fail hstop
    · exact Triple.pure fun _ hq base _ ↦ hkept base _ hq
    · exact hserve
  refine Triple.bind hexchange fun reply ↦ ?_
  split
  · refine Triple.pure fun p hp base hbase ↦ hp base ?_
    rw [hbase]
  · exact Triple.fail hstop

/-- Loading a patch into a process maps it at the base that is answered, or nothing. -/
theorem LoadState.triple_load_of {I : Target → Prop} {J : UInt64 → Target → Prop}
    (hI : Target.IgnoresThreads I) (hkept : ∀ base t, I t → J base t)
    (hmap : ∀ base bytes t, I t → J base (t.map base bytes)) (moduleSize : UInt32) (path : Path)
    (inPlace : Bool) :
    Triple (fun s ↦ I (LoadState.process s).target) (load moduleSize path inPlace)
      (fun found s ↦ ∀ base, found = some base → J base s.process.target) fun _ ↦ True := by
  have hstop : ∀ {I : LoadState → Prop}, ∀ s, I s → True := fun _ _ ↦ trivial
  have hroom : ∀ size, Keeps (fun s ↦ I (LoadState.process s).target)
      (findRoom moduleSize size) := fun size ↦
    Keeps.get.bind fun _ ↦ triple_onProcess (AttachedProcess.triple_target
      (hI.suspended_act (Placement.keeps_freeRegionNear hI.isRangeFree _ _ _)))
  refine Triple.bind (Keeps.get.mono (fun _ h ↦ h) (fun _ _ h ↦ h) hstop) fun _ ↦
    Triple.bind_lift (fun size _ ↦ Triple.bind ((hroom size).mono (fun _ h ↦ h) (fun _ _ h ↦ h) hstop)
      fun room ↦ ?_) hstop
  cases room with
  | none =>
    refine Triple.pure fun _ _ _ h ↦ ?_
    cases h
  | some base =>
    have hplace := @keeps_placeAt path inPlace base fun p ↦ I p.target
    refine Triple.bind (hplace.mono (fun _ h ↦ h) (fun _ _ h ↦ h) hstop) fun file ↦
       Triple.bind (Keeps.get.mono (fun _ h ↦ h) (fun _ _ h ↦ h) hstop) fun _ ↦ ?_
    exact triple_onProcess (AttachedProcess.triple_loadPatch_of hkept hmap _ file)

/-- Loading a patch into a process leaves all older memory as it was if its base was clear. -/
theorem LoadState.staysIn_load {o : Target} (moduleSize : UInt32) (path : Path) (inPlace : Bool) :
    Triple (fun s ↦ o.StaysIn false (LoadState.process s).target) (load moduleSize path inPlace)
      (fun found s ↦ ∀ base, found = some base → o.memory.IsClear base →
        o.StaysIn false s.process.target) fun _ ↦ True :=
  triple_load_of (J := fun base t ↦ o.memory.IsClear base → o.StaysIn false t)
    Target.staysIn_ignoresThreads (fun _ _ h _ ↦ h)
    (fun _ _ _ h hclear ↦ ⟨h.pid, h.memory.map hclear _, h.nextAllocation⟩) moduleSize path inPlace

namespace Target

/-- A process in which nothing came to be mapped but an image, if there is a base of one, and nothing
was allocated. It refuses what it refused. -/
structure Admits (o : Target) (base : Option UInt64) (t : Target) : Prop where
  refuses : t.gate.refuses = o.gate.refuses
  nextAllocation : t.nextAllocation = o.nextAllocation
  mapped : ∀ a, t.memory.isMapped a = true → o.memory.isMapped a = true ∨ base = some a

variable {o t : Target} {base : Option UInt64}

theorem Admits.refl (o : Target) : o.Admits none o := ⟨rfl, rfl, fun _ ↦ .inl⟩

theorem admits_ignoresThreads : IgnoresThreads (o.Admits base) where
  counted := fun _ ht ↦ ⟨ht.refuses, ht.nextAllocation, ht.mapped⟩
  flushed := fun ht ↦ ⟨ht.refuses, ht.nextAllocation, ht.mapped⟩
  suspended := fun _ ht ↦ ⟨ht.refuses, ht.nextAllocation, ht.mapped⟩
  changed := fun _ _ ht ↦ ⟨ht.refuses, ht.nextAllocation, ht.mapped⟩

theorem Admits.map (h : o.Admits none t) (base : UInt64) (bytes : Bytes) :
    o.Admits (some base) (t.map base bytes) := by
  refine ⟨h.refuses, h.nextAllocation, fun a ha ↦ ?_⟩
  obtain ⟨r, hr, hra⟩ := List.any_eq_true.mp ha
  have hbefore : r ∈ t.memory.regions → o.memory.isMapped a = true := fun hr ↦
    (h.mapped a (List.any_eq_true.mpr ⟨r, hr, hra⟩)).resolve_right nofun
  rcases List.mem_append.mp hr with hr | hr
  · exact .inl (hbefore (List.mem_filter.mp hr).1)
  · rcases List.mem_cons.mp hr with rfl | hr
    · exact .inr (congrArg some (by simpa using hra))
    · exact .inl (hbefore (List.mem_filter.mp hr).1)

/-- The page of a cave is not taken where an image came into room of its own. -/
theorem Admits.isMapped_page {base : UInt64} {size : UInt32} (h : o.Admits (some base) t)
    (hroom : o.HasRoom base size) : t.memory.isMapped t.nextAllocation = false := by
  rw [h.nextAllocation, Bool.eq_false_iff]
  intro hpage
  rcases h.mapped _ hpage with hmapped | hbase
  · rw [hroom.page.isMapped (by decide)] at hmapped
    cases hmapped
  · exact hroom.apart (Option.some.inj hbase)

theorem Admits.isTolerant (h : o.Admits base t) (ho : o.gate.IsTolerant) : t.gate.IsTolerant := by
  unfold Gate.IsTolerant
  rw [h.refuses]
  exact ho

end Target

/-- Loading a patch into a process maps nothing else, and no more is allocated. -/
theorem LoadState.admits_load {o : Target} (moduleSize : UInt32) (path : Path) (inPlace : Bool) :
    Triple (fun s ↦ o.Admits none (LoadState.process s).target) (load moduleSize path inPlace)
      (fun found s ↦ ∀ base, found = some base → o.Admits (some base) s.process.target)
      fun _ ↦ True :=
  triple_load_of (J := fun base ↦ o.Admits (some base)) Target.admits_ignoresThreads
    (fun _ _ h ↦ ⟨h.refuses, h.nextAllocation, fun a ha ↦ (h.mapped a ha).imp_right nofun⟩)
    (fun base bytes _ h ↦ h.map base bytes) moduleSize path inPlace

end LivePatch
