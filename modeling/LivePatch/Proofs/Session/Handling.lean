import LivePatch.Proofs.Session.Consistency

/-!
# What a session does to its processes

Cycles and installations of earlier patches load patches into processes, activate them there, take
activations back, make the edits of patches again, unload patches and inform agents. A relation
between what a process was and what it is that all of these keep is kept by the whole operation,
whatever it comes to.
-/

namespace LivePatch

/-! ### Cycles as a beginning and an activation -/

/-- What is to be activated: a patch that lies in all processes. -/
structure Launch where
  activation : Activation
  objects : List (ObjectTable × List String)
  patch : PatchRecord
  bases : List UInt64

namespace LiveModule

/-- Gives up a patch that is loaded and enrolled. -/
def giveUp (token : Token) (bases : List UInt64) : CycleM CycleOutcome := do
  unload bases
  modify fun m ↦ { m with registry := m.registry.discard token }
  abandon .activateError

/-- Collects what is to be activated, unless an object file cannot be read. -/
def gather (patch : PatchRecord) (p : Prepared) (image : Image) (needed : PathSet)
    (stripped : Stripped) (bases : List UInt64) : CycleM (CycleOutcome ⊕ Launch) := do
  match ← ExceptT.lift (needed.toList.mapM fun o ↦ inWorkshop (Workshop.object o)).run with
  | .error .fault => throw .fault
  | .error (.error _) => return .inl (← giveUp patch.token bases)
  | .ok objects =>
    let m ← get
    return .inr ⟨⟨m.files, ⟨m.registry, patch.token, p.tables⟩, image⟩,
      objects.map fun o ↦ (o, stripped.namesIn o.path), patch, bases⟩

/-- Activates a patch in all processes. When that fails, everything is taken back. -/
def launch (l : Launch) : CycleM CycleOutcome := do
  let m ← get
  match (l.activation.run l.objects l.patch).run (m.processes.map Staged.ofProcess) with
  | (.ok patch, staged) =>
    set { m with processes := staged.map Staged.process }
    finish patch
  | (.error .fault, _) => throw .fault
  | (.error (.error _), staged) =>
    set { m with processes := staged.map (Staged.revert m.files) }
    giveUp l.patch.token l.bases

/-- Activates a patch, unless a cycle ended before. -/
def launchUnless : CycleOutcome ⊕ Launch → CycleM CycleOutcome
  | .inl outcome => pure outcome
  | .inr l => launch l

theorem activate_eq (patch : PatchRecord) (p : Prepared) (image : Image) (needed : PathSet)
    (stripped : Stripped) (bases : List UInt64) :
    activate patch p image needed stripped bases
      = gather patch p image needed stripped bases >>= launchUnless := by
  unfold activate gather
  rw [bind_assoc]
  refine bind_congr fun objects ↦ ?_
  rcases objects with (_ | _) | objects
  · simp [launchUnless, giveUp]
  · rfl
  · rfl

/-- Loads a linked patch into all processes. -/
def loadLinked (path : Path) (needed : PathSet) (stripped : Stripped) :
    CycleM (CycleOutcome ⊕ Launch) := do
  let p ← prepare path
  let m ← get
  let moduleSize := m.registry.moduleSize
  let r ← LoadRun.loadEach moduleSize path true m.files p.image m.processes
  set { m with workshop := { m.workshop with files := r.files }, processes := r.processes }
  if !r.isComplete then
    unload r.bases
    return .inl (← abandon .loadError)
  else if ← LoadRun.isInReach moduleSize p.size r.bases r.processes then
    let token ← enroll path p r.bases
    gather (.bare path token p.size p.entryPoint) p r.image needed stripped r.bases
  else
    unload r.bases
    return .inl (← abandon .activateError)

theorem install_eq (path : Path) (needed : PathSet) (stripped : Stripped) :
    install path needed stripped = loadLinked path needed stripped >>= launchUnless := by
  unfold install loadLinked
  simp only [bind_assoc]
  refine bind_congr fun p ↦ bind_congr fun m ↦ bind_congr fun r ↦ bind_congr fun _ ↦ ?_
  split
  · simp [launchUnless]
  · simp only [bind_assoc]
    refine bind_congr fun isInReach ↦ ?_
    split
    · simp only [bind_assoc, activate_eq]
    · simp [launchUnless]

/-- Strips, links and loads what is pending. -/
def linkPending : CycleM (CycleOutcome ⊕ Launch) := do
  let m ← get
  if m.pending.isEmpty then return .inl .noChange
  let recompiled := m.pending
  let owners ← inWorkshop (Closure.symbolOwners m.compilands recompiled)
  let needed ← inWorkshop (Closure.needed m.compilands m.registry owners recompiled)
  let strategy := m.settings.strategyFor (m.settings.linkerFor (← get).files m.linker.linker)
  let stripped ← inWorkshop
    (Stripped.strip m.registry recompiled owners strategy needed.toList)
  let linked ← ExceptT.lift (link needed recompiled).run
  let restored ← ExceptT.lift (inWorkshop stripped.restore).run
  let linked ← (linked : Outcome Linked)
  restored
  if !linked.output.isSuccess then
    callHooks .compileError
    return .inl (.linkError linked.output.exitCode)
  loadLinked linked.image needed stripped

theorem build_eq : build = linkPending >>= launchUnless := by
  unfold build linkPending
  simp only [bind_assoc]
  refine bind_congr fun m ↦ ?_
  split
  · rfl
  · simp only [bind_assoc]
    refine bind_congr fun owners ↦ bind_congr fun needed ↦ bind_congr fun m' ↦
      bind_congr fun stripped ↦ bind_congr fun linked ↦ bind_congr fun restored ↦
      bind_congr fun linked ↦ bind_congr fun _ ↦ ?_
    split
    · simp [launchUnless]
    · exact install_eq _ _ _

/-- Loads a patch, unless a cycle ended before. -/
def linkUnless : Option CycleOutcome → CycleM (CycleOutcome ⊕ Launch)
  | some outcome => pure (.inl outcome)
  | none => linkPending

/-- How cycles begin: with all that they do up to their activation. -/
inductive Begins : CycleM (CycleOutcome ⊕ Launch) → CycleM CycleOutcome → Prop where
  | update : Begins (compileChanged >>= linkUnless) update
  | updateWithObjects (objects : List Path) :
    Begins (acceptAll objects >>= linkUnless) (updateWithObjects objects)

variable {begin : CycleM (CycleOutcome ⊕ Launch)} {act : CycleM CycleOutcome}

/-- Whatever cycles do after their beginning, they do to activate a patch. -/
theorem Begins.eq (h : Begins begin act) : act = begin >>= launchUnless := by
  have hbuild : ∀ ended, buildUnless ended = linkUnless ended >>= launchUnless := by
    intro ended
    cases ended with
    | some outcome => rfl
    | none => exact build_eq
  cases h with
  | update =>
    rw [update_eq, bind_assoc]
    exact bind_congr hbuild
  | updateWithObjects objects =>
    rw [updateWithObjects_eq, bind_assoc]
    exact bind_congr hbuild

/-- The operations that edit processes. -/
inductive EditsProcesses : {α : Type} → CycleM α → Prop where
  | update : EditsProcesses update
  | updateWithObjects (objects : List Path) : EditsProcesses (updateWithObjects objects)
  | installPatches (pid : UInt32) : EditsProcesses (installPatches pid)

end LiveModule

/-! ### Loading and unloading -/

/-- A relation between what each of some processes was and what it is that is kept by loading and
unloading patches and by informing agents. -/
structure KeptByLoading (fleet : Fleet) (I : AttachedProcess → AttachedProcess → Prop) : Prop where
  informed : ∀ {p q r}, I p q → q.Informed r → I p r
  load : ∀ p ∈ fleet, ∀ moduleSize path inPlace,
    Keeps (fun s ↦ I p s.process) (LoadState.load moduleSize path inPlace)
  unload : ∀ p ∈ fleet, ∀ files base,
    Keeps (I p) (AttachedProcess.tell files (.unloadPatch base))

namespace KeptByLoading

open LiveModule

variable {fleet : Fleet} {I : AttachedProcess → AttachedProcess → Prop}

/-- The relation holds of every process of a module. -/
def All (fleet : Fleet) (I : AttachedProcess → AttachedProcess → Prop) (m : LiveModule) : Prop :=
  List.Forall₂ I fleet m.processes

variable (h : KeptByLoading fleet I)

include h

theorem ignoresBooks : IgnoresBooks (All fleet I) where
  work := fun _ _ hm ↦ hm
  informing := fun hinformed hm ↦ Pointwise.comp hm hinformed fun _ _ _ ↦ h.informed
  books := fun _ _ _ hm ↦ hm

theorem loadEach {moduleSize : UInt32} {path : Path} {isFirst : Bool} {files : FileTree}
    {image : Image} {processes : Fleet} {r : LoadRun} (hprocesses : List.Forall₂ I fleet processes)
    (hr : LoadRun.loadEach moduleSize path isFirst files image processes = .ok r) :
    List.Forall₂ I fleet r.processes := by
  have hload := h.load
  clear h
  induction hprocesses generalizing isFirst files image r with
  | nil =>
    cases hr
    exact .nil
  | @cons p q fleet rest hhead htail ih =>
    have hloaded := (hload p (List.mem_cons_self ..) moduleSize path isFirst).run
      (s := ⟨files, image, q⟩) hhead
    unfold LoadRun.loadEach at hr
    generalize (LoadState.load moduleSize path isFirst).run ⟨files, image, q⟩ = loaded
      at hloaded hr
    rcases loaded with ⟨(_ | _) | _ | base, s⟩
    · cases hr
      exact .cons hloaded htail
    · cases hr
    · cases hr
      exact .cons hloaded htail
    · obtain ⟨more, hmore, hr⟩ := Outcome.bind_eq_ok_iff.mp hr
      cases hr
      exact .cons hloaded (ih hmore fun p hp ↦ hload p (List.mem_cons_of_mem _ hp))

theorem unloadEach (files : FileTree) (bases : List UInt64) {processes : Fleet}
    (hprocesses : List.Forall₂ I fleet processes) :
    List.Forall₂ I fleet (LoadRun.unloadEach files bases processes) := by
  have hunload := h.unload
  clear h
  induction hprocesses generalizing bases with
  | nil => cases bases <;> exact .nil
  | @cons p q fleet rest hhead htail ih =>
    cases bases with
    | nil => exact .cons hhead htail
    | cons base bases =>
      exact .cons ((hunload p (List.mem_cons_self ..) files base).run hhead)
        (ih bases fun p hp ↦ hunload p (List.mem_cons_of_mem _ hp))

theorem unloads (bases : List UInt64) : Keeps (All fleet I) (LiveModule.unload bases) :=
  Keeps.modify fun m hm ↦ h.unloadEach m.files bases hm

theorem givesUp (token : Token) (bases : List UInt64) : Keeps (All fleet I) (giveUp token bases) :=
  (h.unloads bases).bind fun _ ↦ Keeps.bind (Keeps.modify fun _ hm ↦ hm) fun _ ↦
    h.ignoresBooks.abandon _

theorem gathers (patch : PatchRecord) (p : Prepared) (image : Image) (needed : PathSet)
    (stripped : Stripped) (bases : List UInt64) :
    Keeps (All fleet I) (gather patch p image needed stripped bases) := by
  refine Keeps.bind (Keeps.tried (Keeps.mapM fun object _ ↦ h.ignoresBooks.inWorkshop _))
    fun result ↦ ?_
  split
  · exact Keeps.throw _
  · exact (h.givesUp _ _).bind fun _ ↦ Keeps.pure _
  · exact Keeps.get.bind fun _ ↦ Keeps.pure _

theorem loadsLinked (path : Path) (needed : PathSet) (stripped : Stripped) :
    Keeps (All fleet I) (loadLinked path needed stripped) := by
  have hgiveUp : ∀ bases outcome, Keeps (All fleet I) (do
      LiveModule.unload bases
      return .inl (← abandon outcome) : CycleM (CycleOutcome ⊕ Launch)) := fun bases outcome ↦
    (h.unloads bases).bind fun _ ↦ (h.ignoresBooks.abandon outcome).bind fun _ ↦ Keeps.pure _
  refine (h.ignoresBooks.prepare path).bind fun p ↦ Triple.bind_get fun m hm ↦ ?_
  refine Triple.bind_lift (fun r hr ↦ ?_) fun _ hs ↦ hs ▸ hm
  refine Triple.bind (R := fun _ ↦ All fleet I) (Triple.set fun _ _ ↦ h.loadEach hm hr) fun _ ↦ ?_
  split
  · exact hgiveUp _ _
  · refine (Keeps.lift _).bind fun isInReach ↦ ?_
    split
    · have henroll : Keeps (All fleet I) (enroll path p r.bases) :=
        Triple.bind_get fun m hm ↦ Triple.bind (R := fun _ ↦ All fleet I)
          (Triple.set fun _ _ ↦ hm) fun _ ↦ Keeps.pure _
      exact henroll.bind fun _ ↦ h.gathers _ _ _ _ _ _
    · exact hgiveUp _ _

theorem linksPending : Keeps (All fleet I) linkPending := by
  have hbooks := h.ignoresBooks
  refine Keeps.get.bind fun m ↦ ?_
  split
  · exact Keeps.pure _
  · refine (hbooks.inWorkshop _).bind fun owners ↦ (hbooks.inWorkshop _).bind fun needed ↦
      Keeps.get.bind fun _ ↦ (hbooks.inWorkshop _).bind fun stripped ↦
      (hbooks.link _ _).tried.bind fun linked ↦ (hbooks.inWorkshop _).tried.bind fun restored ↦
      (Keeps.lift _).bind fun linked ↦ (Keeps.lift _).bind fun _ ↦ ?_
    split
    · exact (hbooks.callHooks _).bind fun _ ↦ Keeps.pure _
    · exact h.loadsLinked _ _ _

/-- What loading and unloading keep is kept by cycles up to their activation. -/
theorem begins {begin : CycleM (CycleOutcome ⊕ Launch)} {act : CycleM CycleOutcome}
    (hbegins : Begins begin act) : Keeps (All fleet I) begin := by
  have hlink : ∀ ended, Keeps (All fleet I) (linkUnless ended) := by
    intro ended
    cases ended with
    | some outcome => exact Keeps.pure _
    | none => exact h.linksPending
  cases hbegins with
  | update => exact h.ignoresBooks.compileChanged.bind hlink
  | updateWithObjects objects => exact (h.ignoresBooks.acceptAll objects).bind hlink

end KeptByLoading

/-! ### All that sessions do -/

/-- A relation between what each of some processes was and what it is, and one for the time of an
activation, that are kept by everything which sessions do to processes. -/
structure KeptByHandling (fleet : Fleet) (I : AttachedProcess → AttachedProcess → Prop)
    (J : AttachedProcess → Staged → Prop) : Prop extends KeptByLoading fleet I where
  pid : ∀ {p q}, I p q → q.pid = p.pid
  starts : ∀ {p q}, I p q → J p (.ofProcess q)
  run : ∀ (a : Activation) objects patch, Keeps (List.Forall₂ J fleet) (a.run objects patch)
  replay : ∀ p ∈ fleet, ∀ (patch : PatchRecord) files registry,
    Keeps (J p) (patch.replay files registry)
  ends : ∀ {p s}, J p s → I p s.process
  revert : ∀ p ∈ fleet, ∀ files {s}, J p s → I p (s.revert files)

namespace KeptByHandling

open KeptByLoading LiveModule

variable {fleet : Fleet} {I : AttachedProcess → AttachedProcess → Prop}
  {J : AttachedProcess → Staged → Prop} (h : KeptByHandling fleet I J)

include h

theorem launches (l : Launch) : Keeps (All fleet I) (launch l) := by
  refine Triple.bind_get fun m hm ↦ ?_
  have hstaged : List.Forall₂ J fleet (m.processes.map Staged.ofProcess) :=
    List.forall₂_map_right_iff.mpr (List.Forall₂.imp (fun _ _ ↦ h.starts) hm)
  split
  · next hok =>
    have hrun := (h.run _ _ _).run_eq hstaged hok
    refine Triple.bind (R := fun _ ↦ All fleet I) (Triple.set fun _ _ ↦
      List.forall₂_map_right_iff.mpr (List.Forall₂.imp (fun _ _ ↦ h.ends) hrun)) fun _ ↦ ?_
    exact h.ignoresBooks.clearPending.bind fun _ ↦ Keeps.bind (Keeps.modify fun _ hm ↦ hm) fun _ ↦
      Keeps.pure _
  · exact Triple.throw fun _ hs ↦ hs ▸ hm
  · next herror =>
    have hrun := (h.run _ _ _).run_eq hstaged herror
    exact Triple.bind (R := fun _ ↦ All fleet I) (Triple.set fun _ _ ↦
      List.forall₂_map_right_iff.mpr
        (Pointwise.imp_of_mem hrun fun p hp _ _ ↦ h.revert p hp m.files)) fun _ ↦ h.givesUp _ _

/-- What everything keeps that sessions do to processes is kept by cycles. -/
theorem cycles {begin : CycleM (CycleOutcome ⊕ Launch)} {act : CycleM CycleOutcome}
    (hbegins : Begins begin act) : Keeps (All fleet I) act := by
  rw [hbegins.eq]
  refine (h.begins hbegins).bind fun begun ↦ ?_
  cases begun with
  | inl outcome => exact Keeps.pure _
  | inr l => exact h.launches l

variable (hdistinct : (fleet.map AttachedProcess.pid).Nodup)

include hdistinct

/-- A process is put into the place of what it was. -/
theorem putProcess {m : LiveModule} (hm : All fleet I m) {p q : AttachedProcess} (hp : p ∈ fleet)
    (hq : I p q) : All fleet I (m.putProcess q) := by
  refine List.forall₂_map_right_iff.mpr (Pointwise.imp_of_mem hm fun p' hp' q' _ hq' ↦ ?_)
  split
  · next heq =>
    have hpid : p'.pid = p.pid := (h.pid hq').symm.trans (heq.trans (h.pid hq))
    rwa [List.inj_on_of_nodup_map hdistinct hp' hp hpid]
  · exact hq'

theorem unloadsFrom {p q : AttachedProcess} (hp : p ∈ fleet) (hq : I p q) (base : UInt64) :
    Keeps (All fleet I) (unloadFrom q base) :=
  Keeps.modify fun m hm ↦ h.putProcess hdistinct hm hp ((h.unload p hp m.files base).run hq)

theorem replaysLoaded (patch : PatchRecord) {p q : AttachedProcess} (hp : p ∈ fleet) (hq : I p q)
    (base : UInt64) : Keeps (All fleet I) (replayLoaded patch q base) := by
  refine Keeps.bind (Keeps.modify fun m hm ↦ hm) fun _ ↦ Triple.bind_get fun m hm ↦ ?_
  split
  · next hok =>
    exact Triple.set fun _ _ ↦ h.putProcess hdistinct hm hp
      (h.ends ((h.replay p hp patch _ _).run_eq (h.starts hq) hok))
  · exact Triple.throw fun _ hs ↦ hs ▸ hm
  · next herror =>
    have hreverted := h.revert p hp m.files
      ((h.replay p hp patch _ _).run_eq (h.starts hq) herror)
    refine Triple.bind (R := fun _ ↦ All fleet I)
      (fun s hs ↦ h.unloadsFrom hdistinct hp hreverted base s (hs ▸ hm)) fun _ ↦ ?_
    exact Keeps.bind (Keeps.modify fun _ hm ↦ hm) fun _ ↦ Keeps.throw _

theorem replays (pid : UInt32) (patch : PatchRecord) :
    Keeps (All fleet I) (LiveModule.replay pid patch) := by
  refine Triple.bind_get fun m hm ↦ ?_
  have hstop : ∀ s, s = m → All fleet I s := fun _ hs ↦ hs ▸ hm
  dsimp only
  split
  · exact Triple.fail hstop
  · next q hq =>
    obtain ⟨p, hp, hpq⟩ := Pointwise.exists_left hm (List.mem_of_find?_eq_some hq)
    refine Triple.bind_lift (fun image _ ↦ ?_) hstop
    have hload := (h.load p hp m.registry.moduleSize patch.path false).run
      (s := ⟨m.files, image, q⟩) hpq
    generalize (LoadState.load m.registry.moduleSize patch.path false).run _ = loaded at hload
    obtain ⟨result, s⟩ := loaded
    refine Triple.bind (R := fun _ ↦ All fleet I)
      (Triple.set fun _ _ ↦ h.putProcess hdistinct (m := { m with workshop := _ }) hm hp hload)
      fun _ ↦ (Keeps.lift _).bind fun found ↦ ?_
    cases found with
    | none => exact Keeps.fail _
    | some base =>
      refine (Keeps.lift _).bind fun isInReach ↦ ?_
      split
      · exact h.replaysLoaded hdistinct patch hp hload base
      · exact (h.unloadsFrom hdistinct hp hload base).bind fun _ ↦ Keeps.fail _

theorem installsPatches (pid : UInt32) : Keeps (All fleet I) (installPatches pid) := by
  refine Keeps.get.bind fun m ↦ ?_
  split
  · exact Keeps.pure _
  · split
    · exact Keeps.fail _
    · exact Keeps.forM fun patch _ ↦ h.replays hdistinct pid patch

/-- What everything keeps that sessions do to processes is kept by whole operations. -/
theorem keeps {α : Type} {act : CycleM α} (hact : EditsProcesses act) : Keeps (All fleet I) act := by
  cases hact with
  | update => exact h.cycles .update
  | updateWithObjects objects => exact h.cycles (.updateWithObjects objects)
  | installPatches pid => exact h.installsPatches hdistinct pid

end KeptByHandling
end LivePatch
