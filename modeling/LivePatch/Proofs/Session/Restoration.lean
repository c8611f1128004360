import LivePatch.Proofs.Session.Consistency

/-!
# Restoration after a failed activation

Installing a patch either works or leaves no trace: when an activation fails, wherever it fails,
every process has the memory, the threads and the marks that it had before the patch was loaded, and
the module has the registry and the patches that it had. So has installing an earlier patch into one
process.
-/

namespace LivePatch

/-- Nothing was mapped where a patch is loaded into room of its own. -/
theorem Target.HasRoom.isMapped {t : Target} {base : UInt64} {size : UInt32}
    (h : t.HasRoom base size) : t.memory.isMapped base = false :=
  h.image.isMapped (by omega)

namespace AttachedProcess

variable {p p' p'' : AttachedProcess}

/-- A process that was restored and strayed nowhere after that. -/
theorem IsRestored.trans_within (h : p.IsRestored p') (h' : p'.Within (.at .none) p'') :
    p.IsRestored p'' := by
  have h' := h'.isRestored rfl rfl rfl
  exact ⟨h'.pid.trans h.pid, h'.memory.trans h.memory, h'.threads.trans h.threads,
    h'.suspensions.trans h.suspensions, h'.redirected.trans h.redirected,
    h'.moduleBase.trans h.moduleBase, h'.commandThread.trans h.commandThread⟩

/-- A process is what it is. -/
theorem IsRestored.refl (p : AttachedProcess) : p.IsRestored p :=
  ⟨rfl, rfl, rfl, rfl, rfl, rfl, rfl⟩

/-- A process whose agent is honest and whose gate refuses nothing that taking back is made of. -/
structure IsCooperative (p : AttachedProcess) : Prop where
  agent : p.agent.IsHonest
  gate : p.target.gate.IsTolerant

/-- A process is ready for activation once a patch was loaded into room of its own. -/
theorem IsLoaded.isReady {base : UInt64} {size : UInt32} (h : p.IsLoaded base p')
    (hgate : p.target.gate.IsTolerant) (hroom : p.target.HasRoom base size) {registry : Registry}
    {token : Token}
    (hmap : ∀ image, registry.mapping? p.pid token = some image → image = ⟨base, size⟩) :
    Host.IsReady ⟨p', base⟩ registry token := by
  obtain ⟨bytes, hloaded⟩ := h
  have hagrees := hloaded.target.memory
  have hmapped : (p.withPatch base bytes).target.memory.isMapped base = true :=
    List.any_eq_true.mpr ⟨⟨base, bytes⟩, List.mem_append_right _ (List.mem_cons_self ..), by simp⟩
  have hmem : ∀ r ∈ (p.withPatch base bytes).target.memory.regions,
      r = ⟨base, bytes⟩ ∨ r ∈ p.target.memory.regions := by
    intro r hr
    rcases List.mem_append.mp hr with hr | hr
    · exact .inr (List.mem_filter.mp hr).1
    · exact (List.mem_cons.mp hr).imp_right fun hr ↦ (List.mem_filter.mp hr).1
  refine ⟨hloaded.target.isTolerant hgate, fun image himage ↦ ?_, ?_⟩
  · rw [show p'.pid = p.pid from hloaded.target.pid] at himage
    rw [hmap image himage]
    refine ⟨hagrees.isFree fun r hr ↦ ?_, hagrees.isMapped base ▸ hmapped⟩
    rcases hmem r hr with rfl | hr
    · exact .inl fun _ ↦ rfl
    · rcases hroom.image r hr with h | h | h
      · exact h.elim
      · exact .inr (.inl h)
      · exact .inr (.inr (by simp only at h ⊢; omega))
  · rw [show p'.target.nextAllocation = p.target.nextAllocation from
      hloaded.target.nextAllocation rfl, ← hagrees.isMapped, Bool.eq_false_iff]
    intro hpage
    obtain ⟨r, hr, hb⟩ := List.any_eq_true.mp hpage
    have hb : r.base = p.target.nextAllocation := by simpa using hb
    rcases hmem r hr with rfl | hr
    · exact hroom.apart hb
    · have := hroom.page.isMapped (by decide)
      rw [← hb, Bool.eq_false_iff] at this
      exact this (List.any_eq_true.mpr ⟨r, hr, by simp⟩)

end AttachedProcess

namespace PatchRecord

variable {h : Host} {registry : Registry} (patch : PatchRecord)

/-- Redirecting functions again keeps a process reversible. -/
theorem keeps_redirectFunctions {allocates : Bool} (hh : h.IsReady registry patch.token) :
    Keeps (Staged.Reversible 0 allocates h) (patch.redirectFunctions registry) := by
  refine Triple.bind ((Staged.triple_suspend_reversible hh.gate).mono (fun _ hs ↦ hs)
    (fun _ _ hs ↦ hs) fun _ hs ↦ hs.elim) fun _ ↦ ?_
  have hredirect : Keeps (Staged.Reversible 1 allocates h) (do
      let ips ← Staged.onTarget Target.threadIps
      PatchSteps.redirectFunctions registry patch ips true) :=
    (Staged.keeps_onProcess_reversible hh fun _ _ _ ↦
      AttachedProcess.keeps_onTarget Target.keeps_threadIps).bind fun ips ↦
        PatchSteps.keeps_redirectFunctions patch hh.owns ips true
  exact Triple.ensuring hredirect (fun _ _ hs ↦ (Staged.triple_resume_reversible hh.gate).run_of_ok hs)
    fun _ hs ↦ (Staged.triple_resume_reversible hh.gate).run_of_ok hs

/-- Calling recorded hooks changes nothing. -/
theorem keeps_callHooks {l : Leeway} {p : AttachedProcess} (files : FileTree)
    (hooks : Option HookRecord) : Keeps (p.Within l) (callHooks files registry hooks) := by
  unfold callHooks
  split
  · exact Keeps.get.bind fun _ ↦ HookRecord.keeps_replay _ _ _
  · exact Keeps.pure _

/-- Wherever making recorded edits again stops, the process is reversible. -/
theorem triple_replay (files : FileTree) (hh : h.IsReady registry patch.token) :
    Triple (Staged.Reversible 0 false h) (patch.replay files registry)
      (fun _ ↦ Staged.Reversible 0 true h) (Staged.Reversible 0 true h) := by
  have hbefore : ∀ {α : Type} {act : StagedM α}, Keeps (Staged.Reversible 0 false h) act →
      Triple (Staged.Reversible 0 false h) act (fun _ ↦ Staged.Reversible 0 false h)
        (Staged.Reversible 0 true h) := fun hact ↦
    hact.mono (fun _ hs ↦ hs) (fun _ _ hs ↦ hs) fun _ hs ↦ hs.allocated
  have hhooks : ∀ allocates hooks, Keeps (Staged.Reversible 0 allocates h)
      (Staged.onProcess (callHooks files registry hooks)) := fun _ _ ↦
    Staged.keeps_onProcess_reversible hh fun _ _ _ ↦ keeps_callHooks files _
  have hreferences : ∀ allocates records, Keeps (Staged.Reversible 0 allocates h)
      (Staged.onProcess (PatchSteps.redirectReferences registry patch.token records)) :=
    fun allocates records ↦ Staged.keeps_onProcess_reversible hh fun _ hp hown ↦
      PatchSteps.keeps_redirectReferences (l := ⟨.region h.base, 0, [], allocates⟩) hp hown records
  unfold replay
  refine Triple.bind (hbefore (Staged.keeps_hold files hh)) fun _ ↦ ?_
  refine Triple.bind (hbefore (hhooks _ _)) fun _ ↦ ?_
  refine Triple.bind (hbefore (hreferences _ _)) fun _ ↦ ?_
  refine Triple.bind (hbefore (Staged.keeps_onProcess_reversible hh fun _ hp hown ↦
    PatchSteps.keeps_prepareEntry (l := ⟨.region h.base, 0, [], false⟩) patch hp hown)) fun _ ↦ ?_
  refine Triple.bind (Staged.triple_callEntryPoint files hh) fun _ ↦ ?_
  refine Keeps.bind (hreferences _ _) fun _ ↦ ?_
  refine Keeps.bind (keeps_redirectFunctions patch hh) fun _ ↦ ?_
  exact Keeps.bind (hhooks _ _) fun _ ↦ Staged.keeps_letGo files hh

end PatchRecord

namespace LiveModule

/-- A module that is as it was, as far as its processes, its registry and its patches go. -/
structure IsRestored (m m' : LiveModule) : Prop where
  processes : List.Forall₂ AttachedProcess.IsRestored m.processes m'.processes
  registry : m'.registry = m.registry
  patches : m'.patches = m.patches

variable {m m' : LiveModule}

/-- Hooks leave a restored module restored. -/
theorem keeps_callHooks_restored (kind : HookKind) : Keeps m.IsRestored (callHooks kind) := by
  refine Keeps.get.bind fun s ↦ Keeps.bind (Keeps.of_run fun s' hs ↦ ⟨?_, hs.registry, hs.patches⟩)
    fun _ ↦ Keeps.pure _
  have hquiet := (Hooks.keeps_call (o := id) (l := fun _ ↦ .at .none) s.files s.registry kind
    none).run (s := s'.processes) (List.forall₂_same.mpr fun p _ ↦ .refl ..)
  exact Pointwise.comp hs.processes hquiet fun _ _ _ h h' ↦ h.trans_within h'

/-- Bookkeeping after a failure leaves a restored module restored. -/
theorem keeps_abandon_restored (outcome : CycleOutcome) :
    Keeps m.IsRestored (abandon outcome) := by
  have hclear : Keeps m.IsRestored clearPending :=
    Keeps.get.bind fun _ ↦ (Keeps.forM fun _ _ ↦ Keeps.modify fun _ hs ↦
      ⟨hs.processes, hs.registry, hs.patches⟩).bind fun _ ↦
        Keeps.modify fun _ hs ↦ ⟨hs.processes, hs.registry, hs.patches⟩
  exact hclear.bind fun _ ↦ (keeps_tolerating (keeps_callHooks_restored _)).bind fun _ ↦
    Keeps.pure _

/-- The loads of a patch into the processes find room of their own. -/
def HasRoomFor (m : LiveModule) (path : Path) : Prop :=
  ∀ p m' r, (prepare path).run m = (.ok p, m') →
    LoadRun.loadEach m'.registry.moduleSize path true m'.files p.image m'.processes = .ok r →
    ∀ h ∈ LoadRun.hosts m.processes r.bases, h.process.target.HasRoom h.base p.size

/-- Disabling the entry point of a linked patch leaves the processes alone. -/
theorem triple_prepare (path : Path) :
    Triple (· = m) (prepare path) (fun _ s ↦ s.processes = m.processes ∧
      s.registry = m.registry ∧ s.patches = m.patches) fun _ ↦ True := by
  have hkeeps : Keeps (fun s ↦ s.processes = m.processes ∧ s.registry = m.registry ∧
      s.patches = m.patches) (prepare path) := by
    refine Keeps.get.bind fun _ ↦ (Keeps.lift _).bind fun image ↦ ?_
    split
    · exact Keeps.throw _
    · exact (Keeps.of_run fun _ hs ↦ hs).bind fun _ ↦ (Keeps.lift _).bind fun _ ↦
        Keeps.get.bind fun _ ↦ (Keeps.lift _).bind fun _ ↦ Keeps.pure _
  exact hkeeps.mono (by rintro _ rfl; exact ⟨rfl, rfl, rfl⟩) (fun _ _ hs ↦ hs) fun _ _ ↦ trivial

/-- A module whose processes have a patch loaded at bases and strayed only in its region. -/
structure IsPatched (m : LiveModule) (bases : List UInt64) (allocates : Bool) (registry : Registry)
    (s : LiveModule) : Prop where
  processes : List.Forall₂ (fun h p ↦ ∃ bytes, (h.process.withPatch h.base bytes).Within
    ⟨.region h.base, 0, [], allocates⟩ p) (LoadRun.hosts m.processes bases) s.processes
  registry : s.registry = registry
  patches : s.patches = m.patches

variable {bases : List UInt64} {allocates : Bool} {registry : Registry}

/-- Unloading a patch takes back that it was loaded and all that happened in its region. -/
theorem triple_unload (hlength : bases.length = m.processes.length)
    (hhosts : ∀ h ∈ LoadRun.hosts m.processes bases,
      h.process.target.memory.isMapped h.base = false ∧ h.process.agent.IsHonest) :
    Triple (m.IsPatched bases allocates registry) (unload bases)
      (fun _ s ↦ { m with registry := registry }.IsRestored s) fun _ ↦ True :=
  Triple.modify fun s hs ↦ ⟨LoadRun.isRestored_unloadEach s.files hlength hhosts hs.processes,
    hs.registry, hs.patches⟩

/-- Unloading a patch and dropping its entry takes an installation back. -/
theorem triple_takeBack (hm : m.IsConsistent) (hlength : bases.length = m.processes.length)
    (hhosts : ∀ h ∈ LoadRun.hosts m.processes bases,
      h.process.target.memory.isMapped h.base = false ∧ h.process.agent.IsHonest)
    (image : RegisteredImage) (outcome : CycleOutcome) :
    Triple (m.IsPatched bases allocates (m.registry.append image)) (do
        unload bases
        modify fun s ↦ { s with registry := s.registry.discard m.registry.next }
        abandon outcome) (fun _ ↦ m.IsRestored) fun _ ↦ True := by
  refine Triple.bind (triple_unload hlength hhosts) fun _ ↦ ?_
  refine Triple.bind (R := fun _ ↦ m.IsRestored) (Triple.modify fun s hs ↦
    ⟨hs.processes, ?_, hs.patches⟩) fun _ ↦ ?_
  · rw [hs.registry]
    exact Registry.discard_append m.registry image hm.registry
  · exact (keeps_abandon_restored outcome).mono (fun _ hs ↦ hs) (fun _ _ hs ↦ hs)
      fun _ _ ↦ trivial

/-- The hosts of a patch before and after it was loaded. -/
theorem hosts_isLoaded {fleet loaded : Fleet} (hlength : bases.length = fleet.length)
    (h : List.Forall₂ (fun h p ↦ h.process.IsLoaded h.base p) (LoadRun.hosts fleet bases) loaded) :
    List.Forall₂ (fun h h' ↦ h.base = h'.base ∧ h.process.IsLoaded h.base h'.process)
      (LoadRun.hosts fleet bases) (LoadRun.hosts loaded bases) := by
  induction bases generalizing fleet loaded with
  | nil =>
    cases fleet with
    | nil =>
      cases h
      exact .nil
    | cons p fleet => cases hlength
  | cons base bases ih =>
    cases fleet with
    | nil => cases hlength
    | cons p fleet =>
      cases h with
      | cons hp hrest => exact .cons ⟨rfl, hp⟩ (ih (Nat.succ.inj hlength) hrest)

/-- The mapping of a patch in the registry that it was just entered into. -/
theorem mapping?_of_enrolled {r : Registry} {image : RegisteredImage} {hosts : List Host}
    (himage : image.processes = hosts.map fun h ↦ ⟨h.process.pid, h.base⟩)
    (hdistinct : (hosts.map fun h ↦ h.process.pid).Nodup) {h : Host} (hh : h ∈ hosts)
    {mapping : Mapping} (hmap : (r.append image).mapping? h.process.pid r.next = some mapping) :
    mapping = ⟨h.base, image.size⟩ := by
  rw [Registry.mapping?_append, himage] at hmap
  obtain ⟨placed, hplaced, rfl⟩ := Option.map_eq_some_iff.mp hmap
  obtain ⟨h', hh', rfl⟩ := List.mem_map.mp (List.mem_of_find?_eq_some hplaced)
  have hpid : h'.process.pid = h.process.pid := by simpa using List.find?_some hplaced
  rw [List.inj_on_of_nodup_map hdistinct hh' hh hpid]

/-- Hosts have the processes of the fleet. -/
theorem hosts_self {fleet : Fleet} (hlength : bases.length = fleet.length) :
    List.Forall₂ (fun h p ↦ h.process = p) (LoadRun.hosts fleet bases) fleet := by
  induction bases generalizing fleet with
  | nil =>
    cases fleet with
    | nil => exact .nil
    | cons p fleet => cases hlength
  | cons base bases ih =>
    cases fleet with
    | nil => cases hlength
    | cons p fleet => exact .cons rfl (ih (Nat.succ.inj hlength))

/-- Hosts have the identifiers of the fleet. -/
theorem pids_hosts {fleet : Fleet} (hlength : bases.length = fleet.length) :
    (LoadRun.hosts fleet bases).map (fun h ↦ h.process.pid) = fleet.map AttachedProcess.pid := by
  rw [← List.forall₂_eq_eq_eq, List.forall₂_map_left_iff, List.forall₂_map_right_iff]
  exact List.Forall₂.imp (fun _ _ h ↦ congrArg AttachedProcess.pid h) (hosts_self hlength)

/-- A module whose processes have a patch loaded at bases, which is entered into the registry. -/
structure IsEnrolled (m : LiveModule) (bases : List UInt64) (image : RegisteredImage)
    (s : LiveModule) : Prop where
  loaded : List.Forall₂ (fun h p ↦ h.process.IsLoaded h.base p)
    (LoadRun.hosts m.processes bases) s.processes
  registry : s.registry = m.registry.append image
  entries : image.processes
    = (LoadRun.hosts s.processes bases).map fun h ↦ ⟨h.process.pid, h.base⟩
  patches : s.patches = m.patches

/-- What a module and its surroundings have to be like when a patch is loaded at bases. -/
structure Accepts (m : LiveModule) (bases : List UInt64) (size : UInt32) : Prop where
  isConsistent : m.IsConsistent
  cooperative : ∀ p ∈ m.processes, p.IsCooperative
  length : bases.length = m.processes.length
  room : ∀ h ∈ LoadRun.hosts m.processes bases, h.process.target.HasRoom h.base size

namespace Accepts

variable {size : UInt32} (h : m.Accepts bases size)

include h

theorem hosts : ∀ host ∈ LoadRun.hosts m.processes bases, host.process.IsCooperative := by
  intro host hhost
  obtain ⟨p, hp, rfl⟩ := Pointwise.exists_right (hosts_self h.length) hhost
  exact h.cooperative _ hp

theorem unloads : ∀ host ∈ LoadRun.hosts m.processes bases,
    host.process.target.memory.isMapped host.base = false ∧ host.process.agent.IsHonest :=
  fun host hhost ↦ ⟨(h.room host hhost).isMapped, (h.hosts host hhost).agent⟩

end Accepts

/-- Processes that a patch was loaded into strayed only in its region. -/
theorem isPatched_of_isLoaded {s : LiveModule}
    (hloaded : List.Forall₂ (fun h p ↦ h.process.IsLoaded h.base p)
      (LoadRun.hosts m.processes bases) s.processes)
    (hregistry : s.registry = registry) (hpatches : s.patches = m.patches) :
    m.IsPatched bases false registry s :=
  ⟨List.Forall₂.imp (fun _ _ ⟨bytes, h⟩ ↦ ⟨bytes, h.mono_places _ fun _ _ h ↦ h.elim⟩) hloaded,
    hregistry, hpatches⟩

/-- The processes of an enrolled patch have distinct identifiers. -/
theorem IsEnrolled.distinct {s : LiveModule} {image : RegisteredImage}
    (hs : m.IsEnrolled bases image s) (hm : m.IsConsistent)
    (hlength : bases.length = m.processes.length) :
    ((LoadRun.hosts s.processes bases).map fun h ↦ h.process.pid).Nodup := by
  have hpids : (LoadRun.hosts s.processes bases).map (fun h ↦ h.process.pid)
      = (LoadRun.hosts m.processes bases).map fun h ↦ h.process.pid := by
    rw [← List.forall₂_eq_eq_eq, List.forall₂_map_left_iff, List.forall₂_map_right_iff]
    exact List.Forall₂.imp (fun _ _ ⟨_, _, hloaded⟩ ↦ hloaded.target.pid)
      (hosts_isLoaded hlength hs.loaded).flip
  rw [hpids, pids_hosts hlength]
  exact hm.distinct

/-- Every process of an enrolled patch is ready for its activation. -/
theorem IsEnrolled.isReady {s : LiveModule} {image : RegisteredImage}
    (hs : m.IsEnrolled bases image s) (h : m.Accepts bases image.size) :
    ∀ host ∈ LoadRun.hosts s.processes bases, host.IsReady s.registry m.registry.next := by
  have hhosts := hosts_isLoaded h.length hs.loaded
  have hdistinct := hs.distinct h.isConsistent h.length
  intro host hhost
  obtain ⟨origin, horigin, hbase, hloaded⟩ := Pointwise.exists_left hhosts hhost
  have hpid : host.process.pid = origin.process.pid := by
    obtain ⟨_, hloaded⟩ := hloaded
    exact hloaded.target.pid
  have hmapped : ∀ mapping, s.registry.mapping? origin.process.pid m.registry.next = some mapping →
      mapping = ⟨origin.base, image.size⟩ := by
    intro mapping hmapping
    rw [hs.registry, ← hpid] at hmapping
    rw [hbase]
    exact mapping?_of_enrolled hs.entries hdistinct hhost hmapping
  have hready := hloaded.isReady (h.hosts origin horigin).gate (h.room origin horigin) hmapped
  rw [hbase] at hready
  exact hready

/-- A patch that was installed is no failure. -/
theorem triple_finish (patch : PatchRecord) :
    Triple (fun _ ↦ True) (finish patch) (fun outcome _ ↦ outcome = .success) fun _ ↦ True :=
  Triple.bind (Keeps.triv _) fun _ ↦ Triple.bind (Keeps.triv _) fun _ ↦ Triple.pure fun _ _ ↦ rfl

/-- The outcome of a cycle whose patch never became active is the one it was given up with. -/
theorem triple_abandon (outcome : CycleOutcome) :
    Triple (fun _ ↦ True) (abandon outcome) (fun result _ ↦ result = outcome) fun _ ↦ True :=
  Triple.bind (Keeps.triv _) fun _ ↦ Triple.bind (Keeps.triv _) fun _ ↦ Triple.pure fun _ _ ↦ rfl

/-- Before its activation every process of an enrolled patch is reversible. -/
theorem reversible_ofProcess {s : LiveModule} {image : RegisteredImage}
    (h : m.Accepts bases image.size) (hs : m.IsEnrolled bases image s) :
    Staged.AllReversible 0 false (LoadRun.hosts s.processes bases)
      (s.processes.map Staged.ofProcess) := by
  have hlength : bases.length = s.processes.length := by
    rw [← hs.loaded.length_eq, (hosts_self h.length).length_eq, h.length]
  rw [Staged.AllReversible, List.forall₂_map_right_iff]
  refine List.Forall₂.imp (fun host p heq ↦ ?_) (hosts_self hlength)
  rw [← heq]
  exact Staged.undoable_ofProcess _ _ _

/-- A process that was reverted strayed only in the region of the patch. -/
theorem within_of_reversible {s : LiveModule} {image : RegisteredImage} (files : FileTree)
    (h : m.Accepts bases image.size) (hs : m.IsEnrolled bases image s) {staged : List Staged}
    (hstaged : Staged.AllReversible 0 true (LoadRun.hosts s.processes bases) staged) :
    List.Forall₂ (fun h p ↦ ∃ bytes, (h.process.withPatch h.base bytes).Within
      ⟨.region h.base, 0, [], true⟩ p) (LoadRun.hosts m.processes bases)
      (staged.map (Staged.revert files)) := by
  have hreverted : List.Forall₂ (fun host p ↦ host.process.Within
      ⟨.region host.base, 0, [], true⟩ p) (LoadRun.hosts s.processes bases)
      (staged.map (Staged.revert files)) := by
    rw [List.forall₂_map_right_iff]
    exact Pointwise.imp_of_mem hstaged fun host hhost _ _ hr ↦
      hr.within_revert (hs.isReady h host hhost).gate files
  refine Pointwise.comp (hosts_isLoaded h.length hs.loaded) hreverted ?_
  rintro origin host p ⟨hbase, bytes, hloaded⟩ hp
  rw [← hbase] at hp
  have hfirst : (origin.process.withPatch origin.base bytes).Within
      ⟨.region origin.base, 0, [], true⟩ host.process :=
    ⟨(hloaded.target.allocated).mono_places _ fun _ _ h ↦ h.elim, hloaded.reacts,
      hloaded.commandThread, hloaded.moduleBase, hloaded.redirected⟩
  exact ⟨bytes, hfirst.trans hp⟩

/-- An activation that failed left no trace. -/
theorem triple_activate {image : RegisteredImage} (h : m.Accepts bases image.size)
    {patch : PatchRecord} (htoken : patch.token = m.registry.next) (p : Prepared) (file : Image)
    (needed : PathSet) (stripped : Stripped) :
    Triple (m.IsEnrolled bases image) (activate patch p file needed stripped bases)
      (fun outcome s ↦ outcome = .activateError → m.IsRestored s) fun _ ↦ True := by
  have htakeBack : ∀ allocates, Triple (m.IsPatched bases allocates (m.registry.append image)) (do
      unload bases
      modify fun s ↦ { s with registry := s.registry.discard patch.token }
      abandon .activateError) (fun outcome s ↦ outcome = .activateError → m.IsRestored s)
      fun _ ↦ True := fun allocates ↦ by
    rw [htoken]
    exact (triple_takeBack h.isConsistent h.length h.unloads image _).mono (fun _ hs ↦ hs)
      (fun _ _ hs _ ↦ hs) fun _ hs ↦ hs
  have hobjects : Keeps (m.IsEnrolled bases image)
      (needed.toList.mapM fun o ↦ inWorkshop (Workshop.object o)) :=
    Keeps.mapM fun _ _ ↦ Keeps.of_run fun _ hs ↦ ⟨hs.loaded, hs.registry, hs.entries, hs.patches⟩
  refine Triple.bind (hobjects.tried.mono (fun _ hs ↦ hs) (fun _ _ hs ↦ hs) fun _ _ ↦ trivial)
    fun result ↦ ?_
  split
  · exact Triple.throw fun _ _ ↦ trivial
  · exact (htakeBack false).mono
      (fun s hs ↦ isPatched_of_isLoaded hs.loaded hs.registry hs.patches) (fun _ _ hs ↦ hs)
      fun _ hs ↦ hs
  · refine Triple.bind_get fun s hs ↦ ?_
    dsimp only
    split
    · refine Triple.bind (R := fun _ _ ↦ True) (Triple.set fun _ _ ↦ trivial) fun _ ↦ ?_
      exact (triple_finish _).mono (fun _ hs ↦ hs) (fun _ _ ho hne ↦ by rw [ho] at hne; cases hne)
        fun _ hs ↦ hs
    · exact Triple.throw fun _ _ ↦ trivial
    · next herror =>
      refine Triple.bind (R := fun _ ↦ m.IsPatched bases true (m.registry.append image))
        (Triple.set fun _ _ ↦ ⟨?_, hs.registry, hs.patches⟩) fun _ ↦ htakeBack true
      exact within_of_reversible s.files h hs
        ((Activation.triple_run _ rfl (htoken ▸ hs.isReady h) _).error
          (reversible_ofProcess h hs) herror)

/-- Entering a loaded patch into the registry. -/
theorem triple_enroll (h : m.IsConsistent) (path : Path) (p : Prepared) {loaded : Fleet}
    (hlength : bases.length = loaded.length)
    (hpids : loaded.map AttachedProcess.pid = m.processes.map AttachedProcess.pid)
    (hloaded : List.Forall₂ (fun h p ↦ h.process.IsLoaded h.base p)
      (LoadRun.hosts m.processes bases) loaded) :
    Triple (fun s ↦ s.processes = loaded ∧ s.registry = m.registry ∧ s.patches = m.patches)
      (enroll path p bases)
      (fun token s ↦ token = m.registry.next ∧ m.IsEnrolled bases ⟨path, p.tables, p.size,
        (LoadRun.hosts loaded bases).map fun h ↦ ⟨h.process.pid, h.base⟩⟩ s) fun _ ↦ True := by
  refine Triple.bind_get fun s ⟨hprocesses, hregistry, hpatches⟩ ↦ ?_
  refine Triple.bind (R := fun _ s' ↦ m.IsEnrolled bases ⟨path, p.tables, p.size,
      (LoadRun.hosts loaded bases).map fun h ↦ ⟨h.process.pid, h.base⟩⟩ s')
    (Triple.set fun _ _ ↦ ⟨hprocesses ▸ hloaded, ?_, by rw [hprocesses], hpatches⟩) fun _ ↦
      Triple.pure fun _ hs' ↦ ⟨by rw [hregistry], hs'⟩
  have hzip : (loaded.zip bases).map (fun e ↦ e.1.pid) = m.processes.map AttachedProcess.pid := by
    change (loaded.zip bases).map (AttachedProcess.pid ∘ Prod.fst) = _
    rw [← hpids, ← List.map_map, List.map_fst_zip (Nat.le_of_eq hlength.symm)]
  have hfold := Registry.foldl_register_append m.registry ⟨path, p.tables, p.size, []⟩
    (loaded.zip bases) (fun e ↦ e.1.pid) (fun e ↦ e.2) (by
      rw [hzip]
      exact h.distinct)
  have hentries : (loaded.zip bases).map (fun e ↦ (⟨e.1.pid, e.2⟩ : Placed))
      = (LoadRun.hosts loaded bases).map fun h ↦ ⟨h.process.pid, h.base⟩ := by
    rw [LoadRun.hosts, List.zip, List.map_zipWith, List.map_zipWith]
  rw [hentries] at hfold
  rw [hprocesses, hregistry]
  exact hfold

/-- Installing a patch whose activation failed left no trace. -/
theorem triple_install (hm : m.IsConsistent) (hcooperative : ∀ p ∈ m.processes, p.IsCooperative)
    {path : Path} (hroom : m.HasRoomFor path) (needed : PathSet) (stripped : Stripped) :
    Triple (· = m) (install path needed stripped)
      (fun outcome s ↦ outcome = .activateError → m.IsRestored s) fun _ ↦ True := by
  refine Triple.bind (triple_prepare path).with_run fun p ↦ Triple.bind_get fun m' hm' ↦ ?_
  obtain ⟨hprepare, hprocesses, hregistry, hpatches⟩ := hm'
  refine Triple.bind_lift (fun r hr ↦ ?_) fun _ _ ↦ trivial
  refine Triple.bind (R := fun _ s ↦ s.processes = r.processes ∧ s.registry = m.registry ∧
    s.patches = m.patches) (Triple.set fun _ _ ↦ ⟨rfl, hregistry, hpatches⟩) fun _ ↦ ?_
  split
  · refine Triple.bind ((Keeps.triv _).mono (fun _ _ ↦ trivial) (fun _ _ hs ↦ hs) fun _ hs ↦ hs)
      fun _ ↦ (triple_abandon _).mono (fun _ hs ↦ hs) (fun _ _ ho hne ↦ ?_) fun _ hs ↦ hs
    rw [ho] at hne
    cases hne
  · next hcomplete =>
    have hcomplete : r.isComplete = true := by simpa using hcomplete
    have hloads := LoadRun.isLoaded_of_loadEach
      (fun p hp ↦ ⟨(hcooperative p (hprocesses ▸ hp)).agent, (hcooperative p (hprocesses ▸ hp)).gate⟩)
      hr hcomplete
    have hpids := LoadRun.are_loadEach (Fleet.are_iff.mpr rfl) hr
    rw [hprocesses] at hloads hpids
    obtain ⟨hlength, hloaded⟩ := hloads
    have haccepts : m.Accepts r.bases p.size :=
      ⟨hm, hcooperative, hlength, hroom p m' r hprepare hr⟩
    refine Triple.bind_lift (fun isInReach _ ↦ ?_) fun _ _ ↦ trivial
    split
    · refine Triple.bind (triple_enroll hm path p (hlength.trans ?_) (Fleet.are_iff.mp hpids)
        hloaded) fun token ↦ Triple.of_pre fun s hs ↦ ?_
      · rw [← hpids.length_eq, List.length_map]
      · obtain ⟨rfl, hs⟩ := hs
        exact (triple_activate haccepts rfl p r.image needed stripped).mono (fun _ h ↦ h ▸ hs)
          (fun _ _ h ↦ h) fun _ h ↦ h
    · refine Triple.bind ((triple_unload hlength haccepts.unloads).mono
        (fun s ⟨hs, hregistry, hpatches⟩ ↦
          isPatched_of_isLoaded (hs ▸ hloaded) hregistry hpatches) (fun _ _ hs ↦ hs)
        fun _ hs ↦ hs) fun _ ↦ ?_
      exact (keeps_abandon_restored (m := m) _).mono (fun _ hs ↦ hs) (fun _ _ hs _ ↦ hs)
        fun _ _ ↦ trivial

section Replaying

variable {p p' : AttachedProcess} {pid : UInt32}

/-- A module is restored when one of its processes was and the others were left alone. -/
theorem isRestored_of_putProcess (hm : m.IsConsistent) (hp : p ∈ m.processes)
    (h : p.IsRestored p') {s : LiveModule} (hprocesses : s.processes = (m.putProcess p').processes)
    (hregistry : s.registry = m.registry) (hpatches : s.patches = m.patches) :
    m.IsRestored s := by
  refine ⟨?_, hregistry, hpatches⟩
  rw [hprocesses, putProcess, List.forall₂_map_right_iff, List.forall₂_same]
  intro q hq
  split
  · next heq =>
    rw [List.inj_on_of_nodup_map hm.distinct hq hp (heq.trans h.pid)]
    exact h
  · exact .refl q

/-- Of two processes that take one place after another, the second stays. -/
theorem processes_putProcess {s : LiveModule} {q : AttachedProcess} (hpid : p.pid = q.pid)
    (h : s.processes = (m.putProcess p).processes) :
    (s.putProcess q).processes = (m.putProcess q).processes := by
  unfold putProcess at *
  rw [h, List.map_map]
  refine List.map_congr_left fun r _ ↦ ?_
  rw [Function.comp_apply]
  by_cases hr : r.pid = p.pid
  · rw [if_pos hr, if_pos hpid, if_pos (hr.trans hpid)]
  · rw [if_neg hr]

/-- The load of an earlier patch into a process finds room of its own. -/
def HasRoomIn (m : LiveModule) (pid : UInt32) (patch : PatchRecord) : Prop :=
  ∀ p image base s, m.process? pid = some p → Image.load m.files patch.path = .ok image →
    (LoadState.load m.registry.moduleSize patch.path false).run ⟨m.files, image, p⟩
      = (.ok (some base), s) →
    p.target.HasRoom base (((m.registry.get? patch.token).map RegisteredImage.size).getD 0)

/-- What making the edits of a loaded patch again comes to. -/
theorem run_replayLoaded (patch : PatchRecord) (p : AttachedProcess) (base : UInt64)
    (s : LiveModule) :
    (replayLoaded patch p base).run s =
      match (patch.replay s.files (s.registry.register patch.token p.pid base)).run
        (.ofProcess p) with
      | (.ok (), t) => (.ok ⟨⟩, { s with
          registry := s.registry.register patch.token p.pid base }.putProcess t.process)
      | (.error .fault, _) => (.error .fault, { s with
          registry := s.registry.register patch.token p.pid base })
      | (.error (.error e), t) => (.error (.error (e.within (.activating patch.path))),
          { s.putProcess ((AttachedProcess.tell s.files (.unloadPatch base)).run
              (t.revert s.files)).2 with
            registry := (s.registry.register patch.token p.pid base).forget patch.token p.pid }) := by
  simp only [replayLoaded, run_bind, run_modify, run_get, files]
  rcases (patch.replay s.workshop.files _).run (.ofProcess p) with ⟨(_ | _) | _, t⟩ <;> rfl

/-- Making the edits of a patch that was loaded again either works or leaves no trace. -/
theorem isRestored_of_replayLoaded (hm : m.IsConsistent) (hp : p ∈ m.processes)
    (hcooperative : p.IsCooperative) {patch : PatchRecord}
    (hnew : Registry.baseOf? (m.registry.bases p.pid) patch.token = none) {base : UInt64}
    (hroom : p.target.HasRoom base
      (((m.registry.get? patch.token).map RegisteredImage.size).getD 0))
    (hloaded : p.IsLoaded base p') {s s' : LiveModule} {e : Error}
    (hprocesses : s.processes = (m.putProcess p').processes)
    (hregistry : s.registry = m.registry) (hpatches : s.patches = m.patches)
    (hrun : (replayLoaded patch p' base).run s = (.error (.error e), s')) :
    m.IsRestored s' := by
  have hpid : p'.pid = p.pid := by
    obtain ⟨_, hloaded⟩ := hloaded
    exact hloaded.target.pid
  have hready : Host.IsReady ⟨p', base⟩ (s.registry.register patch.token p'.pid base)
      patch.token := by
    refine hloaded.isReady hcooperative.gate hroom fun image himage ↦ ?_
    rw [hpid, hregistry, Registry.mapping?_register] at himage
    obtain ⟨i, hi, rfl⟩ := Option.map_eq_some_iff.mp himage
    rw [hi]
    rfl
  have hreplay := patch.triple_replay s.files hready (.ofProcess p') (Staged.undoable_ofProcess ..)
  rw [run_replayLoaded] at hrun
  generalize (patch.replay s.files _).run (Staged.ofProcess p') = r at hreplay hrun
  rcases r with ⟨(e' | _) | _, t⟩
  · have hreverted := hreplay.within_revert hready.gate s.files
    have hrestored : p.IsRestored
        ((AttachedProcess.tell s.files (.unloadPatch base)).run (t.revert s.files)).2 := by
      obtain ⟨bytes, hloaded⟩ := hloaded
      have hfirst : (p.withPatch base bytes).Within ⟨.region base, 0, [], true⟩ p' :=
        ⟨(hloaded.target.allocated).mono_places _ fun _ _ h ↦ h.elim, hloaded.reacts,
          hloaded.commandThread, hloaded.moduleBase, hloaded.redirected⟩
      exact AttachedProcess.isRestored_unload hroom.isMapped hcooperative.agent
        (hfirst.trans hreverted) s.files
    cases hrun
    refine isRestored_of_putProcess hm hp hrestored ?_ ?_ hpatches
    · exact processes_putProcess (hpid.trans hrestored.pid.symm) hprocesses
    · rw [← hregistry, ← hpid] at hnew
      exact (Registry.forget_register hnew base).trans hregistry
  · cases hrun
  · cases hrun

/-- Whether a patch is in reach is answered, or not at all. -/
theorem isWithinReach_ne_error (base size otherBase otherSize : UInt64) (e : Error) :
    Placement.isWithinReach base size otherBase otherSize ≠ .error (.error e) := by
  unfold Placement.isWithinReach
  generalize Placement.range = range
  cases Word.add64? base size with
  | none => simp [orFault, bind, Except.bind]
  | some stop =>
    cases Word.add64? otherBase otherSize with
    | none => simp [orFault, bind, Except.bind]
    | some otherStop =>
      simp only [orFault, bind, Except.bind]
      cases Word.sub64? (max stop otherStop) (min base otherBase) <;>
        simp [pure, Except.pure]

/-- Installing an earlier patch into a process either works or leaves no trace. -/
theorem isRestored_of_replay (hm : m.IsConsistent)
    (hcooperative : ∀ p ∈ m.processes, p.IsCooperative) {patch : PatchRecord}
    (hnew : Registry.baseOf? (m.registry.bases pid) patch.token = none)
    (hroom : m.HasRoomIn pid patch) {s : LiveModule} {e : Error}
    (hrun : (replay pid patch).run m = (.error (.error e), s)) : m.IsRestored s := by
  have hrefl : m.IsRestored m := ⟨List.forall₂_same.mpr fun p _ ↦ .refl p, rfl, rfl⟩
  unfold replay at hrun
  rw [run_bind, run_get] at hrun
  dsimp only at hrun
  cases hprocess : m.process? pid with
  | none =>
    rw [hprocess] at hrun
    cases hrun
    exact hrefl
  | some p =>
    have hp : p ∈ m.processes := List.mem_of_find?_eq_some hprocess
    have hpid : p.pid = pid := by simpa using List.find?_some hprocess
    have hcooperates := hcooperative p hp
    simp only [hprocess, run_bind, run_lift] at hrun
    cases himage : Image.load m.files patch.path with
    | error stop =>
      rw [himage] at hrun
      cases hrun
      exact hrefl
    | ok image =>
      have hload := LoadState.triple_load hcooperates.agent hcooperates.gate m.registry.moduleSize
        patch.path false ⟨m.files, image, p⟩ (.refl ..)
      have hroom := hroom p image
      simp only [himage] at hrun
      generalize (LoadState.load m.registry.moduleSize patch.path false).run _ = loaded
        at hload hroom hrun
      obtain ⟨result, t⟩ := loaded
      simp only [run_bind, run_set, run_lift] at hrun
      -- the files that loading wrote are no part of what is restored
      have hput : ∀ {q : AttachedProcess} {s : LiveModule}, p.IsRestored q →
          s.processes = (m.putProcess q).processes → s.registry = m.registry →
          s.patches = m.patches → m.IsRestored s := fun h hprocesses ↦
        isRestored_of_putProcess hm hp h hprocesses
      cases result with
      | error stop =>
        cases hrun
        exact hput (hload.isRestored rfl rfl rfl) rfl rfl rfl
      | ok found =>
        cases found with
        | none =>
          cases hrun
          exact hput (AttachedProcess.Within.isRestored hload rfl rfl rfl) rfl rfl rfl
        | some base =>
          have hroom := hroom base t hprocess himage rfl
          have hloaded : p.IsLoaded base t.process := hload
          dsimp only at hrun
          simp only [run_bind, run_lift] at hrun
          cases hreach : Placement.isWithinReach p.moduleBase m.registry.moduleSize.toUInt64 base
              patch.imageSize.toUInt64 with
          | error stop =>
            rw [hreach] at hrun
            cases hrun
            exact absurd hreach (isWithinReach_ne_error _ _ _ _ e)
          | ok isInReach =>
            simp only [hreach] at hrun
            cases isInReach with
            | true =>
              rw [if_pos rfl] at hrun
              rw [← hpid] at hnew
              refine isRestored_of_replayLoaded hm hp hcooperates hnew hroom hloaded ?_ ?_ ?_ hrun
              · rfl
              · rfl
              · rfl
            | false =>
              obtain ⟨bytes, hloaded⟩ := hloaded
              have hunloaded : p.IsRestored
                  ((AttachedProcess.tell t.files (.unloadPatch base)).run t.process).2 :=
                AttachedProcess.isRestored_unload hroom.isMapped hcooperates.agent
                  (hloaded.mono_places _ fun _ _ h ↦ h.elim) t.files
              cases hrun
              refine hput hunloaded ?_ rfl rfl
              exact processes_putProcess
                (Eq.trans hloaded.target.pid hunloaded.pid.symm) rfl

end Replaying

/-- Installing a patch works or leaves no trace. Wherever activation fails once the patch is loaded,
every process has the memory, the threads, the suspensions and the marks it had before, and the
module has its registry and its patches; an earlier patch that cannot be installed into one process
leaves no trace either. The agents serve what they are told to unload and load where there is room,
and the processes refuse nothing that taking back is made of. -/
theorem failed_installation_leaves_no_trace (m : LiveModule) (hm : m.Reachable)
    (hcooperative : ∀ p ∈ m.processes, p.IsCooperative) :
    (∀ path needed stripped, m.HasRoomFor path →
      ((install path needed stripped).run m).1 = .ok .activateError →
      m.IsRestored ((install path needed stripped).run m).2) ∧
    ∀ pid patch e, m.HasRoomIn pid patch →
      Registry.baseOf? (m.registry.bases pid) patch.token = none →
      ((replay pid patch).run m).1 = .error (.error e) →
      m.IsRestored ((replay pid patch).run m).2 := by
  have hconsistent := hm.isConsistent
  constructor
  · intro path needed stripped hroom hfailed
    have hinstall := triple_install hconsistent hcooperative hroom needed stripped m rfl
    generalize (install path needed stripped).run m = r at hinstall hfailed ⊢
    obtain ⟨outcome, s⟩ := r
    simp only at hfailed
    subst hfailed
    exact hinstall rfl
  · intro pid patch e hroom hnew hfailed
    exact isRestored_of_replay hconsistent hcooperative hnew hroom (Prod.ext hfailed rfl)

/-- The bases that a linked patch is loaded at. -/
def loadBases (m : LiveModule) (path : Path) : List UInt64 :=
  match (prepare path).run m with
  | (.ok p, m) =>
    match LoadRun.loadEach m.registry.moduleSize path true m.files p.image m.processes with
    | .ok r => r.bases
    | .error _ => []
  | (.error _, _) => []

theorem hasRoomFor_of_loadBases {m : LiveModule} {path : Path} {bases : List UInt64}
    (hbases : m.loadBases path = bases)
    (hroom : ∀ h ∈ LoadRun.hosts m.processes bases, ∀ size, h.process.target.HasRoom h.base size) :
    m.HasRoomFor path := by
  intro p m' r hprepare hload h hh
  unfold loadBases at hbases
  rw [hprepare] at hbases
  dsimp only at hbases
  rw [hload] at hbases
  subst hbases
  exact hroom h hh p.size

/-- The base that an earlier patch is loaded at in a process. -/
def loadBase? (m : LiveModule) (p : AttachedProcess) (patch : PatchRecord) : Option UInt64 :=
  match Image.load m.files patch.path with
  | .ok image =>
    match (LoadState.load m.registry.moduleSize patch.path false).run ⟨m.files, image, p⟩ with
    | (.ok base?, _) => base?
    | (.error _, _) => none
  | .error _ => none

theorem hasRoomIn_of_loadBase? {m : LiveModule} {pid : UInt32} {p : AttachedProcess}
    {patch : PatchRecord} {base : UInt64} (hprocess : m.process? pid = some p)
    (hbase : m.loadBase? p patch = some base) (hroom : ∀ size, p.target.HasRoom base size) :
    m.HasRoomIn pid patch := by
  intro q image base' s hq himage hload
  obtain rfl : p = q := Option.some.inj (hprocess.symm.trans hq)
  unfold loadBase? at hbase
  rw [himage] at hbase
  dsimp only at hbase
  rw [hload] at hbase
  cases hbase
  exact hroom _

/-! A module with a function that was compiled again, in whose process the agent breaks off at the
last command of an activation. -/

namespace Rebuilt

/-- A function, with room for a jump in front of it, and code that can be an entry point. -/
def code : List UInt8 :=
  List.replicate 5 0xcc ++ [0x31, 0xc0, 0xc3] ++ List.replicate 5 0xcc
    ++ [0x31, 0xc0, 0xff, 0xc0, 0xc3] ++ List.replicate 26 0xcc

/-- A linked image without sections, which has the code in an unused part of its headers. -/
def image (entry : UInt8) : Bytes :=
  (([0x4d, 0x5a, 0, 0, 0x50, 0x45, 0, 0] : List UInt8) ++ List.replicate 16 0
    ++ [112, 0, 0, 0, 0x0b, 0x02] ++ List.replicate 14 0 ++ [entry, 0, 0, 0] ++ List.replicate 4 0
    ++ [0, 0, 1, 0x40, 1, 0, 0, 0] ++ [4, 0, 0, 0] ++ List.replicate 20 0 ++ [0, 0x10, 0, 0]
    ++ [140, 0, 0, 0] ++ code ++ [0, 0, 0, 0]).toArray

/-- An object file with the function, which refers to a variable by distance. -/
def object : Bytes :=
  (([0x64, 0x86, 1, 0, 0, 0, 0, 0, 78, 0, 0, 0, 2, 0, 0, 0, 0, 0, 0, 0] : List UInt8)
    ++ [0x2e, 0x74, 0x65, 0x78, 0x74, 0, 0, 0] ++ List.replicate 8 0
    ++ [8, 0, 0, 0, 60, 0, 0, 0, 68, 0, 0, 0, 0, 0, 0, 0, 1, 0, 0, 0] ++ [0x20, 0, 0, 0x60]
    ++ List.replicate 8 0 ++ [0, 0, 0, 0, 1, 0, 0, 0, 4, 0]
    ++ [0x66, 0, 0, 0, 0, 0, 0, 0, 0, 0, 0, 0, 1, 0, 0x20, 0, 2, 0]
    ++ [0x78, 0, 0, 0, 0, 0, 0, 0, 0, 0, 0, 0, 0, 0, 0, 0, 2, 0] ++ [4, 0, 0, 0]).toArray

/-- The files of the module, of the object and of a patch. -/
def files : FileTree := { FileTree.empty with
  nodes := [(["m"], .file (image 0) (.written 0)), (["f"], .file object (.written 0)),
    (["p"], .file (image 105) (.written 0))] }

/-- The images have the function, and the module has the variable. -/
def tables (path : Path) : ImageTables :=
  ⟨⟨("f", 97) :: if path = ⟨"/m"⟩ then [("x", 112)] else [], [], []⟩, .empty, .empty, .empty, []⟩

/-- How the module was linked. -/
def linker : LinkerRecord := ⟨⟨"link"⟩, ⟨"database"⟩, "", ⟨""⟩, []⟩

/-- Tables with these symbols alone. -/
def provider : Provider where
  symbols path := .ok (tables path).symbols
  contributions _ := .ok .empty
  compilands _ := .ok .empty
  thunks _ := .ok .empty
  sections _ := .ok []
  linker _ := .ok linker

/-- The files, and a linker that writes a patch. -/
def workshop : Workshop :=
  ⟨files, .empty, fun _ t ↦
    (.ok ⟨0, ""⟩, t.put ["m.patch_0.dll"] (.file (image 105) (.written 1))), []⟩

/-- A process with the code of the module. -/
def process (agent : Agent) : AttachedProcess where
  target := ((Target.ofPid 7).map 0x14000005c code.toArray).spawn 0x140000004
  agent := agent
  commandThread := none
  moduleBase := 0x140000000
  redirected := []

/-- The module when it was just loaded. -/
def started : LiveModule where
  settings := .default
  path := ⟨"/m"⟩
  linker := linker
  weakSymbols := []
  provider := provider
  workshop := workshop
  registry := Registry.empty.insert ⟨"/m"⟩ (tables ⟨"/m"⟩) 0x1000
  compilands := CompilandTable.empty.timed files
  processes := []
  patches := []
  modified := ∅
  pending := ∅
  counter := 0

/-- The module with its process. -/
def session (agent : Agent) : LiveModule := ((attach (process agent)).run started).2

/-- A cycle for the object file. -/
def cycle : CycleM CycleOutcome := updateWithObjects [⟨"/f"⟩]

/-- What the cycle builds. The function of the module leads to the one of the patch, and that refers
to the variable of the module. -/
def patch : PatchRecord :=
  { PatchRecord.bare ⟨"/m.patch_0.dll"⟩ ⟨1⟩ 0x1000
      (some ⟨105, #[0x31, 0xc0, 0xff, 0xc0, 0xc3, 0xcc]⟩) with
    preEntry := [⟨.relative 0, 97, ⟨0⟩, 112, 0⟩]
    functions := [⟨"f", ⟨0⟩, 97, 97, .indirection, []⟩] }

/-- The session behind the cycle. -/
def cycled : Outcome CycleOutcome × LiveModule := cycle.run started

/-- The session when the process is attached only then. -/
def joined (agent : Agent) : Outcome Unit × LiveModule := (attach (process agent)).run cycled.2

/-- An agent that serves every command but the last of an activation. -/
def unplugged : Agent :=
  { Agent.willing with
    reacts := fun c _ ↦ if c.name = .leaveSyncPoint then .breaks else .serves }

/-- What installing the patch in the process that was there from the beginning comes to. -/
def installed : Outcome CycleOutcome × LiveModule :=
  (install ⟨"/p"⟩ (.ofList [⟨"/f"⟩]) .empty).run (session unplugged)

/-- What installing the cycle's patch in the process that came later comes to. -/
def replayed : Outcome Unit × LiveModule := (replay 7 patch).run (joined unplugged).2

/-- Where the processes of a module were edited, the latest edit first. -/
def edited (m : LiveModule) : List (List UInt64) :=
  m.processes.map fun p ↦ p.target.edits.map Edit.address

/-- The edits of an installation that breaks off, the latest first. What was at the function and in
front of it is put back, where jumps had been written; before that, the entry point was put back and
covered again, a cave opened and the reference redirected. -/
def addresses : List UInt64 :=
  [0x14000005c, 0x140000061, 0x140000061, 0x14000005c, 0x140010069, 0x140010069,
    Target.allocationStart, 0x140010061]

/-- What the image, loading the patches and installing them come to. -/
class Evaluation : Prop where
  size : (⟨⟨"/m"⟩, image 0⟩ : Image).size = .ok 0x1000
  cycled : cycled.2.processes.isEmpty = true ∧ cycled.2.patches = [patch] ∧
    Registry.baseOf? ((joined unplugged).2.registry.bases 7) patch.token = none ∧
    (joined unplugged).2.loadBase? (process unplugged) patch = some 0x140010000 ∧
    replayed.1 = .error (.error ⟨[.activating ⟨"/m.patch_0.dll"⟩], .brokenPipe⟩) ∧
    edited replayed.2 = [addresses]
  installed : (session unplugged).loadBases ⟨"/p"⟩ = [0x140010000] ∧
    installed.1 = .ok .activateError ∧ edited installed.2 = [addresses]

instance evaluation : Evaluation where
  size := by decide +kernel
  cycled := by decide +kernel
  installed := by decide +kernel

theorem load_started : load ⟨"/m"⟩ .default provider workshop = .ok started :=
  load_eq_ok_iff.mpr
    ⟨_, _, _, _, _, rfl, rfl, Image.load_of_size rfl evaluation.size, evaluation.size, rfl, rfl⟩

theorem reachable_started : started.Reachable := .load _ _ _ _ load_started

theorem reachable_session (agent : Agent) : (session agent).Reachable :=
  .attach reachable_started _

theorem reachable_joined (agent : Agent) : (joined agent).2.Reachable :=
  .attach (.updateWithObjects reachable_started _) _

theorem processes_joined (agent : Agent) : (joined agent).2.processes = [process agent] := by
  have hnone := List.isEmpty_iff.mp evaluation.cycled.1
  unfold joined
  rcases run_attach cycled.2 (process agent) with ⟨-, h⟩ | ⟨⟨p, hp, -⟩, -⟩
  · rw [h]
    simp only [hnone, List.nil_append]
  · rw [hnone] at hp
    exact absurd hp List.not_mem_nil

theorem process?_joined (agent : Agent) : (joined agent).2.process? 7 = some (process agent) := by
  unfold process?
  rw [processes_joined]
  rfl

theorem isCooperative_process : (process unplugged).IsCooperative := by
  refine ⟨⟨fun path n base h ↦ ?_, fun _ _ ↦ rfl⟩, fun _ _ _ ↦ rfl⟩
  cases h

theorem hasRoom_process (size : UInt32) :
    (process unplugged).target.HasRoom 0x140010000 size := by
  have hregions : (process unplugged).target.memory.regions = [⟨0x14000005c, code.toArray⟩] := rfl
  refine ⟨?_, ?_, by decide⟩
  · intro r hr
    rw [hregions, List.mem_singleton] at hr
    subst hr
    exact .inr (.inl (by decide +kernel))
  · intro r hr
    rw [hregions, List.mem_singleton] at hr
    subst hr
    exact .inr (.inl (by decide +kernel))

theorem hasRoomFor_session : (session unplugged).HasRoomFor ⟨"/p"⟩ := by
  have hhosts : LoadRun.hosts (session unplugged).processes [0x140010000]
      = [⟨process unplugged, 0x140010000⟩] := rfl
  refine hasRoomFor_of_loadBases evaluation.installed.1 fun h hh ↦ ?_
  rw [hhosts, List.mem_singleton] at hh
  rw [hh]
  exact hasRoom_process

theorem hasRoomIn_joined : (joined unplugged).2.HasRoomIn 7 patch := by
  obtain ⟨-, -, -, hbase, -⟩ := evaluation.cycled
  exact hasRoomIn_of_loadBase? (process?_joined _) hbase hasRoom_process

end Rebuilt

/-- When the agent breaks off at the last command, the patch that was already loaded and activated
leaves no trace, though its function and its reference were redirected. Nor does an earlier patch. -/
theorem unplugged_agent_leaves_no_trace :
    Rebuilt.edited Rebuilt.installed.2 = [Rebuilt.addresses] ∧
    (Rebuilt.session Rebuilt.unplugged).IsRestored Rebuilt.installed.2 ∧
    Rebuilt.edited Rebuilt.replayed.2 = [Rebuilt.addresses] ∧
    (Rebuilt.joined Rebuilt.unplugged).2.IsRestored Rebuilt.replayed.2 := by
  have hcooperative : ∀ p ∈ [Rebuilt.process Rebuilt.unplugged], p.IsCooperative := by
    intro p hp
    rw [List.mem_singleton.mp hp]
    exact Rebuilt.isCooperative_process
  obtain ⟨-, hfailed, hinstalled⟩ := Rebuilt.evaluation.installed
  obtain ⟨-, -, hnew, -, hbroken, hreplayed⟩ := Rebuilt.evaluation.cycled
  have hinstall := (failed_installation_leaves_no_trace (Rebuilt.session Rebuilt.unplugged)
    (Rebuilt.reachable_session _) hcooperative).1
  have hreplay := (failed_installation_leaves_no_trace (Rebuilt.joined Rebuilt.unplugged).2
    (Rebuilt.reachable_joined _) (by rwa [Rebuilt.processes_joined])).2
  exact ⟨hinstalled, hinstall _ _ _ Rebuilt.hasRoomFor_session hfailed, hreplayed,
    hreplay 7 Rebuilt.patch _ Rebuilt.hasRoomIn_joined hnew hbroken⟩

end LiveModule
end LivePatch
