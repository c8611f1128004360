import LivePatch.Proofs.Ending
import LivePatch.Proofs.Patch.Tokens
import LivePatch.Proofs.Session.Restoration

/-!
# Registry and patches in step

The registry holds the module and the patches in the order in which they were installed, so that a
patch's token is its position. A patch is entered before it is activated and dropped again when that
fails; in between, and only then, the registry is one image ahead of the patches. That holds of all
modules that operations leave behind which return, whatever they came to.
-/

namespace LivePatch

namespace LiveModule

variable {pids : List UInt32}

/-- The registry has the module, the patches and a number of images that are to become patches. All
images are mapped in attached processes only. -/
structure Tallies (pids : List UInt32) (ahead : Nat) (m : LiveModule) : Prop where
  processes : Fleet.Are pids m.processes
  size : m.registry.size = m.patches.length + ahead + 1
  tokens : ∀ i p, m.patches[i]? = some p → p.token.index = i + 1
  refersBack : ∀ p ∈ m.patches, p.RefersBack
  placed : m.registry.IsPlacedAmong pids

variable {ahead : Nat}

/-- Changes of anything but the registry, the patches and the identifiers of the processes. -/
theorem Tallies.congr {m m' : LiveModule} (h : m.Tallies pids ahead)
    (hregistry : m'.registry = m.registry) (hpatches : m'.patches = m.patches)
    (hprocesses : Fleet.Are pids m'.processes) : m'.Tallies pids ahead := by
  refine ⟨hprocesses, ?_, ?_, ?_, ?_⟩
  · rw [hregistry, hpatches]
    exact h.size
  · rw [hpatches]
    exact h.tokens
  · rw [hpatches]
    exact h.refersBack
  · rw [hregistry]
    exact h.placed

theorem tallies_ignoresBooks (pids : List UInt32) (ahead : Nat) :
    IgnoresBooks (Tallies pids ahead) where
  work := fun _ _ hm ↦ hm.congr rfl rfl hm.processes
  informing := fun hinformed hm ↦ hm.congr rfl rfl (Fleet.are_of_informed hinformed hm.processes)
  books := fun _ _ _ hm ↦ hm.congr rfl rfl hm.processes

/-- The token of the newest image, which is to become a patch. -/
structure Enrolled (pids : List UInt32) (token : Token) (m : LiveModule) : Prop where
  tallies : m.Tallies pids 1
  newest : token.index + 1 = m.registry.size

variable {token : Token}

theorem enrolled_ignoresBooks (pids : List UInt32) (token : Token) :
    IgnoresBooks (Enrolled pids token) where
  work := fun w c hm ↦ ⟨(tallies_ignoresBooks pids 1).work w c hm.tallies, hm.newest⟩
  informing := fun h hm ↦ ⟨(tallies_ignoresBooks pids 1).informing h hm.tallies, hm.newest⟩
  books := fun c m p hm ↦ ⟨(tallies_ignoresBooks pids 1).books c m p hm.tallies, hm.newest⟩

theorem Enrolled.index {m : LiveModule} (h : m.Enrolled pids token) :
    token.index = m.patches.length + 1 := by
  have hsize := h.tallies.size
  have hnewest := h.newest
  omega

/-- Unloading keeps what is registered. -/
theorem enrolled_unload (bases : List UInt64) : Keeps (Enrolled pids token) (unload bases) :=
  Keeps.modify fun m hm ↦ ⟨hm.tallies.congr rfl rfl
    (LoadRun.are_unloadEach m.files bases hm.tallies.processes), hm.newest⟩

theorem tallies_unload (bases : List UInt64) : Keeps (Tallies pids ahead) (unload bases) :=
  Keeps.modify fun m hm ↦ hm.congr rfl rfl (LoadRun.are_unloadEach m.files bases hm.processes)

/-- Dropping the newest image brings registry and patches back in step. -/
theorem tallies_discard : Triple (Enrolled pids token)
    (modify fun m ↦ { m with registry := m.registry.discard token } : CycleM Unit)
    (fun _ ↦ Tallies pids 0) (Tallies pids 0) := by
  refine Triple.modify fun m hm ↦ ⟨hm.tallies.processes, ?_, hm.tallies.tokens,
    hm.tallies.refersBack, hm.tallies.placed.discard token⟩
  have hindex := hm.index
  have hsize := hm.tallies.size
  have hdiscard := Registry.size_discard (by omega) hm.newest
  change (m.registry.discard token).size = m.patches.length + 0 + 1
  omega

/-- A patch that became active takes the place that was kept for it. -/
theorem tallies_finish {patch : PatchRecord} (hrefers : patch.RefersBack) :
    Triple (Enrolled pids patch.token) (finish patch) (fun _ ↦ Tallies pids 0)
      (Tallies pids 0) := by
  intro m hm
  unfold finish
  rw [run_bind, run_clearPending]
  refine ⟨hm.tallies.processes, ?_, ?_, ?_, hm.tallies.placed⟩
  · have hsize := hm.tallies.size
    simp only [List.length_append, List.length_singleton]
    omega
  · intro i p hp
    have hi := List.getElem?_eq_some_iff.mp hp
    rcases Nat.lt_or_ge i m.patches.length with hlt | hge
    · exact hm.tallies.tokens i p (by rwa [List.getElem?_append_left hlt] at hp)
    · rw [List.getElem?_append_right hge, List.getElem?_singleton] at hp
      split at hp
      · cases hp
        have hindex := hm.index
        omega
      · cases hp
  · intro p hp
    rcases List.mem_append.mp hp with hp | hp
    · exact hm.tallies.refersBack p hp
    · rw [List.mem_singleton.mp hp]
      exact hrefers

/-- Entering a patch puts the registry one image ahead. -/
theorem tallies_enroll (path : Path) (p : Prepared) (bases : List UInt64) :
    Triple (Tallies pids 0) (enroll path p bases) (fun token ↦ Enrolled pids token)
      (Tallies pids 0) := by
  refine Triple.bind_get fun m hm ↦ ?_
  have hattached : ∀ e ∈ m.processes.zip bases, e.1.pid ∈ pids := by
    intro e he
    obtain ⟨pid, hpid, his⟩ := Pointwise.exists_left hm.processes (List.of_mem_zip he).1
    exact (his : e.1.pid = pid) ▸ hpid
  have hplaced : ((m.processes.zip bases).foldl
      (fun r e ↦ r.register m.registry.next e.1.pid e.2)
      (m.registry.insert path p.tables p.size)).IsPlacedAmong pids :=
    (hm.placed.insert path p.tables p.size).foldl_register m.registry.next Prod.snd hattached
  have hsize : ((m.processes.zip bases).foldl
      (fun r e ↦ r.register m.registry.next e.1.pid e.2)
      (m.registry.insert path p.tables p.size)).size = m.registry.size + 1 := by
    rw [Registry.size_foldl_register, Registry.size_insert]
  refine Triple.bind (R := fun _ s ↦ Enrolled pids m.registry.next s) (Triple.set fun _ _ ↦ ?_)
    fun _ ↦ Triple.pure fun _ hs ↦ hs
  exact ⟨⟨hm.processes, hsize.trans (congrArg (· + 1) hm.size), hm.tokens, hm.refersBack, hplaced⟩,
    hsize.symm⟩

/-- Activating an entered patch brings registry and patches back in step, unless it faults. -/
theorem tallies_activate (patch : PatchRecord) (p : Prepared) (image : Image) (needed : PathSet)
    (stripped : Stripped) (bases : List UInt64) :
    Returns (Enrolled pids patch.token) (activate patch p image needed stripped bases)
      (fun _ ↦ Tallies pids 0) (Tallies pids 0) := by
  have hgiveUp : Returns (Enrolled pids patch.token) (do
      unload bases
      modify fun m ↦ { m with registry := m.registry.discard patch.token }
      abandon .activateError) (fun _ ↦ Tallies pids 0) (Tallies pids 0) := by
    have hunload : Triple (Enrolled pids patch.token) (unload bases)
        (fun _ ↦ Enrolled pids patch.token) (Tallies pids 0) :=
      Triple.modify fun m hm ↦ ((enrolled_unload bases).run hm :)
    exact .of_triple (hunload.bind fun _ ↦ tallies_discard.bind fun _ ↦
      (tallies_ignoresBooks pids 0).abandon _)
  have hobjects : Triple (Enrolled pids patch.token)
      (ExceptT.lift (needed.toList.mapM fun o ↦ inWorkshop (Workshop.object o)).run)
      (fun _ ↦ Enrolled pids patch.token) fun _ ↦ False := by
    have hkeeps : Keeps (Enrolled pids patch.token)
        (needed.toList.mapM fun o ↦ inWorkshop (Workshop.object o)) :=
      Keeps.mapM fun o _ ↦ (enrolled_ignoresBooks pids _).inWorkshop _
    exact (Triple.tried hkeeps).mono (fun _ h ↦ h) (fun r _ h ↦ by cases r <;> exact h) fun _ h ↦ h
  refine Returns.bind (.of_triple (hobjects.mono (fun _ h ↦ h) (fun _ _ h ↦ h) fun _ h ↦ h.elim))
    fun result ↦ ?_
  split
  · exact Returns.fault
  · exact hgiveUp
  · refine Returns.bind_get fun m hm ↦ ?_
    dsimp only
    have hstaged : Staged.Are pids (m.processes.map Staged.ofProcess) :=
      List.forall₂_map_right_iff.mpr hm.tallies.processes
    split
    · next patch' staged hok =>
      have hrun := (Activation.are_run _ _ _).run_eq hstaged hok
      have hrefers := (Activation.refersBack_run hm.newest rfl).ok trivial hok
      refine .of_triple (Triple.bind (R := fun _ ↦ Enrolled pids patch'.token)
        (Triple.set fun _ _ ↦ ?_) fun _ ↦ tallies_finish hrefers.2)
      rw [hrefers.1]
      exact ⟨hm.tallies.congr rfl rfl (List.forall₂_map_right_iff.mpr hrun), hm.newest⟩
    · exact Returns.fault
    · next staged herror =>
      have hrun := (Activation.are_run _ _ _).run_eq hstaged herror
      refine Returns.bind (R := fun _ ↦ Enrolled pids patch.token)
        (.of_triple (Triple.set fun _ _ ↦ ?_)) fun _ ↦ hgiveUp
      refine ⟨hm.tallies.congr rfl rfl (List.forall₂_map_right_iff.mpr ?_), hm.newest⟩
      exact List.Forall₂.imp (fun _ _ hs ↦ Staged.is_revert m.files hs) hrun

/-- Installing a patch keeps registry and patches in step, unless it faults. -/
theorem tallies_install (path : Path) (needed : PathSet) (stripped : Stripped) :
    Returns (Tallies pids 0) (install path needed stripped) (fun _ ↦ Tallies pids 0)
      (Tallies pids 0) := by
  have hgiveUp : ∀ bases outcome, Returns (Tallies pids 0) (do
      unload bases
      abandon outcome) (fun _ ↦ Tallies pids 0) (Tallies pids 0) :=
    fun bases outcome ↦ .of_triple ((tallies_unload bases).bind fun _ ↦
      (tallies_ignoresBooks pids 0).abandon outcome)
  refine Returns.bind_keeps ((tallies_ignoresBooks pids 0).prepare path) fun p ↦
    Returns.bind_get fun m hm ↦ ?_
  refine Returns.bind_lift (fun r hr ↦ ?_) fun _ h ↦ h ▸ hm
  refine Returns.bind (R := fun _ ↦ Tallies pids 0) (.of_triple (Triple.set fun _ _ ↦
    hm.congr rfl rfl (LoadRun.are_loadEach hm.processes hr))) fun _ ↦ ?_
  split
  · exact hgiveUp _ _
  · refine Returns.bind_keeps (Keeps.lift _) fun isInReach ↦ ?_
    split
    · exact Returns.bind (.of_triple (tallies_enroll _ _ _)) fun token ↦
        tallies_activate (.bare path token p.size p.entryPoint) p r.image needed stripped r.bases
    · exact hgiveUp _ _

theorem tallies_build : Returns (Tallies pids 0) build (fun _ ↦ Tallies pids 0)
    (Tallies pids 0) := by
  have h := tallies_ignoresBooks pids 0
  refine Returns.bind_keeps Keeps.get fun m ↦ ?_
  split
  · exact .of_triple (Keeps.pure _)
  · refine Returns.bind_keeps (h.inWorkshop _) fun owners ↦
      Returns.bind_keeps (h.inWorkshop _) fun needed ↦
      Returns.bind_keeps Keeps.get fun _ ↦
      Returns.bind_keeps (h.inWorkshop _) fun stripped ↦
      Returns.bind_keeps (h.link _ _).tried fun linked ↦
      Returns.bind_keeps (h.inWorkshop _).tried fun restored ↦
      Returns.bind_keeps (Keeps.lift _) fun linked ↦ Returns.bind_keeps (Keeps.lift _) fun _ ↦ ?_
    split
    · exact .of_triple ((h.callHooks _).bind fun _ ↦ Keeps.pure _)
    · exact tallies_install _ _ _

theorem tallies_update : Returns (Tallies pids 0) update (fun _ ↦ Tallies pids 0)
    (Tallies pids 0) := by
  have h := tallies_ignoresBooks pids 0
  refine Returns.bind_keeps h.detectChanges fun _ ↦ Returns.bind_keeps Keeps.get fun m ↦ ?_
  split
  · exact .of_triple (Keeps.pure _)
  · split
    · refine Returns.bind_keeps (h.callHooks _) fun _ ↦
        Returns.bind_keeps h.compile fun failures ↦ ?_
      split
      · exact .of_triple ((h.callHooks _).bind fun _ ↦ Keeps.pure _)
      · exact Returns.bind_keeps (h.callHooks _) fun _ ↦ tallies_build
    · exact tallies_build

theorem tallies_updateWithObjects (objects : List Path) :
    Returns (Tallies pids 0) (updateWithObjects objects) (fun _ ↦ Tallies pids 0)
      (Tallies pids 0) := by
  refine Returns.bind_keeps (Keeps.forM fun _ _ ↦ (tallies_ignoresBooks pids 0).accept _) fun _ ↦
    Returns.bind_keeps Keeps.get fun m ↦ ?_
  split
  · exact .of_triple (Keeps.pure _)
  · exact tallies_build

theorem Tallies.has {m : LiveModule} (h : m.Tallies pids ahead) : m.Has pids := by
  refine ⟨h.processes, ?_⟩
  have := h.size
  omega

theorem Tallies.putProcess {m : LiveModule} (h : m.Tallies pids ahead) (p : AttachedProcess) :
    (m.putProcess p).Tallies pids ahead :=
  h.congr rfl rfl (h.has.putProcess p).processes

/-- Installing a loaded patch in an attached process only notes where it is mapped there. -/
theorem tallies_replayLoaded (patch : PatchRecord) {p : AttachedProcess} (hp : p.pid ∈ pids)
    (base : UInt64) : Keeps (Tallies pids ahead) (replayLoaded patch p base) := by
  refine Keeps.bind (Keeps.modify fun m hm ↦ ⟨hm.processes, ?_, hm.tokens, hm.refersBack,
    hm.placed.register patch.token hp base⟩) fun _ ↦ Triple.bind_get fun m hm ↦ ?_
  · rw [Registry.size_register]
    exact hm.size
  · split
    · exact Triple.set fun _ _ ↦ hm.putProcess _
    · exact Triple.throw fun _ h ↦ h ▸ hm
    · refine Triple.bind (R := fun _ ↦ Tallies pids ahead)
        (Triple.modify fun m' h ↦ (h ▸ hm : m'.Tallies pids ahead).putProcess _) fun _ ↦ ?_
      refine (Keeps.modify fun m hm ↦ ⟨hm.processes, ?_, hm.tokens, hm.refersBack,
        hm.placed.forget patch.token p.pid⟩).bind fun _ ↦ Keeps.throw _
      rw [Registry.size_forget]
      exact hm.size

theorem tallies_replay (pid : UInt32) (patch : PatchRecord) :
    Keeps (Tallies pids ahead) (replay pid patch) := by
  refine Triple.bind_get fun m hm ↦ ?_
  have hstop : ∀ s, s = m → s.Tallies pids ahead := fun _ h ↦ h ▸ hm
  dsimp only
  split
  · exact Triple.fail hstop
  · next p hp =>
    refine Triple.bind_lift (fun image _ ↦ ?_) hstop
    have hpid : p.pid ∈ pids := by
      obtain ⟨pid, hpid, his⟩ := Pointwise.exists_left hm.processes (List.mem_of_find?_eq_some hp)
      exact (his : p.pid = pid) ▸ hpid
    have hload := (LoadState.is_load m.registry.moduleSize patch.path false).run
      (s := ⟨m.files, image, p⟩) (rfl : p.pid = p.pid)
    generalize (LoadState.load m.registry.moduleSize patch.path false).run _ = loaded at hload
    obtain ⟨result, s⟩ := loaded
    dsimp only at hload ⊢
    have hput : ∀ w : Workshop, ({ m with workshop := w }.putProcess s.process).Tallies pids ahead :=
      fun w ↦ Tallies.putProcess (m := { m with workshop := w }) (hm.congr rfl rfl hm.processes) _
    refine Triple.bind (R := fun _ ↦ Tallies pids ahead) (Triple.set fun _ _ ↦ hput _) fun _ ↦
      (Keeps.lift _).bind fun found ↦ ?_
    cases found with
    | none => exact Keeps.fail _
    | some base =>
      refine (Keeps.lift _).bind fun isInReach ↦ ?_
      split
      · refine tallies_replayLoaded patch ?_ base
        rw [show s.process.pid = p.pid from hload]
        exact hpid
      · exact (Keeps.modify fun _ hm ↦ hm.putProcess _).bind fun _ ↦ Keeps.fail _

theorem tallies_installPatches (pid : UInt32) :
    Keeps (Tallies pids ahead) (installPatches pid) := by
  refine Keeps.get.bind fun m ↦ ?_
  split
  · exact Keeps.pure _
  · split
    · exact Keeps.fail _
    · exact Keeps.forM fun patch _ ↦ tallies_replay pid patch

/-- The registry has the module and the patches, in the order of the patches, which refer back; its
images are mapped in attached processes only, and in each of them once. -/
structure IsInStep (m : LiveModule) : Prop where
  size : m.registry.size = m.patches.length + 1
  tokens : ∀ (i : Nat) (p : PatchRecord), m.patches[i]? = some p → p.token = ⟨i + 1⟩
  refersBack : ∀ p ∈ m.patches, p.RefersBack
  attached : ∀ i ∈ m.registry.images, ∀ placed ∈ i.processes, ∃ p ∈ m.processes, p.pid = placed.pid
  once : ∀ i ∈ m.registry.images, (i.processes.map Placed.pid).Nodup

theorem isInStep_iff {m : LiveModule} :
    m.IsInStep ↔ m.Tallies (m.processes.map AttachedProcess.pid) 0 := by
  constructor
  · intro h
    refine ⟨Fleet.are_iff.mpr rfl, h.size, fun i p hp ↦ by rw [h.tokens i p hp], h.refersBack,
      fun i hi ↦ ⟨fun placed hplaced ↦ ?_, h.once i hi⟩⟩
    obtain ⟨p, hp, hpid⟩ := h.attached i hi placed hplaced
    exact List.mem_map.mpr ⟨p, hp, hpid⟩
  · intro h
    refine ⟨h.size, fun i p hp ↦ ?_, h.refersBack, fun i hi placed hplaced ↦ ?_,
      fun i hi ↦ (h.placed i hi).distinct⟩
    · have hindex := h.tokens i p hp
      cases htoken : p.token with
      | mk index =>
        rw [htoken] at hindex
        exact congrArg Token.mk hindex
    · exact List.mem_map.mp ((h.placed i hi).attached placed hplaced)

/-- What can be asked of a live module, apart from detaching a process. -/
inductive IsOperation : {α : Type} → CycleM α → Prop where
  | attach (p : AttachedProcess) : IsOperation (attach p)
  | update : IsOperation update
  | updateWithObjects (objects : List Path) : IsOperation (updateWithObjects objects)
  | installPatches (pid : UInt32) : IsOperation (installPatches pid)

/-- The modules that are left behind by operations which return, whatever they come to, while files,
tools, processes and agents may change in any way between them. -/
inductive Arises : LiveModule → Prop where
  | load {m : LiveModule} (path : Path) (settings : Settings) (provider : Provider)
      (workshop : Workshop) (h : load path settings provider workshop = .ok m) : Arises m
  | operation {m m' : LiveModule} (h : Arises m) {α : Type} {act : CycleM α}
      (hact : IsOperation act) {r : Outcome α} (hrun : act.run m = (r, m'))
      (hreturns : r ≠ .error .fault) : Arises m'
  | detach {m : LiveModule} (h : Arises m) (pid : UInt32) : Arises (m.detach pid)
  | surroundings {m m' : LiveModule} (h : Arises m) (registry : m'.registry = m.registry)
      (patches : m'.patches = m.patches)
      (processes : m'.processes.map AttachedProcess.pid = m.processes.map AttachedProcess.pid) :
      Arises m'

/-- Operations that return are operations. -/
theorem Arises.reachable {m : LiveModule} (h : m.Arises) : m.Reachable := by
  induction h with
  | load path settings provider workshop h => exact .load path settings provider workshop h
  | operation _ hact hrun _ ih =>
    obtain rfl := congrArg Prod.snd hrun
    cases hact with
    | attach p => exact ih.attach p
    | update => exact ih.update
    | updateWithObjects objects => exact ih.updateWithObjects objects
    | installPatches pid => exact ih.installPatches pid
  | detach _ pid ih => exact ih.detach pid
  | surroundings _ hregistry hpatches hprocesses ih =>
    exact ih.surroundings hregistry hpatches hprocesses

theorem isInStep_load {path : Path} {settings : Settings} {provider : Provider}
    {workshop : Workshop} {m : LiveModule} (h : load path settings provider workshop = .ok m) :
    m.IsInStep := by
  obtain ⟨tables, linker, image, size, weakSymbols, -, -, -, -, -, rfl⟩ := load_eq_ok_iff.mp h
  have hempty : Registry.empty.IsPlacedAmong [] := fun i hi ↦ (List.not_mem_nil hi).elim
  have hplaced := hempty.insert path tables size
  exact isInStep_iff.mpr ⟨.nil, rfl, fun i p hp ↦ by simp at hp, fun p hp ↦ by simp at hp, hplaced⟩

theorem IsInStep.attach {m m' : LiveModule} (hm : m.IsInStep) {p : AttachedProcess}
    {r : Outcome Unit} (hrun : (attach p).run m = (r, m')) : m'.IsInStep := by
  refine (keeps_attach fun m hm _ ↦ ?_).run_eq hm hrun
  refine isInStep_iff.mpr ⟨Fleet.are_iff.mpr rfl, ?_, ?_, hm.refersBack, ?_⟩
  · rw [Registry.size_register]
    exact hm.size
  · exact (isInStep_iff.mp hm).tokens
  · have hplaced := (isInStep_iff.mp hm).placed
    rw [List.map_append]
    exact (hplaced.mono fun _ h ↦ List.mem_append_left _ h).register _
      (List.mem_append_right _ (List.mem_singleton.mpr rfl)) _

theorem IsInStep.detach {m : LiveModule} (hm : m.IsInStep) (pid : UInt32) :
    (m.detach pid).IsInStep := by
  have hpids : (m.processes.filter fun p ↦ p.pid != pid).map AttachedProcess.pid
      = (m.processes.map AttachedProcess.pid).filter (· != pid) := by
    rw [List.filter_map]
    rfl
  have hsize : (m.detach pid).registry.size = m.registry.size := by
    simp [LiveModule.detach, Registry.unregister, Registry.size]
  refine isInStep_iff.mpr ⟨Fleet.are_iff.mpr rfl, hsize.trans hm.size,
    (isInStep_iff.mp hm).tokens, hm.refersBack, ?_⟩
  rw [show (m.detach pid).processes.map AttachedProcess.pid = _ from hpids]
  exact (isInStep_iff.mp hm).placed.unregister pid

theorem IsInStep.operation {m m' : LiveModule} (hm : m.IsInStep) {α : Type} {act : CycleM α}
    (hact : IsOperation act) {r : Outcome α} (hrun : act.run m = (r, m'))
    (hreturns : r ≠ .error .fault) : m'.IsInStep := by
  have hstep : ∀ pids, m.Tallies pids 0 → m'.Tallies pids 0 → m'.IsInStep := by
    intro pids h h'
    have hpids := Fleet.are_iff.mp h'.processes
    exact isInStep_iff.mpr (hpids ▸ h')
  have hstart := isInStep_iff.mp hm
  cases hact with
  | attach p => exact hm.attach hrun
  | update => exact hstep _ hstart (tallies_update.run hstart hrun hreturns)
  | updateWithObjects objects =>
    exact hstep _ hstart ((tallies_updateWithObjects objects).run hstart hrun hreturns)
  | installPatches pid =>
    exact hstep _ hstart ((tallies_installPatches pid).run_eq hstart hrun)

theorem Arises.isInStep {m : LiveModule} (h : m.Arises) : m.IsInStep := by
  induction h with
  | load path settings provider workshop h => exact isInStep_load h
  | operation _ hact hrun hreturns ih => exact ih.operation hact hrun hreturns
  | detach _ pid ih => exact ih.detach pid
  | @surroundings m m' _ hregistry hpatches hprocesses ih =>
    have htallies := isInStep_iff.mp ih
    rw [← hprocesses] at htallies
    exact isInStep_iff.mpr (htallies.congr hregistry hpatches (Fleet.are_iff.mpr rfl))

/-- Registry and patches are in step in every module that can arise: the registry has one image more
than there are patches, the patches have their positions as tokens and refer back, and images are
mapped in attached processes only, in each of them once. -/
theorem registry_and_patches_stay_in_step {m : LiveModule} (h : m.Arises) : m.IsInStep :=
  h.isInStep

/-- Registry and patches are in step behind a cycle that installed a patch in a process, and what the
patch has of redirections refers back to the module. -/
theorem relinked_registry_and_patches_stay_in_step :
    (Rebuilt.cycle.run (Rebuilt.session .willing)).1 = .ok .success ∧
    (Rebuilt.cycle.run (Rebuilt.session .willing)).2.patches = [Rebuilt.patch] ∧
    (Rebuilt.cycle.run (Rebuilt.session .willing)).2.IsInStep := by
  have hinstep : ∀ m : LiveModule, m.Arises → (Rebuilt.cycle.run m).1 = .ok .success →
      (Rebuilt.cycle.run m).2.IsInStep := by
    intro m hm houtcome
    have hoperation : IsOperation Rebuilt.cycle := .updateWithObjects _
    exact registry_and_patches_stay_in_step
      (.operation hm hoperation (r := .ok .success) (Prod.ext houtcome rfl) fun h ↦ by cases h)
  have hsession : (Rebuilt.session .willing).Arises :=
    .operation (.load _ _ _ _ Rebuilt.load_started) (.attach (Rebuilt.process .willing))
      (r := .ok ()) rfl fun h ↦ by cases h
  have hrun : (Rebuilt.cycle.run (Rebuilt.session .willing)).1 = .ok .success ∧
      (Rebuilt.cycle.run (Rebuilt.session .willing)).2.patches = [Rebuilt.patch] := by
    decide +kernel
  exact ⟨hrun.1, hrun.2, hinstep _ hsession hrun.1⟩

/-! A session in which an object file that was built elsewhere is linked and loaded into the
processes. -/

namespace Relinked

/-- A linked image without sections, with eight bytes of code behind its headers. -/
def image (entry : UInt8) : Bytes :=
  (([0x4d, 0x5a, 0, 0, 0x50, 0x45, 0, 0] : List UInt8) ++ List.replicate 16 0
    ++ [112, 0, 0, 0, 0x0b, 0x02] ++ List.replicate 14 0 ++ [entry, 0, 0, 0] ++ List.replicate 4 0
    ++ [0, 0, 1, 0x40, 1, 0, 0, 0] ++ [4, 0, 0, 0] ++ List.replicate 20 0 ++ [0, 0x10, 0, 0]
    ++ [148, 0, 0, 0] ++ List.replicate 48 0
    ++ [0x31, 0xc0, 0xff, 0xc0, 0xc3, 0xcc, 0xcc, 0xcc]).toArray

/-- An object file without sections. -/
def object : Bytes := #[0x64, 0x86, 0, 0, 0, 0, 0, 0, 0, 0, 0, 0, 0, 0, 0, 0, 0, 0, 0, 0]

/-- The files of the module and of the object file. -/
def files : FileTree := { FileTree.empty with
  nodes := [(["m"], .file (image 0) (.written 0)), (["o"], .file object (.written 0))] }

/-- How the module was linked. -/
def linker : LinkerRecord := ⟨⟨"link"⟩, ⟨"database"⟩, "", ⟨""⟩, []⟩

/-- Tables without entries for every image. -/
def provider : Provider where
  symbols _ := .ok .empty
  contributions _ := .ok .empty
  compilands _ := .ok .empty
  thunks _ := .ok .empty
  sections _ := .ok []
  linker _ := .ok linker

/-- The files, and a linker that writes an image with an entry point. -/
def workshop (entry : UInt8) : Workshop :=
  ⟨files, .empty, fun _ t ↦
    (.ok ⟨0, ""⟩, t.put ["m.patch_0.dll"] (.file (image entry) (.written 1))), []⟩

/-- A process in which one thread runs. -/
def process (pid : UInt32) (agent : Agent) : AttachedProcess where
  target := ((Target.ofPid pid).map 0x140000000 (Bytes.fill 16 X86.trap)).spawn 0x140000004
  agent := agent
  commandThread := none
  moduleBase := 0x140000000
  redirected := []

/-- The module when it was just loaded. -/
def started (entry : UInt8) : LiveModule where
  settings := .default
  path := ⟨"/m"⟩
  linker := linker
  weakSymbols := []
  provider := provider
  workshop := workshop entry
  registry := Registry.empty.insert ⟨"/m"⟩ .empty 0x1000
  compilands := CompilandTable.empty.timed files
  processes := []
  patches := []
  modified := ∅
  pending := ∅
  counter := 0

/-- The module with processes. -/
def session (entry : UInt8) (fleet : Fleet) : LiveModule :=
  fleet.foldl (fun m p ↦ ((attach p).run m).2) (started entry)

/-- A cycle for the object file. -/
def cycle : CycleM CycleOutcome := updateWithObjects [⟨"/o"⟩]

/-- The image says how long it is. -/
theorem size_image : (⟨⟨"/m"⟩, image 0⟩ : Image).size = .ok 0x1000 := by decide +kernel

theorem load_image {files : FileTree} (h : files.read? ⟨"/m"⟩ = some (image 0)) :
    Image.load files ⟨"/m"⟩ = .ok ⟨⟨"/m"⟩, image 0⟩ :=
  Image.load_of_size h size_image

theorem load_started (entry : UInt8) :
    load ⟨"/m"⟩ .default provider (workshop entry) = .ok (started entry) :=
  load_eq_ok_iff.mpr ⟨_, _, _, _, _, rfl, rfl, load_image rfl, size_image, rfl, rfl⟩

theorem arises_session (entry : UInt8) (fleet : Fleet) : (session entry fleet).Arises := by
  have hattach : ∀ (m : LiveModule) (p : AttachedProcess), m.Arises →
      ((attach p).run m).2.Arises := by
    intro m p hm
    refine .operation hm (.attach p) (r := ((attach p).run m).1) rfl ?_
    rcases run_attach m p with ⟨-, h⟩ | ⟨-, h⟩
    · rw [h]
      exact fun h ↦ by cases h
    · rw [h]
      exact fun h ↦ by cases h
  have hall : ∀ m : LiveModule, m.Arises →
      (fleet.foldl (fun m p ↦ ((attach p).run m).2) m).Arises := by
    induction fleet with
    | nil => exact fun m hm ↦ hm
    | cons p fleet ih => exact fun m hm ↦ ih _ (hattach m p hm)
  exact hall _ (.load _ _ _ _ (load_started entry))

end Relinked

end LiveModule
end LivePatch
