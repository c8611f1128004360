import LivePatch.Proofs.Outcome
import LivePatch.Proofs.Registry
import LivePatch.Proofs.Session.Identity
import LivePatch.Proofs.Session.Quiet

/-!
# Consistency of live modules

The processes of a live module have distinct identifiers, and its registry has the module itself.
Both hold from the start and through every operation, whatever it comes to, so they hold of every
module that can be reached.
-/

namespace LivePatch

namespace LoadState

/-- Loading a patch into a process changes only its memory. -/
theorem keeps_load_of {inv : Target → Prop} (h : Target.IgnoresMemory inv) (moduleSize : UInt32)
    (path : Path) (inPlace : Bool) :
    Keeps (fun s ↦ inv s.process.target) (load moduleSize path inPlace) := by
  refine Keeps.bind Keeps.get fun s ↦ (Keeps.lift _).bind fun size ↦ ?_
  refine Keeps.bind (Keeps.get.bind fun _ ↦ triple_onProcess (AttachedProcess.triple_target
    (h.suspended_act (Placement.keeps_freeRegionNear h.isRangeFree _ _ _)))) fun room ↦ ?_
  cases room with
  | none => exact Keeps.pure _
  | some base =>
    exact (keeps_placeAt path inPlace base).bind fun file ↦ Keeps.get.bind fun _ ↦
      triple_onProcess (h.loadPatch _ file)

/-- Loading a patch keeps the identifier of the process. -/
theorem is_load {pid : UInt32} (moduleSize : UInt32) (path : Path) (inPlace : Bool) :
    Keeps (fun s ↦ AttachedProcess.Is pid s.process) (load moduleSize path inPlace) :=
  keeps_load_of Target.is_ignoresMemory moduleSize path inPlace

end LoadState

namespace LoadRun

variable {pids : List UInt32}

/-- Loading a patch into processes keeps their identifiers. -/
theorem are_loadEach {moduleSize : UInt32} {path : Path} {isFirst : Bool} {files : FileTree}
    {image : Image} {fleet : Fleet} {r : LoadRun} (hfleet : Fleet.Are pids fleet)
    (hr : loadEach moduleSize path isFirst files image fleet = .ok r) :
    Fleet.Are pids r.processes := by
  induction hfleet generalizing isFirst files image r with
  | nil =>
    cases hr
    exact .nil
  | @cons pid p pids rest hhead htail ih =>
    have hload := (LoadState.is_load moduleSize path isFirst).run (s := ⟨files, image, p⟩) hhead
    unfold loadEach at hr
    generalize (LoadState.load moduleSize path isFirst).run ⟨files, image, p⟩ = loaded at hload hr
    rcases loaded with ⟨(_ | _) | _ | base, s⟩
    · cases hr
      exact .cons hload htail
    · cases hr
    · cases hr
      exact .cons hload htail
    · cases hrest : loadEach moduleSize path false s.files s.image rest with
      | error e =>
        simp only [hrest, bind, Except.bind] at hr
        cases hr
      | ok more =>
        simp only [hrest, bind, Except.bind, pure, Except.pure, Except.ok.injEq] at hr
        subst hr
        exact .cons hload (ih hrest)

/-- Unloading a patch from processes keeps their identifiers. -/
theorem are_unloadEach (files : FileTree) (bases : List UInt64) {fleet : Fleet}
    (hfleet : Fleet.Are pids fleet) : Fleet.Are pids (unloadEach files bases fleet) := by
  induction hfleet generalizing bases with
  | nil =>
    cases bases <;> exact .nil
  | cons hhead htail ih =>
    cases bases with
    | nil => exact .cons hhead htail
    | cons base bases => exact .cons ((AttachedProcess.is_tell files _).run hhead) (ih bases)

end LoadRun

/-- The identifiers of processes that were informed. -/
theorem Fleet.are_of_informed {pids : List UInt32} {fleet fleet' : Fleet}
    (h : fleet.Informed fleet') (hfleet : Fleet.Are pids fleet) : Fleet.Are pids fleet' :=
  Pointwise.comp hfleet h fun _ _ _ hpid hinformed ↦ hinformed.pid.trans hpid

namespace LiveModule

/-- The processes have identifiers, in order, and the registry has the module. -/
structure Has (pids : List UInt32) (m : LiveModule) : Prop where
  processes : Fleet.Are pids m.processes
  registry : m.registry.size ≠ 0

variable {pids : List UInt32} {α : Type}

theorem has_ignoresBooks (pids : List UInt32) : IgnoresBooks (Has pids) where
  work := fun _ _ hm ↦ ⟨hm.processes, hm.registry⟩
  informing := fun hinformed hm ↦ ⟨Fleet.are_of_informed hinformed hm.processes, hm.registry⟩
  books := fun _ _ _ hm ↦ ⟨hm.processes, hm.registry⟩

theorem has_finish (patch : PatchRecord) : Keeps (Has pids) (finish patch) :=
  (has_ignoresBooks pids).clearPending.bind fun _ ↦
    (Keeps.modify fun _ hm ↦ ⟨hm.processes, hm.registry⟩).bind fun _ ↦ Keeps.pure _

theorem has_unload (bases : List UInt64) : Keeps (Has pids) (unload bases) :=
  Keeps.modify fun m hm ↦ ⟨LoadRun.are_unloadEach m.files bases hm.processes, hm.registry⟩

theorem has_discard (token : Token) : Keeps (Has pids)
    (modify fun m ↦ { m with registry := m.registry.discard token } : CycleM Unit) :=
  Keeps.modify fun _ hm ↦ ⟨hm.processes, Registry.size_discard_ne_zero hm.registry token⟩

theorem has_enroll (path : Path) (p : Prepared) (bases : List UInt64) :
    Keeps (Has pids) (enroll path p bases) := by
  refine Triple.bind_get fun m hm ↦ Triple.bind (R := fun _ ↦ Has pids)
    (Triple.set fun _ _ ↦ ⟨hm.processes, ?_⟩) fun _ ↦ Keeps.pure _
  rw [Registry.size_foldl_register, Registry.size_insert]
  omega

theorem has_activate (patch : PatchRecord) (p : Prepared) (image : Image) (needed : PathSet)
    (stripped : Stripped) (bases : List UInt64) :
    Keeps (Has pids) (activate patch p image needed stripped bases) := by
  refine Keeps.bind (Keeps.tried (Keeps.mapM fun object _ ↦
    (has_ignoresBooks pids).inWorkshop _)) fun result ↦ ?_
  split
  · exact Keeps.throw _
  · exact (has_unload bases).bind fun _ ↦ (has_discard _).bind fun _ ↦ (has_ignoresBooks pids).abandon _
  · refine Triple.bind_get fun m hm ↦ ?_
    dsimp only
    have hstaged : Staged.Are pids (m.processes.map Staged.ofProcess) :=
      List.forall₂_map_right_iff.mpr hm.processes
    split
    · next hok =>
      have hrun := (Activation.are_run _ _ _).run_eq hstaged hok
      refine Triple.bind (R := fun _ ↦ Has pids) (Triple.set fun _ _ ↦ ⟨?_, hm.registry⟩)
        fun _ ↦ has_finish _
      exact List.forall₂_map_right_iff.mpr hrun
    · exact Triple.throw fun _ h ↦ h ▸ hm
    · next herror =>
      have hrun := (Activation.are_run _ _ _).run_eq hstaged herror
      refine Triple.bind (R := fun _ ↦ Has pids) (Triple.set fun _ _ ↦ ⟨?_, hm.registry⟩) fun _ ↦
        (has_unload bases).bind fun _ ↦ (has_discard _).bind fun _ ↦ (has_ignoresBooks pids).abandon _
      exact List.forall₂_map_right_iff.mpr
        (List.Forall₂.imp (fun _ _ hs ↦ Staged.is_revert m.files hs) hrun)

theorem has_install (path : Path) (needed : PathSet) (stripped : Stripped) :
    Keeps (Has pids) (install path needed stripped) := by
  refine ((has_ignoresBooks pids).prepare path).bind fun p ↦ Triple.bind_get fun m hm ↦ ?_
  refine Triple.bind_lift (fun r hr ↦ ?_) fun _ h ↦ h ▸ hm
  refine Triple.bind (R := fun _ ↦ Has pids)
    (Triple.set fun _ _ ↦ ⟨LoadRun.are_loadEach hm.processes hr, hm.registry⟩) fun _ ↦ ?_
  split
  · exact (has_unload _).bind fun _ ↦ (has_ignoresBooks pids).abandon _
  · refine (Keeps.lift _).bind fun isInReach ↦ ?_
    split
    · exact (has_enroll _ _ _).bind fun _ ↦ has_activate _ _ _ _ _ _
    · exact (has_unload _).bind fun _ ↦ (has_ignoresBooks pids).abandon _

theorem Has.putProcess {m : LiveModule} (h : m.Has pids) (p : AttachedProcess) :
    (m.putProcess p).Has pids := by
  refine ⟨List.forall₂_map_right_iff.mpr (List.Forall₂.imp (fun pid q hq ↦ ?_) h.processes),
    h.registry⟩
  split
  · next heq => exact heq.symm.trans hq
  · exact hq

theorem has_unloadFrom (p : AttachedProcess) (base : UInt64) :
    Keeps (Has pids) (unloadFrom p base) :=
  Keeps.modify fun _ hm ↦ hm.putProcess _

theorem has_replayLoaded (patch : PatchRecord) (p : AttachedProcess) (base : UInt64) :
    Keeps (Has pids) (replayLoaded patch p base) := by
  refine Keeps.bind (Keeps.modify fun m hm ↦ ⟨hm.processes, ?_⟩) fun _ ↦
    Triple.bind_get fun m hm ↦ ?_
  · rw [Registry.size_register]
    exact hm.registry
  · split
    · exact Triple.set fun _ _ ↦ hm.putProcess _
    · exact Triple.throw fun _ h ↦ h ▸ hm
    · refine Triple.bind (R := fun _ ↦ Has pids)
        (Triple.modify fun m' h ↦ (h ▸ hm : m'.Has pids).putProcess _) fun _ ↦ ?_
      refine (Keeps.modify fun m hm ↦ ⟨hm.processes, ?_⟩).bind fun _ ↦ Keeps.throw _
      rw [Registry.size_forget]
      exact hm.registry

theorem has_replay (pid : UInt32) (patch : PatchRecord) : Keeps (Has pids) (replay pid patch) := by
  refine Triple.bind_get fun m hm ↦ ?_
  have hstop : ∀ s, s = m → Has pids s := fun _ h ↦ h ▸ hm
  dsimp only
  split
  · exact Triple.fail hstop
  · refine Triple.bind_lift (fun image _ ↦ ?_) hstop
    have hput : ∀ (workshop : Workshop) (p : AttachedProcess),
        Has pids ({ m with workshop := workshop }.putProcess p) := fun w _ ↦
      Has.putProcess (m := { m with workshop := w }) ⟨hm.processes, hm.registry⟩ _
    refine Triple.bind (R := fun _ ↦ Has pids) (Triple.set fun _ _ ↦ hput _ _) fun _ ↦
      (Keeps.lift _).bind fun found ↦ ?_
    cases found with
    | none => exact Keeps.fail _
    | some base =>
      refine (Keeps.lift _).bind fun isInReach ↦ ?_
      split
      · exact has_replayLoaded _ _ _
      · exact (has_unloadFrom _ _).bind fun _ ↦ Keeps.fail _

theorem has_installPatches (pid : UInt32) : Keeps (Has pids) (installPatches pid) := by
  refine Keeps.get.bind fun m ↦ ?_
  split
  · exact Keeps.pure _
  · split
    · exact Keeps.fail _
    · exact Keeps.forM fun patch _ ↦ has_replay pid patch

theorem has_build : Keeps (Has pids) build := by
  refine Keeps.get.bind fun m ↦ ?_
  split
  · exact Keeps.pure _
  · refine ((has_ignoresBooks pids).inWorkshop _).bind fun owners ↦
      ((has_ignoresBooks pids).inWorkshop _).bind fun needed ↦
      Keeps.get.bind fun _ ↦ ((has_ignoresBooks pids).inWorkshop _).bind fun stripped ↦ ?_
    refine ((has_ignoresBooks pids).link _ _).tried.bind fun linked ↦
      ((has_ignoresBooks pids).inWorkshop _).tried.bind fun restored ↦ ?_
    refine (Keeps.lift _).bind fun linked ↦ (Keeps.lift _).bind fun _ ↦ ?_
    split
    · exact ((has_ignoresBooks pids).callHooks _).bind fun _ ↦ Keeps.pure _
    · exact has_install _ _ _

theorem has_update : Keeps (Has pids) update := by
  refine (has_ignoresBooks pids).detectChanges.bind fun _ ↦ Keeps.get.bind fun m ↦ ?_
  split
  · exact Keeps.pure _
  · split
    · refine ((has_ignoresBooks pids).callHooks _).bind fun _ ↦
        (has_ignoresBooks pids).compile.bind fun failures ↦ ?_
      split
      · exact ((has_ignoresBooks pids).callHooks _).bind fun _ ↦ Keeps.pure _
      · exact ((has_ignoresBooks pids).callHooks _).bind fun _ ↦ has_build
    · exact has_build

theorem has_updateWithObjects (objects : List Path) :
    Keeps (Has pids) (updateWithObjects objects) := by
  refine (Keeps.forM fun _ _ ↦ (has_ignoresBooks pids).accept _).bind fun _ ↦
    Keeps.get.bind fun m ↦ ?_
  split
  · exact Keeps.pure _
  · exact has_build

/-- The processes have distinct identifiers, and the registry has the module. -/
structure IsConsistent (m : LiveModule) : Prop where
  distinct : (m.processes.map AttachedProcess.pid).Nodup
  registry : m.registry.size ≠ 0

/-- Work that keeps the identifiers of the processes keeps a module consistent. -/
theorem IsConsistent.run {act : CycleM α} {m : LiveModule} (hm : m.IsConsistent)
    (h : ∀ pids, Keeps (Has pids) act) : (act.run m).2.IsConsistent := by
  have hrun := (h (m.processes.map AttachedProcess.pid)).run ⟨Fleet.are_iff.mpr rfl, hm.registry⟩
  refine ⟨?_, hrun.registry⟩
  rw [Fleet.are_iff.mp hrun.processes]
  exact hm.distinct

/-- Loading a module works when all that it asks for is there. It comes to a module that has neither
processes nor patches, and nothing but itself in its registry. -/
theorem load_eq_ok_iff {path : Path} {settings : Settings} {provider : Provider}
    {workshop : Workshop} {m : LiveModule} :
    load path settings provider workshop = .ok m ↔
      ∃ tables linker image size weakSymbols, provider.gather path = .ok tables ∧
        provider.linker path = .ok linker ∧ Image.load workshop.files path = .ok image ∧
        image.size = .ok size ∧ weakSymbolsOf workshop.files linker.libraries = .ok weakSymbols ∧
        m = ⟨settings, path, linker, weakSymbols, provider, workshop,
          Registry.empty.insert path tables size, tables.compilands.timed workshop.files, [], [], ∅, ∅,
          0⟩ := by
  constructor
  · intro h
    obtain ⟨tables, htables, h⟩ := Outcome.bind_eq_ok_iff.mp h
    obtain ⟨linker, hlinker, h⟩ := Outcome.bind_eq_ok_iff.mp h
    obtain ⟨image, himage, h⟩ := Outcome.bind_eq_ok_iff.mp h
    obtain ⟨size, hsize, h⟩ := Outcome.bind_eq_ok_iff.mp h
    obtain ⟨weakSymbols, hweak, h⟩ := Outcome.bind_eq_ok_iff.mp h
    cases h
    exact ⟨tables, linker, image, size, weakSymbols, Outcome.inContext_eq_ok_iff.mp htables,
      Outcome.inContext_eq_ok_iff.mp hlinker, himage, hsize, hweak, rfl⟩
  · rintro ⟨tables, linker, image, size, weakSymbols, htables, hlinker, himage, hsize, hweak, rfl⟩
    unfold load
    rw [Outcome.inContext_eq_ok_iff.mpr htables, Outcome.inContext_eq_ok_iff.mpr hlinker, himage]
    simp only [bind, Except.bind, hsize, hweak]
    rfl

/-- A module at the start is consistent. -/
theorem isConsistent_load {path : Path} {settings : Settings} {provider : Provider}
    {workshop : Workshop} {m : LiveModule} (h : load path settings provider workshop = .ok m) :
    m.IsConsistent := by
  obtain ⟨tables, linker, image, size, weakSymbols, -, -, -, -, -, rfl⟩ := load_eq_ok_iff.mp h
  exact ⟨.nil, by simp [Registry.size_insert]⟩

/-- Attaching a process adds it where there is none with its identifier, and does nothing where there
is one. -/
theorem run_attach (m : LiveModule) (p : AttachedProcess) :
    (∀ q ∈ m.processes, q.pid ≠ p.pid) ∧
      (attach p).run m = (.ok (), { m with
        registry := m.registry.register .module p.pid p.moduleBase
        processes := m.processes ++ [p] }) ∨
    (∃ q ∈ m.processes, q.pid = p.pid) ∧
      (attach p).run m = (fail (.alreadyRegistered p.pid), m) := by
  unfold LiveModule.attach
  rw [run_bind, run_get]
  dsimp only
  by_cases hnew : (m.processes.any fun q ↦ q.pid == p.pid) = true
  · rw [if_pos hnew]
    exact .inr ⟨by simpa using hnew, rfl⟩
  · rw [if_neg hnew]
    exact .inl ⟨by simpa using hnew, rfl⟩

/-- A process that was attached is the last one, and none before it has its identifier. -/
theorem eq_of_attach {m m' : LiveModule} {p : AttachedProcess}
    (hrun : (attach p).run m = (.ok (), m')) :
    (∀ q ∈ m.processes, q.pid ≠ p.pid) ∧ m' = { m with
      registry := m.registry.register .module p.pid p.moduleBase
      processes := m.processes ++ [p] } := by
  rcases run_attach m p with ⟨hnew, h⟩ | ⟨-, h⟩
  · cases h.symm.trans hrun
    exact ⟨hnew, rfl⟩
  · cases h.symm.trans hrun

/-- What adding a new process keeps, attaching one keeps. -/
theorem keeps_attach {I : LiveModule → Prop} {p : AttachedProcess}
    (h : ∀ m, I m → (∀ q ∈ m.processes, q.pid ≠ p.pid) → I { m with
      registry := m.registry.register .module p.pid p.moduleBase
      processes := m.processes ++ [p] }) : Keeps I (attach p) := by
  refine Keeps.of_run fun m hm ↦ ?_
  rcases run_attach m p with ⟨hnew, hrun⟩ | ⟨-, hrun⟩
  · rw [hrun]
    exact h m hm hnew
  · rw [hrun]
    exact hm

/-- Attaching a process keeps a module consistent. -/
theorem IsConsistent.attach {m : LiveModule} (hm : m.IsConsistent) (p : AttachedProcess) :
    ((attach p).run m).2.IsConsistent := by
  refine (keeps_attach fun m hm hnew ↦ ⟨?_, by rw [Registry.size_register]; exact hm.registry⟩).run hm
  rw [List.map_append, List.nodup_append]
  refine ⟨hm.distinct, by simp, ?_⟩
  intro pid hpid pid' hpid'
  obtain ⟨q, hq, rfl⟩ := List.mem_map.mp hpid
  rw [List.map_singleton, List.mem_singleton] at hpid'
  rw [hpid']
  exact hnew q hq

/-- Detaching a process keeps a module consistent. -/
theorem IsConsistent.detach {m : LiveModule} (hm : m.IsConsistent) (pid : UInt32) :
    (m.detach pid).IsConsistent := by
  refine ⟨hm.distinct.sublist (List.filter_sublist.map _), ?_⟩
  have hsize : (m.detach pid).registry.size = m.registry.size := by
    simp [LiveModule.detach, Registry.unregister, Registry.size]
  rw [hsize]
  exact hm.registry

/-- The modules that can be reached: from the start, through operations with whatever they come to,
while files, tools, processes and agents may change in any way between them. -/
inductive Reachable : LiveModule → Prop where
  | load {m : LiveModule} (path : Path) (settings : Settings) (provider : Provider)
      (workshop : Workshop) (h : load path settings provider workshop = .ok m) : Reachable m
  | attach {m : LiveModule} (h : Reachable m) (p : AttachedProcess) :
      Reachable ((attach p).run m).2
  | detach {m : LiveModule} (h : Reachable m) (pid : UInt32) : Reachable (m.detach pid)
  | update {m : LiveModule} (h : Reachable m) : Reachable (update.run m).2
  | updateWithObjects {m : LiveModule} (h : Reachable m) (objects : List Path) :
      Reachable ((updateWithObjects objects).run m).2
  | installPatches {m : LiveModule} (h : Reachable m) (pid : UInt32) :
      Reachable ((installPatches pid).run m).2
  | surroundings {m m' : LiveModule} (h : Reachable m) (registry : m'.registry = m.registry)
      (patches : m'.patches = m.patches)
      (processes : m'.processes.map AttachedProcess.pid = m.processes.map AttachedProcess.pid) :
      Reachable m'

/-- Every module that can be reached is consistent. -/
theorem Reachable.isConsistent {m : LiveModule} (h : m.Reachable) : m.IsConsistent := by
  induction h with
  | load path settings provider workshop h => exact isConsistent_load h
  | attach _ p ih => exact ih.attach p
  | detach _ pid ih => exact ih.detach pid
  | update _ ih => exact ih.run fun _ ↦ has_update
  | updateWithObjects _ objects ih => exact ih.run fun _ ↦ has_updateWithObjects objects
  | installPatches _ pid ih => exact ih.run fun _ ↦ has_installPatches pid
  | surroundings _ hregistry _ hprocesses ih =>
    exact ⟨hprocesses ▸ ih.distinct, hregistry ▸ ih.registry⟩

end LiveModule
end LivePatch
