import LivePatch.Proofs.Patch.Receiving
import LivePatch.Proofs.Session.Reinstalling

/-!
# What successful cycles come to

Until its patch is loaded, a cycle changes nothing in the memory of any process. A cycle that succeeds
loaded the patch into all of them, entered it as the newest image and activated it there. Where there
was room, every process received just that patch.
-/

namespace LivePatch

/-- A process that an image lies in at a base; where that was clear, nothing else changed in memory. -/
structure AttachedProcess.Holds (p : AttachedProcess) (base : UInt64) (q : AttachedProcess) :
    Prop where
  pid : q.pid = p.pid
  stays : p.target.memory.IsClear base → p.target.StaysIn false q.target
  admits : p.target.Admits (some base) q.target

/-- A process that has room for a patch where the registry has it. -/
def AttachedProcess.HasRoomFor (p : AttachedProcess) (registry : Registry) (token : Token) : Prop :=
  ∀ image, registry.mapping? p.pid token = some image → p.target.HasRoom image.base image.size

instance (p : AttachedProcess) (registry : Registry) (token : Token) :
    Decidable (p.HasRoomFor registry token) :=
  inferInstanceAs (Decidable (∀ image, registry.mapping? p.pid token = some image →
    p.target.HasRoom image.base image.size))

/-- A process in which nothing was mapped, changed or allocated. -/
structure AttachedProcess.IsAsFound (p q : AttachedProcess) : Prop where
  stays : p.target.StaysIn false q.target
  admits : p.target.Admits none q.target

namespace LoadRun

/-- A patch that was loaded into all processes lies in each of them. -/
theorem holds_loadEach {moduleSize : UInt32} {path : Path} {isFirst : Bool} {files : FileTree}
    {image : Image} {origins fleet : Fleet} {r : LoadRun}
    (hfleet : List.Forall₂ AttachedProcess.IsAsFound origins fleet)
    (hr : loadEach moduleSize path isFirst files image fleet = .ok r) (hc : r.isComplete = true) :
    ∃ hosts : List Host, hosts.map Host.process = origins ∧ hosts.map Host.base = r.bases ∧
      List.Forall₂ (fun h q ↦ h.process.Holds h.base q) hosts r.processes := by
  induction hfleet generalizing isFirst files image r with
  | nil =>
    cases hr
    exact ⟨[], rfl, rfl, .nil⟩
  | @cons p q origins rest hq hrest ih =>
    have hload := LoadState.staysIn_load moduleSize path isFirst ⟨files, image, q⟩ hq.stays
    have hadmits := LoadState.admits_load moduleSize path isFirst ⟨files, image, q⟩ hq.admits
    have hpid := (LoadState.is_load moduleSize path isFirst).run (s := ⟨files, image, q⟩) hq.stays.pid
    unfold loadEach at hr
    generalize (LoadState.load moduleSize path isFirst).run ⟨files, image, q⟩ = loaded
      at hload hadmits hpid hr
    rcases loaded with ⟨(_ | _) | _ | base, s⟩
    · cases hr
      cases hc
    · cases hr
    · cases hr
      cases hc
    · obtain ⟨more, hmore, hr⟩ := Outcome.bind_eq_ok_iff.mp hr
      cases hr
      obtain ⟨hosts, hprocesses, hbases, hall⟩ := ih hmore hc
      exact ⟨⟨p, base⟩ :: hosts, by rw [List.map_cons, hprocesses], by rw [List.map_cons, hbases],
        .cons ⟨hpid, fun hclear ↦ hload base rfl hclear, hadmits base rfl⟩ hall⟩

/-- Where the processes that an image lies in have it. -/
theorem placed_zip {hosts : List Host} {fleet : Fleet}
    (h : List.Forall₂ (fun h q ↦ AttachedProcess.pid q = (Host.process h).pid) hosts fleet) :
    (fleet.zip (hosts.map Host.base)).map (fun e ↦ (⟨e.1.pid, e.2⟩ : Placed))
      = hosts.map fun h ↦ ⟨h.process.pid, h.base⟩ := by
  induction h with
  | nil => rfl
  | cons hpid _ ih => simp only [List.map_cons, List.zip_cons_cons, hpid, ih]

end LoadRun

namespace LiveModule

variable {m s : LiveModule}

/-- A session whose registry, patches and processes are as they were. -/
structure IsUnmoved (m s : LiveModule) : Prop where
  registry : s.registry = m.registry
  patches : s.patches = m.patches
  processes : List.Forall₂ AttachedProcess.IsAsFound m.processes s.processes

/-- A session in which the newest image lies in all processes, and which is otherwise as it was. -/
structure IsReadied (m s : LiveModule) : Prop where
  registry : ∃ image, s.registry = m.registry.append image
  patches : s.patches = m.patches
  processes : List.Forall₂ (fun p q ↦ ∃ image,
    s.registry.mapping? (AttachedProcess.pid p) m.registry.next = some image ∧ p.Holds image.base q)
    m.processes s.processes

/-- A session that is about to activate its newest image. -/
structure IsReadyFor (m : LiveModule) (l : Launch) (s : LiveModule) : Prop extends IsReadied m s where
  patch : l.patch.token = m.registry.next
  token : l.activation.view.token = m.registry.next
  view : l.activation.view.registry = s.registry

theorem IsUnmoved.refl (m : LiveModule) : m.IsUnmoved m :=
  ⟨rfl, rfl, List.forall₂_same.mpr fun _ _ ↦ ⟨.refl _, .refl _⟩⟩

theorem isUnmoved_ignoresBooks (m : LiveModule) : IgnoresBooks m.IsUnmoved where
  work := fun _ _ hs ↦ ⟨hs.registry, hs.patches, hs.processes⟩
  informing := fun hinformed hs ↦ ⟨hs.registry, hs.patches,
    Pointwise.comp hs.processes hinformed fun _ _ _ h h' ↦
      ⟨h'.target ▸ h.stays, h'.target ▸ h.admits⟩⟩
  books := fun _ _ _ hs ↦ ⟨hs.registry, hs.patches, hs.processes⟩

theorem isReadied_ignoresBooks (m : LiveModule) : IgnoresBooks m.IsReadied where
  work := fun _ _ hs ↦ ⟨hs.registry, hs.patches, hs.processes⟩
  informing := fun hinformed hs ↦ ⟨hs.registry, hs.patches,
    Pointwise.comp hs.processes hinformed fun _ _ _ ⟨image, himage, h⟩ h' ↦
      ⟨image, himage, h'.pid.trans h.pid, fun hclear ↦ h'.target ▸ h.stays hclear,
        h'.target ▸ h.admits⟩⟩
  books := fun _ _ _ hs ↦ ⟨hs.registry, hs.patches, hs.processes⟩

/-- Entering an image that was loaded into all processes. -/
theorem readied_enroll (hm : m.IsConsistent) {hosts : List Host}
    (hprocesses : hosts.map Host.process = m.processes) (path : Path) (p : Prepared) :
    Triple (fun s ↦ s.registry = m.registry ∧ s.patches = m.patches ∧
        List.Forall₂ (fun h q ↦ AttachedProcess.Holds (Host.process h) h.base q) hosts s.processes)
      (enroll path p (hosts.map Host.base))
      (fun token s ↦ token = m.registry.next ∧ m.IsReadied s) fun _ ↦ True := by
  refine Triple.bind_get fun s ⟨hregistry, hpatches, hall⟩ ↦ ?_
  have hplaced : (s.processes.zip (hosts.map Host.base)).map
      (fun e ↦ (⟨AttachedProcess.pid e.1, e.2⟩ : Placed))
        = hosts.map fun h ↦ ⟨h.process.pid, h.base⟩ :=
    LoadRun.placed_zip (hall.imp fun _ _ h ↦ h.pid)
  have hpids : (s.processes.zip (hosts.map Host.base)).map (fun e ↦ AttachedProcess.pid e.1)
      = m.processes.map AttachedProcess.pid := by
    have := congrArg (List.map Placed.pid) hplaced
    rw [List.map_map, List.map_map] at this
    rw [← hprocesses, List.map_map]
    exact this
  have hdistinct := hm.distinct
  rw [← hpids] at hdistinct
  have hfold := Registry.foldl_register_append m.registry ⟨path, p.tables, p.size, []⟩
    (s.processes.zip (hosts.map Host.base)) (fun e ↦ e.1.pid) (fun e ↦ e.2) hdistinct
  rw [hplaced] at hfold
  refine Triple.bind (R := fun _ s' ↦ m.IsReadied s') (Triple.set fun _ _ ↦ ?_) fun _ ↦
    Triple.pure fun _ hs ↦ ⟨by rw [hregistry], hs⟩
  rw [hregistry]
  refine ⟨⟨_, hfold⟩, hpatches, ?_⟩
  rw [← hprocesses, List.forall₂_map_left_iff]
  refine Pointwise.imp_of_mem hall fun h hh q _ hq ↦ ⟨⟨h.base, p.size⟩, ?_, hq⟩
  change Registry.mapping? (List.foldl _ (m.registry.insert path p.tables p.size) _) _ _ = _
  have hmem : (⟨h.process.pid, h.base⟩ : Placed) ∈ hosts.map fun h ↦ ⟨h.process.pid, h.base⟩ :=
    List.mem_map_of_mem hh
  have hnodup : ((hosts.map fun h ↦ (⟨h.process.pid, h.base⟩ : Placed)).map Placed.pid).Nodup := by
    have := hm.distinct
    rw [← hprocesses] at this
    rwa [List.map_map] at this ⊢
  rw [show List.foldl _ (m.registry.insert path p.tables p.size) _ = _ from hfold,
    Registry.mapping?_append]
  exact congrArg (Option.map _) (Registry.find?_placed hnodup hmem)

/-- Collecting what is to be activated gets a session ready for it, or gives the patch up. -/
theorem ready_gather {patch : PatchRecord} (hpatch : patch.token = m.registry.next) (p : Prepared)
    (image : Image) (needed : PathSet) (stripped : Stripped) (bases : List UInt64) :
    Triple m.IsReadied (gather patch p image needed stripped bases)
      (fun begun s ↦ ∀ l, begun = .inr l → m.IsReadyFor l s) fun _ ↦ True := by
  have hkeeps : Keeps m.IsReadied (needed.toList.mapM fun o ↦ inWorkshop (Workshop.object o)) :=
    Keeps.mapM fun _ _ ↦ (isReadied_ignoresBooks m).inWorkshop _
  refine Triple.bind (hkeeps.tried.mono (fun _ h ↦ h) (fun _ _ h ↦ h) fun _ _ ↦ trivial)
    fun objects ↦ ?_
  rcases objects with (_ | _) | objects
  · exact Keeps.bind_any (Keeps.triv _) (fun _ ↦ Triple.pure fun _ _ l h ↦ by cases h) |>.mono
      (fun _ _ ↦ trivial) (fun _ _ h ↦ h) fun _ h ↦ h
  · exact Triple.throw fun _ _ ↦ trivial
  · refine Triple.bind_get fun s hs ↦ Triple.pure fun _ heq l hl ↦ ?_
    cases hl
    subst heq
    exact ⟨hs, hpatch, hpatch, rfl⟩

/-- Loading a linked patch into all processes gets a session ready for its activation, or ends. -/
theorem ready_loadLinked (hm : m.IsConsistent) (path : Path) (needed : PathSet)
    (stripped : Stripped) :
    Triple m.IsUnmoved (loadLinked path needed stripped)
      (fun begun s ↦ ∀ l, begun = .inr l → m.IsReadyFor l s) fun _ ↦ True := by
  have hended : ∀ bases outcome, Triple (fun _ ↦ True) (do
      unload bases
      return .inl (← abandon outcome) : CycleM (CycleOutcome ⊕ Launch))
      (fun begun s ↦ ∀ l, begun = .inr l → m.IsReadyFor l s) fun _ ↦ True := fun _ _ ↦
    Keeps.triv_bind fun _ ↦ Keeps.triv_bind fun _ ↦ Triple.pure fun _ _ _ h ↦ by cases h
  have htrue : ∀ {I : LiveModule → Prop}, ∀ s, I s → True := fun _ _ ↦ trivial
  refine Keeps.bind_any ((isUnmoved_ignoresBooks m).prepare path) fun p ↦
    Triple.bind_get fun s hs ↦ Triple.bind_lift (fun r hr ↦ ?_) htrue
  refine Triple.bind (R := fun _ s' ↦ s'.registry = m.registry ∧ s'.patches = m.patches ∧
    s'.processes = r.processes) (Triple.set fun _ _ ↦ ⟨hs.registry, hs.patches, rfl⟩) fun _ ↦ ?_
  split
  · exact (hended _ _).mono htrue (fun _ _ h ↦ h) fun _ h ↦ h
  · next hcomplete =>
    obtain ⟨hosts, hprocesses, hbases, hall⟩ :=
      LoadRun.holds_loadEach hs.processes hr (by simpa using hcomplete)
    refine Triple.bind_lift (fun isInReach _ ↦ ?_) htrue
    split
    · rw [← hbases]
      refine Triple.bind ((readied_enroll hm hprocesses path p).mono
        (fun s' ⟨hregistry, hpatches, heq⟩ ↦ ⟨hregistry, hpatches, heq ▸ hall⟩) (fun _ _ h ↦ h)
        fun _ h ↦ h) fun token ↦ Triple.of_pre fun s' ⟨htoken, hs'⟩ ↦ ?_
      have hpatch : (PatchRecord.bare path token p.size p.entryPoint).token = m.registry.next := htoken
      exact (ready_gather hpatch p r.image needed stripped _).mono (fun _ h ↦ h ▸ hs')
        (fun _ _ h ↦ h) fun _ h ↦ h
    · exact (hended _ _).mono htrue (fun _ _ h ↦ h) fun _ h ↦ h

/-- Building and loading a patch gets a session ready for its activation, or ends. -/
theorem ready_linkPending (hm : m.IsConsistent) :
    Triple m.IsUnmoved linkPending (fun begun s ↦ ∀ l, begun = .inr l → m.IsReadyFor l s)
      fun _ ↦ True := by
  have h := (isUnmoved_ignoresBooks m).toIgnoresWork
  refine Keeps.bind_any Keeps.get fun s ↦ ?_
  split
  · exact Triple.pure fun _ _ _ h ↦ by cases h
  · refine (h.inWorkshop _).bind_any fun owners ↦ (h.inWorkshop _).bind_any fun needed ↦
      Keeps.get.bind_any fun _ ↦ (h.inWorkshop _).bind_any fun stripped ↦
      (h.link _ _).tried.bind_any fun linked ↦ (h.inWorkshop _).tried.bind_any fun restored ↦
      (Keeps.lift _).bind_any fun linked ↦ (Keeps.lift _).bind_any fun _ ↦ ?_
    split
    · exact (h.callHooks _).bind_any fun _ ↦ Triple.pure fun _ _ _ h ↦ by cases h
    · exact ready_loadLinked hm _ _ _

variable {begin : CycleM (CycleOutcome ⊕ Launch)} {act : CycleM CycleOutcome}

/-- A cycle comes to its activation with the newest image in all processes, or it ends. -/
theorem Begins.ready (h : Begins begin act) (hm : m.IsConsistent) :
    Triple m.IsUnmoved begin (fun begun s ↦ ∀ l, begun = .inr l → m.IsReadyFor l s)
      fun _ ↦ True := by
  have hbooks := isUnmoved_ignoresBooks m
  have hlink : ∀ ended, Triple m.IsUnmoved (linkUnless ended)
      (fun begun s ↦ ∀ l, begun = .inr l → m.IsReadyFor l s) fun _ ↦ True := by
    intro ended
    cases ended with
    | some outcome => exact Triple.pure fun _ _ _ h ↦ by cases h
    | none => exact ready_linkPending hm
  cases h with
  | update =>
    have hcompile : Keeps m.IsUnmoved compileChanged := by
      refine hbooks.detectChanges.bind fun _ ↦ Keeps.get.bind fun s ↦ ?_
      split
      · exact Keeps.pure _
      · split
        · refine (hbooks.callHooks _).bind fun _ ↦ hbooks.compile.bind fun failures ↦ ?_
          split
          · exact (hbooks.callHooks _).bind fun _ ↦ Keeps.pure _
          · exact (hbooks.callHooks _).bind fun _ ↦ Keeps.pure _
        · exact Keeps.pure _
    exact hcompile.bind_any hlink
  | updateWithObjects objects =>
    have haccept : Keeps m.IsUnmoved (acceptAll objects) := by
      refine (Keeps.forM fun _ _ ↦ hbooks.accept _).bind fun _ ↦ Keeps.get.bind fun s ↦ ?_
      split <;> exact Keeps.pure _
    exact haccept.bind_any hlink

/-- What an activation that succeeded left behind. -/
theorem exists_run_of_launch {l : Launch} {m' : LiveModule}
    (hrun : (launch l).run m = (.ok .success, m')) :
    ∃ patch staged,
      (l.activation.run l.objects l.patch).run (m.processes.map Staged.ofProcess)
        = (.ok patch, staged) ∧ m'.registry = m.registry ∧ m'.patches = m.patches ++ [patch] ∧
      m'.processes = staged.map Staged.process := by
  unfold launch at hrun
  rw [run_bind, run_get] at hrun
  dsimp only at hrun
  split at hrun
  · next patch staged hok =>
    unfold finish at hrun
    rw [run_bind, run_set] at hrun
    dsimp only at hrun
    rw [run_bind, run_clearPending] at hrun
    cases hrun
    exact ⟨patch, staged, hok, rfl, rfl, rfl⟩
  · cases hrun
  · next staged herror =>
    have hgiveUp : Triple (fun _ ↦ True) (do
        set { m with processes := staged.map (Staged.revert m.files) }
        giveUp l.patch.token l.bases : CycleM CycleOutcome)
        (fun outcome _ ↦ outcome = .activateError) fun _ ↦ True :=
      Keeps.triv_bind fun _ ↦ Keeps.triv_bind fun _ ↦ Keeps.triv_bind fun _ ↦ triple_abandon _
    cases hgiveUp.ok trivial hrun

/-- A cycle that succeeds gets to its activation, which succeeds as well. -/
theorem Begins.exists_launch (h : Begins begin act) (hm : m.IsConsistent) {m' : LiveModule}
    (hrun : act.run m = (.ok .success, m')) :
    ∃ (l : Launch) (s : LiveModule) (patch : PatchRecord) (staged : List Staged),
      begin.run m = (.ok (.inr l), s) ∧ m.IsReadyFor l s ∧
      (l.activation.run l.objects l.patch).run (s.processes.map Staged.ofProcess)
        = (.ok patch, staged) ∧ m'.registry = s.registry ∧ m'.patches = m.patches ++ [patch] ∧
      m'.processes = staged.map Staged.process := by
  have hbegun := h.hasBegun m (List.forall₂_same.mpr fun p _ ↦ p.stands_outside)
  have hready := h.ready hm m (.refl m)
  rw [h.eq, run_bind] at hrun
  generalize begin.run m = begun at hrun hbegun hready ⊢
  obtain ⟨(_ | _) | outcome | l, s⟩ := begun
  · cases hrun
  · cases hrun
  · cases hrun
    exact (hbegun.1 rfl).elim
  · have hs := hready l rfl
    obtain ⟨patch, staged, hok, hregistry, hpatches, hprocesses⟩ := exists_run_of_launch hrun
    exact ⟨l, s, patch, staged, rfl, hs, hok, hregistry, hs.patches ▸ hpatches, hprocesses⟩

/-- A cycle that succeeds adds an image and a patch, and every process received the patch if all of
them had room for it. -/
theorem Begins.received (h : Begins begin act) (hm : m.IsConsistent) {m' : LiveModule}
    (hrun : act.run m = (.ok .success, m'))
    (hroom : ∀ p ∈ m.processes, p.HasRoomFor m'.registry m.registry.next) :
    ∃ image patch, m'.registry = m.registry.append image ∧ m'.patches = m.patches ++ [patch] ∧
      (∀ r ∈ patch.functions, r.technique.IsRoomy) ∧
      List.Forall₂ (fun p q ↦ p.target.Receives m'.registry patch (AttachedProcess.target q).sight)
        m.processes m'.processes := by
  obtain ⟨l, s, patch, staged, -, hs, hok, hregistry, hpatches, hprocesses⟩ :=
    h.exists_launch hm hrun
  obtain ⟨image, himage⟩ := hs.registry
  refine ⟨image, patch, hregistry.trans himage, hpatches, ?_⟩
  have hroom' : ∀ o ∈ m.processes.map AttachedProcess.target, ∃ image,
      l.activation.view.registry.mapping? o.pid l.activation.view.token = some image ∧
        o.HasRoom image.base image.size := by
    intro o ho
    obtain ⟨p, hp, rfl⟩ := List.mem_map.mp ho
    obtain ⟨q, hq, image, himage, hholds⟩ := Pointwise.exists_right hs.processes hp
    rw [hs.view, hs.token]
    exact ⟨image, himage, hroom p hp image (by rw [hregistry]; exact himage)⟩
  have hstart : List.Forall₂ (fun o s ↦ Target.StaysIn o false (Staged.process s).target)
      (m.processes.map AttachedProcess.target) (s.processes.map Staged.ofProcess) := by
    rw [List.forall₂_map_left_iff, List.forall₂_map_right_iff]
    refine Pointwise.imp_of_mem hs.processes fun p hp q _ ⟨image, himage, hholds⟩ ↦ ?_
    refine hholds.stays ((hroom p hp image ?_).image.isClear (Nat.le_refl _) (by omega))
    rw [hregistry]
    exact himage
  obtain ⟨hroomy, hreceived⟩ := (Activation.receives_run (hs.patch.trans hs.token.symm) hroom'
    l.objects).ok hstart hok
  refine ⟨hroomy, ?_⟩
  rw [hprocesses, List.forall₂_map_right_iff]
  rw [List.forall₂_map_left_iff, hs.view, ← hregistry] at hreceived
  exact hreceived

/-! ### Installing earlier patches -/

section Installing

variable {pid : UInt32} {patch : PatchRecord} {p q : AttachedProcess} {base : UInt64}

/-- Making the edits of a patch again in a process that it was loaded into. -/
theorem exists_of_replayLoaded {m' : LiveModule}
    (hrun : (replayLoaded patch q base).run m = (.ok ⟨⟩, m')) :
    ∃ t, (patch.replay m.files (m.registry.register patch.token q.pid base)).run (.ofProcess q)
        = (.ok ⟨⟩, t) ∧
      m' = { m with registry := m.registry.register patch.token q.pid base }.putProcess t.process := by
  rw [run_replayLoaded] at hrun
  split at hrun
  · next t ht =>
    cases hrun
    exact ⟨t, ht, rfl⟩
  · cases hrun
  · cases hrun

/-- An install of a patch that works loads it into the process, notes where it is mapped there and
makes its edits. -/
theorem exists_of_replay (hp : m.process? pid = some p) {m' : LiveModule}
    (hrun : (replay pid patch).run m = (.ok ⟨⟩, m')) :
    ∃ (image : Image) (base : UInt64) (s : LoadState) (files : FileTree) (t : Staged),
      (LoadState.load m.registry.moduleSize patch.path false).run ⟨m.files, image, p⟩
        = (.ok (some base), s) ∧ s.process.pid = pid ∧
      (patch.replay files m'.registry).run (.ofProcess s.process) = (.ok ⟨⟩, t) ∧
      m'.registry = m.registry.register patch.token pid base ∧ m'.patches = m.patches ∧
      m'.processes = (m.putProcess t.process).processes ∧ t.process.pid = pid := by
  obtain rfl := pid_of_process? hp
  unfold replay at hrun
  rw [run_bind, run_get] at hrun
  dsimp only at hrun
  rw [hp] at hrun
  obtain ⟨image, -, hrun⟩ := run_bind_lift_eq_ok_iff.mp hrun
  have hsame := (LoadState.is_load m.registry.moduleSize patch.path false).run
    (s := ⟨m.files, image, p⟩) (rfl : p.pid = p.pid)
  rcases hload : (LoadState.load m.registry.moduleSize patch.path false).run ⟨m.files, image, p⟩
    with ⟨result, s⟩
  rw [hload] at hrun hsame
  have hsame : s.process.pid = p.pid := hsame
  dsimp only at hrun
  rw [run_bind, run_set] at hrun
  dsimp only at hrun
  obtain ⟨found, hfound, hrun⟩ := run_bind_lift_eq_ok_iff.mp hrun
  cases found with
  | none => cases hrun
  | some base =>
    obtain ⟨isInReach, -, hrun⟩ := run_bind_lift_eq_ok_iff.mp hrun
    cases isInReach with
    | false =>
      obtain ⟨_, _, -, hfail⟩ := run_bind_eq_ok_iff.mp hrun
      cases hfail
    | true =>
      obtain ⟨t, ht, rfl⟩ := exists_of_replayLoaded hrun
      have hpids : t.process.pid = p.pid :=
        (patch.is_replay _ _).run_eq (s := .ofProcess s.process) hsame ht
      refine ⟨image, base, s, _, t, hfound ▸ hload, hsame, ht, ?_, rfl, ?_, hpids⟩
      · exact congrArg (m.registry.register patch.token · base) hsame
      · exact processes_putProcess (hsame.trans hpids.symm) rfl

/-- An install of a patch that works notes where the patch is mapped in the process, which received
it, but for functions that a thread was inside, if it had room and could be suspended. -/
theorem received_of_replay (hp : m.process? pid = some p) {m' : LiveModule}
    (hrun : (replay pid patch).run m = (.ok ⟨⟩, m')) :
    ∃ base q, m'.registry = m.registry.register patch.token pid base ∧ m'.patches = m.patches ∧
      m'.processes = (m.putProcess q).processes ∧ q.pid = pid ∧
      (m'.registry.mapping? pid patch.token ≠ none → p.target.gate.LetsGo →
        p.HasRoomFor m'.registry patch.token →
        p.target.Receives m'.registry (patch.sparingIn m'.registry p) q.target.sight) := by
  obtain rfl := pid_of_process? hp
  obtain ⟨image, base, s, files, t, hload, hsame, ht, hregistry, hpatches, hprocesses, hpids⟩ :=
    exists_of_replay hp hrun
  refine ⟨base, t.process, hregistry, hpatches, hprocesses, hpids, fun hmapped hgate hroom ↦ ?_⟩
  obtain ⟨placed, hplaced⟩ := Option.ne_none_iff_exists'.mp hmapped
  have hroom := hroom placed hplaced
  have hclear : p.target.memory.IsClear base := by
    rw [hregistry, Registry.mapping?_register] at hplaced
    obtain ⟨i, -, rfl⟩ := Option.map_eq_some_iff.mp hplaced
    exact hroom.image.isClear (Nat.le_refl _) (Nat.lt_add_of_pos_right (by omega))
  have hunder : p.UnderWay 0 s.process :=
    (LoadState.underWay_load hgate m.registry.moduleSize patch.path false).run_eq
      (s := ⟨m.files, image, p⟩) (.refl p) hload
  have hstays := (LoadState.staysIn_load m.registry.moduleSize patch.path false).ok
    (s := ⟨m.files, image, p⟩) (Target.StaysIn.refl p.target) hload base rfl hclear
  exact (PatchRecord.receives_replay hplaced hroom hgate rfl files).ok
    (s := .ofProcess s.process) ⟨hunder, hstays⟩ ht

end Installing

end LiveModule
end LivePatch
