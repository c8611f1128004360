import LivePatch.Proofs.Patch.Loading
import LivePatch.Proofs.Patch.Stillness
import LivePatch.Proofs.Patch.Timing
import LivePatch.Proofs.Session.Delivery
import LivePatch.Proofs.Session.Handling
import LivePatch.Proofs.Session.Restoration

/-!
# Discipline of commands and edits

Agents are asked for things in the same order in every cycle, wherever the cycle fails. No process
is asked to enter a sync point before the patch was loaded into all of them, no entry point is called
before all processes were prepared for that, and nothing that needs the entry point is edited before
it was called in all of them. Processes that came to a sync point are let go, and the patch is
unloaded from where it was loaded exactly when the cycle does not succeed.

And in every cycle and every installation of earlier patches, whatever it comes to and wherever it
fails, processes are only written to while nothing else runs in them, and they are left as they were
found.
-/

namespace LivePatch

/-! ### Loading and unloading -/

namespace AttachedProcess

/-- The process was not asked to enter a sync point, and it does not have the patch. -/
def IsSpared (p q : AttachedProcess) : Prop :=
  ∃ w, p.Stands w q ∧ (w = .outside ∨ w = .turnedAway ∨ w = .withdrawn)

theorem isSpared_ofDialog (p : AttachedProcess) : OfDialog p.IsSpared :=
  fun _ _ ⟨w, hq, hw⟩ hr ↦ ⟨w, p.stands_ofDialog w hq hr, hw⟩

/-- Unloading a patch moves a process on, whatever comes back. -/
theorem Stands.unload {p q : AttachedProcess} {w w' : Standing} {base : UInt64}
    (hq : p.Stands w q) (files : FileTree)
    (hstep : ∀ reply, w.Step ⟨.unloadPatch base, reply⟩ w') :
    p.Stands w' ((tell files (.unloadPatch base)).run q).2 := by
  have htold := stands_tell_any files rfl hstep q hq
  generalize (tell files (.unloadPatch base)).run q = r at htold ⊢
  rcases r with ⟨_ | _, s⟩ <;> exact htold

end AttachedProcess

namespace LoadState

/-- Loading a patch asks an agent for that at most. -/
theorem stands_load (p : AttachedProcess) (moduleSize : UInt32) (path : Path) (inPlace : Bool) :
    Triple (fun s ↦ p.Stands .outside s.process) (load moduleSize path inPlace)
      (fun base s ↦ base.elim (p.IsSpared s.process) fun base ↦ p.Stands (.loaded base) s.process)
      fun s ↦ p.IsSpared s.process := by
  have houtside : ∀ q, p.Stands .outside q → p.IsSpared q := fun _ hq ↦ ⟨_, hq, .inl rfl⟩
  have haway : ∀ q, p.Stands .turnedAway q → p.IsSpared q := fun _ hq ↦ ⟨_, hq, .inr (.inl rfl)⟩
  have hbefore : ∀ {α : Type} {act : LoadM α}, Keeps (fun s ↦ p.Stands .outside s.process) act →
      Triple (fun s ↦ p.Stands .outside s.process) act (fun _ s ↦ p.Stands .outside s.process)
        fun s ↦ p.IsSpared s.process :=
    fun h ↦ h.mono (fun _ h ↦ h) (fun _ _ h ↦ h) fun _ ↦ houtside _
  have hroom : ∀ size, Keeps (fun s ↦ p.Stands .outside s.process) (findRoom moduleSize size) :=
    fun size ↦ Keeps.get.bind fun _ ↦ triple_onProcess ((p.stands_ofDialog _).onTarget _)
  refine Triple.bind (hbefore Keeps.get) fun s ↦ Triple.bind (hbefore (Keeps.lift _)) fun size ↦
    Triple.bind (hbefore (hroom size)) fun room ↦ ?_
  cases room with
  | none => exact Triple.pure fun _ ↦ houtside _
  | some base =>
    refine Triple.bind (hbefore (keeps_placeAt path inPlace base)) fun file ↦
      Triple.bind (hbefore Keeps.get) fun s ↦ ?_
    refine (triple_onProcess (AttachedProcess.stands_loadPatch _ file)).mono (fun _ h ↦ h)
      (fun base s h ↦ ?_) fun _ ↦ haway _
    cases base with
    | none => exact haway _ h
    | some base => exact h

end LoadState

namespace LoadRun

/-- The patch lies in all processes, and nothing else was asked of them. -/
def AllLoaded (hosts : List Host) : Fleet → Prop :=
  List.Forall₂ (fun h q ↦ h.process.Stands (.loaded h.base) q) hosts

/-- Loading a patch into processes asks nothing else of them. When it could not be loaded into one
of them, it was loaded into those before and nothing was asked of those behind. -/
theorem stands_loadEach {moduleSize : UInt32} {path : Path} {isFirst : Bool} {files : FileTree}
    {image : Image} {origins fleet : Fleet} {r : LoadRun}
    (hfleet : List.Forall₂ (fun p q ↦ p.Stands .outside q) origins fleet)
    (hr : loadEach moduleSize path isFirst files image fleet = .ok r) :
    (r.isComplete = true → ∃ hosts : List Host, hosts.map Host.process = origins ∧
      hosts.map Host.base = r.bases ∧ AllLoaded hosts r.processes) ∧
    ∀ files, List.Forall₂ AttachedProcess.IsSpared origins
      (unloadEach files r.bases r.processes) := by
  induction hfleet generalizing isFirst files image r with
  | nil =>
    cases hr
    exact ⟨fun _ ↦ ⟨[], rfl, rfl, .nil⟩, fun _ ↦ .nil⟩
  | @cons p q origins rest hq hrest ih =>
    have hbehind : List.Forall₂ AttachedProcess.IsSpared origins rest :=
      hrest.imp fun _ _ h ↦ ⟨_, h, .inl rfl⟩
    have hload := LoadState.stands_load p moduleSize path isFirst ⟨files, image, q⟩ hq
    unfold loadEach at hr
    generalize (LoadState.load moduleSize path isFirst).run ⟨files, image, q⟩ = loaded at hload hr
    rcases loaded with ⟨(_ | _) | _ | base, s⟩
    · cases hr
      exact ⟨(fun h ↦ by cases h), fun _ ↦ .cons hload hbehind⟩
    · cases hr
    · cases hr
      exact ⟨(fun h ↦ by cases h), fun _ ↦ .cons hload hbehind⟩
    · obtain ⟨more, hmore, hr⟩ := Outcome.bind_eq_ok_iff.mp hr
      cases hr
      obtain ⟨hcomplete, hunloaded⟩ := ih hmore
      refine ⟨fun hc ↦ ?_, fun files ↦ .cons ?_ (hunloaded files)⟩
      · obtain ⟨hosts, hprocesses, hbases, hall⟩ := hcomplete hc
        exact ⟨⟨p, base⟩ :: hosts, by rw [List.map_cons, hprocesses],
          by rw [List.map_cons, hbases], .cons hload hall⟩
      · exact ⟨_, AttachedProcess.Stands.unload hload files (.withdraws base), .inr (.inr rfl)⟩

/-- Unloading a patch from all processes does to each what unloading it from one does. -/
theorem unloadEach_related {hosts : List Host} {I J : Host → AttachedProcess → Prop}
    {files : FileTree} (h : ∀ host q, I host q →
      J host ((AttachedProcess.tell files (.unloadPatch host.base)).run q).2)
    {processes : Fleet} (hall : List.Forall₂ I hosts processes) :
    List.Forall₂ J hosts (unloadEach files (hosts.map Host.base) processes) := by
  induction hall with
  | nil => exact .nil
  | cons hhead _ ih => exact .cons (h _ _ hhead) ih

/-- Whether patches are in reach is not asked of processes, so that nothing refuses to answer. -/
theorem isInReach_ne_error (moduleSize size : UInt32) (bases : List UInt64) (fleet : Fleet)
    (e : Error) : isInReach moduleSize size bases fleet ≠ .error (.error e) := by
  induction bases generalizing fleet with
  | nil => exact nofun
  | cons base bases ih =>
    cases fleet with
    | nil => exact nofun
    | cons p rest =>
      unfold isInReach
      have hfirst := LiveModule.isWithinReach_ne_error p.moduleBase moduleSize.toUInt64 base
        size.toUInt64
      generalize Placement.isWithinReach p.moduleBase moduleSize.toUInt64 base size.toUInt64 = first
        at hfirst ⊢
      rcases first with (e | _) | _ | _
      · exact (hfirst e rfl).elim
      · exact nofun
      · exact nofun
      · exact ih rest

end LoadRun

namespace LiveModule

/-! ### Where processes stand in a cycle -/

section Dialogs

variable {τ : Type} {origins : List τ} {I : τ → AttachedProcess → Prop}

/-- What only depends on what agents were asked to do does not depend on the books. -/
theorem dialogs_ignoreBooks (hI : ∀ o, AttachedProcess.OfDialog (I o)) :
    IgnoresBooks fun m ↦ List.Forall₂ I origins m.processes where
  work := fun _ _ hs ↦ hs
  informing := fun hinformed hs ↦
    Pointwise.comp hs hinformed fun o _ _ hq hr ↦ hI o hq hr.isOnlyInformed
  books := fun _ _ _ hs ↦ hs

end Dialogs

namespace IgnoresBooks

variable {inv : LiveModule → Prop}

/-- Forgetting what was to be linked always works. -/
theorem returns_clearPending (h : IgnoresBooks inv) :
    Triple inv LiveModule.clearPending (fun _ ↦ inv) fun _ ↦ False := by
  intro m hm
  have hkept := h.clearPending.run hm
  rw [run_clearPending] at hkept ⊢
  exact hkept

theorem returns_abandon (h : IgnoresBooks inv) (outcome : CycleOutcome) :
    Returns inv (LiveModule.abandon outcome) (fun outcome' m ↦ outcome' = outcome ∧ inv m)
      fun _ ↦ False :=
  Returns.bind (.of_triple h.returns_clearPending) fun _ ↦
    Returns.bind (returns_tolerating (h.callHooks _)) fun _ ↦
    .of_triple (Triple.pure fun _ hm ↦ ⟨rfl, hm⟩)

end IgnoresBooks

variable {hosts : List Host}

/-- Giving up a patch unloads it from all processes. -/
theorem returns_giveUp {I J : Host → AttachedProcess → Prop}
    (hJ : ∀ host, AttachedProcess.OfDialog (J host))
    (h : ∀ files host q, I host q →
      J host ((AttachedProcess.tell files (.unloadPatch host.base)).run q).2) (token : Token) :
    Returns (fun m ↦ List.Forall₂ I hosts m.processes) (giveUp token (hosts.map Host.base))
      (fun outcome m ↦ outcome = .activateError ∧ List.Forall₂ J hosts m.processes)
      fun _ ↦ False :=
  Returns.bind (R := fun _ m ↦ List.Forall₂ J hosts m.processes)
    (.of_triple (Triple.modify fun m hm ↦ LoadRun.unloadEach_related (h m.files) hm)) fun _ ↦
    Returns.bind (R := fun _ m ↦ List.Forall₂ J hosts m.processes)
      (.of_triple (Triple.modify fun _ hm ↦ hm)) fun _ ↦
      (dialogs_ignoreBooks hJ).returns_abandon _

/-- Where the processes of a session stand when a cycle that did not end before comes to its
activation: the patch lies in all of them. Otherwise no process was asked to enter a sync point. -/
def HasBegun (fleet : Fleet) (begun : CycleOutcome ⊕ Launch) (m : LiveModule) : Prop :=
  begun.elim
    (fun outcome ↦ outcome ≠ .success ∧ List.Forall₂ AttachedProcess.IsSpared fleet m.processes)
    fun l ↦ l.patch.token = l.activation.view.token ∧
      ∃ hosts : List Host, hosts.map Host.process = fleet ∧ hosts.map Host.base = l.bases ∧
        LoadRun.AllLoaded hosts m.processes

/-- Nothing was asked of the processes of a session yet. -/
def AreOutside (fleet : Fleet) (m : LiveModule) : Prop :=
  List.Forall₂ (fun p q ↦ p.Stands .outside q) fleet m.processes

/-- No process of a session was asked to enter a sync point, and none has the patch. -/
def AreSpared (fleet : Fleet) (m : LiveModule) : Prop :=
  List.Forall₂ AttachedProcess.IsSpared fleet m.processes

theorem AreOutside.spared {fleet : Fleet} {m : LiveModule} (h : AreOutside fleet m) :
    AreSpared fleet m := h.imp fun _ _ hq ↦ ⟨_, hq, .inl rfl⟩

theorem areOutside_ignoresBooks (fleet : Fleet) : IgnoresBooks (AreOutside fleet) :=
  dialogs_ignoreBooks fun p ↦ p.stands_ofDialog _

theorem areSpared_ignoresBooks (fleet : Fleet) : IgnoresBooks (AreSpared fleet) :=
  dialogs_ignoreBooks AttachedProcess.isSpared_ofDialog

variable {fleet : Fleet}

/-- Ending a cycle before anything was activated. -/
theorem hasBegun_abandon {outcome : CycleOutcome} (h : outcome ≠ .success) :
    Returns (AreSpared fleet) (do return .inl (← abandon outcome)) (HasBegun fleet)
      fun _ ↦ False :=
  Returns.bind ((areSpared_ignoresBooks fleet).returns_abandon outcome) fun _ ↦
    .of_triple (Triple.pure fun _ hm ↦ ⟨hm.1 ▸ h, hm.2⟩)

theorem hasBegun_gather (hprocesses : hosts.map Host.process = fleet) (patch : PatchRecord)
    (p : Prepared) (image : Image) (needed : PathSet) (stripped : Stripped) :
    Returns (fun m ↦ LoadRun.AllLoaded hosts m.processes)
      (gather patch p image needed stripped (hosts.map Host.base)) (HasBegun fleet)
      fun _ ↦ False := by
  have hloaded : IgnoresBooks fun m ↦ LoadRun.AllLoaded hosts m.processes :=
    dialogs_ignoreBooks fun h ↦ h.process.stands_ofDialog _
  have hobjects : Keeps (fun m ↦ LoadRun.AllLoaded hosts m.processes)
      (needed.toList.mapM fun o ↦ inWorkshop (Workshop.object o)) :=
    Keeps.mapM fun o _ ↦ hloaded.inWorkshop _
  refine Returns.bind_tried hobjects fun result ↦ ?_
  split
  · exact Returns.fault
  · refine Returns.bind (returns_giveUp (J := fun h ↦ h.process.IsSpared)
      (fun h ↦ h.process.isSpared_ofDialog) (fun files h q hq ↦ ?_) patch.token) fun outcome ↦
      .of_triple (Triple.pure fun m hm ↦ ⟨hm.1 ▸ nofun, ?_⟩)
    · exact ⟨_, AttachedProcess.Stands.unload hq files (.withdraws h.base), .inr (.inr rfl)⟩
    · rw [← hprocesses, List.forall₂_map_left_iff]
      exact hm.2
  · exact Returns.bind_get fun m hm ↦ .of_triple
      (Triple.pure fun _ hs ↦ ⟨rfl, hosts, hprocesses, rfl, hs ▸ hm⟩)

theorem hasBegun_loadLinked (path : Path) (needed : PathSet) (stripped : Stripped) :
    Returns (AreOutside fleet) (loadLinked path needed stripped) (HasBegun fleet)
      (AreSpared fleet) := by
  have hnever : ∀ {act : CycleM (CycleOutcome ⊕ Launch)} {pre : LiveModule → Prop},
      Returns pre act (HasBegun fleet) (fun _ ↦ False) →
      Returns pre act (HasBegun fleet) (AreSpared fleet) :=
    fun h ↦ h.mono (fun _ h ↦ h) (fun _ _ h ↦ h) fun _ h ↦ h.elim
  refine Returns.bind (.of_triple (((areOutside_ignoresBooks fleet).prepare path).mono
    (fun _ h ↦ h) (fun _ _ h ↦ h) fun _ ↦ AreOutside.spared)) fun p ↦
    Returns.bind_get fun m hm ↦ ?_
  refine Returns.bind_lift (fun r hr ↦ ?_) fun _ h ↦ h ▸ hm.spared
  obtain ⟨hcomplete, hunloaded⟩ := LoadRun.stands_loadEach hm hr
  have hgiveUp : ∀ outcome, outcome ≠ .success → Returns (fun m ↦ m.processes = r.processes)
      (do
        unload r.bases
        return .inl (← abandon outcome)) (HasBegun fleet) (AreSpared fleet) := by
    intro outcome h
    refine Returns.bind (R := fun _ ↦ AreSpared fleet) (.of_triple (Triple.modify fun m hm ↦ ?_))
      fun _ ↦ hnever (hasBegun_abandon h)
    change List.Forall₂ _ fleet (LoadRun.unloadEach m.files r.bases m.processes)
    rw [hm]
    exact hunloaded m.files
  refine Returns.bind (R := fun _ (m : LiveModule) ↦ m.processes = r.processes)
    (.of_triple (Triple.set fun _ _ ↦ rfl)) fun _ ↦ ?_
  split
  · exact hgiveUp _ nofun
  · next hr =>
    obtain ⟨hosts, hprocesses, hbases, hall⟩ := hcomplete (by simpa using hr)
    have hreach : Returns (fun m : LiveModule ↦ m.processes = r.processes)
        (liftM (LoadRun.isInReach m.registry.moduleSize p.size r.bases r.processes))
        (fun _ m ↦ m.processes = r.processes) (AreSpared fleet) := by
      intro m' hm'
      rw [run_lift]
      have hnever := LoadRun.isInReach_ne_error m.registry.moduleSize p.size r.bases r.processes
      generalize LoadRun.isInReach m.registry.moduleSize p.size r.bases r.processes = reach
        at hnever ⊢
      rcases reach with (e | _) | isInReach
      · exact (hnever e rfl).elim
      · trivial
      · exact hm'
    refine Returns.bind hreach fun isInReach ↦ ?_
    split
    · have henroll : Triple (fun m : LiveModule ↦ m.processes = r.processes) (enroll path p r.bases)
          (fun _ m ↦ LoadRun.AllLoaded hosts m.processes) fun _ ↦ False :=
        Triple.bind_get fun m hm ↦ Triple.bind
          (R := fun _ (m : LiveModule) ↦ LoadRun.AllLoaded hosts m.processes)
          (Triple.set fun _ _ ↦ hm ▸ hall) fun _ ↦ Triple.pure fun _ h ↦ h
      rw [← hbases] at henroll ⊢
      exact hnever (Returns.bind (.of_triple henroll) fun token ↦
        hasBegun_gather hprocesses _ p r.image needed stripped)
    · exact hgiveUp _ nofun

/-- A cycle that comes to its build loads a patch into all processes, or it ends. -/
theorem hasBegun_linkPending :
    Returns (AreOutside fleet) linkPending (HasBegun fleet) (AreSpared fleet) := by
  have h := (areOutside_ignoresBooks fleet).toIgnoresWork
  have hkeeps : ∀ {α : Type} {act : CycleM α}, Keeps (AreOutside fleet) act →
      Returns (AreOutside fleet) act (fun _ ↦ AreOutside fleet) (AreSpared fleet) :=
    fun hact ↦ .of_triple (hact.mono (fun _ h ↦ h) (fun _ _ h ↦ h) fun _ ↦ AreOutside.spared)
  have hended : ∀ outcome, outcome ≠ .success → Returns (AreOutside fleet)
      (pure (.inl outcome)) (HasBegun fleet) (AreSpared fleet) := fun outcome houtcome ↦
    .of_triple (Triple.pure fun _ hm ↦ ⟨houtcome, hm.spared⟩)
  refine Returns.bind (hkeeps Keeps.get) fun m ↦ ?_
  split
  · exact hended _ nofun
  · refine Returns.bind (hkeeps (h.inWorkshop _)) fun owners ↦
      Returns.bind (hkeeps (h.inWorkshop _)) fun needed ↦ Returns.bind (hkeeps Keeps.get) fun _ ↦
      Returns.bind (hkeeps (h.inWorkshop _)) fun stripped ↦
      Returns.bind_tried (h.link _ _) fun linked ↦
      Returns.bind_tried (h.inWorkshop _) fun restored ↦
      Returns.bind (hkeeps (Keeps.lift _)) fun linked ↦
      Returns.bind (hkeeps (Keeps.lift _)) fun _ ↦ ?_
    split
    · exact Returns.bind (hkeeps (h.callHooks _)) fun _ ↦ hended _ nofun
    · exact hasBegun_loadLinked _ _ _

variable {begin : CycleM (CycleOutcome ⊕ Launch)} {act : CycleM CycleOutcome}

/-- Compiling what changed asks nothing of agents. -/
theorem outside_compileChanged :
    Triple (AreOutside fleet) compileChanged
      (fun ended m ↦ AreOutside fleet m ∧ ended ≠ some .success) (AreSpared fleet) := by
  have h := areOutside_ignoresBooks fleet
  have hkeeps : ∀ {α : Type} {act : CycleM α}, Keeps (AreOutside fleet) act →
      Triple (AreOutside fleet) act (fun _ ↦ AreOutside fleet) (AreSpared fleet) :=
    fun hact ↦ hact.mono (fun _ h ↦ h) (fun _ _ h ↦ h) fun _ ↦ AreOutside.spared
  refine Triple.bind (hkeeps h.detectChanges) fun _ ↦ Triple.bind (hkeeps Keeps.get) fun m ↦ ?_
  split
  · exact Triple.pure fun _ hm ↦ ⟨hm, nofun⟩
  · split
    · refine Triple.bind (hkeeps (h.callHooks _)) fun _ ↦ Triple.bind (hkeeps h.compile)
        fun failures ↦ ?_
      split
      · exact Triple.bind (hkeeps (h.callHooks _)) fun _ ↦ Triple.pure fun _ hm ↦ ⟨hm, nofun⟩
      · exact Triple.bind (hkeeps (h.callHooks _)) fun _ ↦ Triple.pure fun _ hm ↦ ⟨hm, nofun⟩
    · exact Triple.pure fun _ hm ↦ ⟨hm, nofun⟩

/-- Booking object files asks nothing of agents. -/
theorem outside_acceptAll (objects : List Path) :
    Triple (AreOutside fleet) (acceptAll objects)
      (fun ended m ↦ AreOutside fleet m ∧ ended ≠ some .success) (AreSpared fleet) := by
  have h := areOutside_ignoresBooks fleet
  refine Triple.bind ((Keeps.forM fun object _ ↦ h.accept object).mono (fun _ h ↦ h)
    (fun _ _ h ↦ h) fun _ ↦ AreOutside.spared) fun _ ↦ Triple.bind_get fun m hm ↦ ?_
  split
  · exact Triple.pure fun _ h ↦ ⟨h ▸ hm, nofun⟩
  · exact Triple.pure fun _ h ↦ ⟨h ▸ hm, nofun⟩

/-- A cycle comes to its activation with the patch in all processes, or it ends with the patch in
none. -/
theorem Begins.hasBegun (h : Begins begin act) :
    Returns (AreOutside fleet) begin (HasBegun fleet) (AreSpared fleet) := by
  have hlink : ∀ ended, Returns
      (fun m ↦ AreOutside fleet m ∧ ended ≠ some CycleOutcome.success) (linkUnless ended)
      (HasBegun fleet) (AreSpared fleet) := by
    intro ended
    cases ended with
    | some outcome =>
      exact .of_triple (Triple.pure fun _ hm ↦ ⟨fun h ↦ hm.2 (congrArg some h), hm.1.spared⟩)
    | none => exact hasBegun_linkPending.mono (fun _ hm ↦ hm.1) (fun _ _ h ↦ h) fun _ h ↦ h
  cases h with
  | update => exact Returns.bind (.of_triple outside_compileChanged) hlink
  | updateWithObjects objects => exact Returns.bind (.of_triple (outside_acceptAll objects)) hlink

/-- Where a process stands at the end of a cycle. -/
def AreOver (fleet : Fleet) (outcome : CycleOutcome) (m : LiveModule) : Prop :=
  List.Forall₂ (fun p q ↦ ∃ w, p.Stands w q ∧ w.IsOver (outcome = .success)) fleet m.processes

theorem AreSpared.over {m : LiveModule} {outcome : CycleOutcome} (h : AreSpared fleet m)
    (houtcome : outcome ≠ .success) : AreOver fleet outcome m := by
  refine h.imp fun p q ⟨w, hq, hw⟩ ↦ ⟨w, hq, .inr ⟨houtcome, ?_⟩⟩
  rcases hw with rfl | rfl | rfl
  · exact .inl rfl
  · exact .inr (.inl rfl)
  · exact .inr (.inr (.inl rfl))

/-- An activation in all processes ends with all of them let go, and with the patch in none of them
unless it succeeds. -/
theorem over_launch (l : Launch) (hprocesses : hosts.map Host.process = fleet)
    (hbases : hosts.map Host.base = l.bases) :
    Returns (fun m ↦ LoadRun.AllLoaded hosts m.processes) (launch l) (AreOver fleet)
      fun _ ↦ False := by
  have hover : ∀ {outcome : CycleOutcome} {m : LiveModule} {P : Standing → Prop},
      List.Forall₂ (fun (h : Host) q ↦ ∃ w, h.process.Stands w q ∧ P w) hosts m.processes →
      (∀ w, P w → w.IsOver (outcome = .success)) → AreOver fleet outcome m := by
    intro outcome m P hall hP
    rw [AreOver, ← hprocesses, List.forall₂_map_left_iff]
    exact hall.imp fun _ _ ⟨w, hq, hw⟩ ↦ ⟨w, hq, hP w hw⟩
  refine Returns.bind_get fun m hm ↦ ?_
  have hstaged : List.Forall₂ Host.IsLoaded hosts (m.processes.map Staged.ofProcess) :=
    List.forall₂_map_right_iff.mpr (hm.imp fun _ _ hq ↦ ⟨rfl, hq⟩)
  have hrun := l.activation.dialogs_run l.objects l.patch hosts _ hstaged
  split
  · next patch staged hok =>
    rw [hok] at hrun
    have hleft : IgnoresBooks fun m ↦ List.Forall₂
        (fun (h : Host) q ↦ ∃ w, h.process.Stands w q ∧ ∃ base, w = .left base) hosts
        m.processes := dialogs_ignoreBooks fun h _ _ ⟨w, hq, hw⟩ hr ↦
      ⟨w, h.process.stands_ofDialog w hq hr, hw⟩
    refine Returns.bind (.of_triple (Triple.set fun _ _ ↦ ?_)) fun _ ↦
      Returns.bind (.of_triple hleft.returns_clearPending) fun _ ↦
      Returns.bind (R := fun _ (m : LiveModule) ↦ List.Forall₂
        (fun (h : Host) q ↦ ∃ w, h.process.Stands w q ∧ ∃ base, w = .left base) hosts m.processes)
        (.of_triple (Triple.modify fun _ hm ↦ hm)) fun _ ↦
      .of_triple (Triple.pure fun _ hm ↦ hover hm fun w hw ↦ .inl ⟨rfl, hw⟩)
    exact List.forall₂_map_right_iff.mpr (hrun.imp fun h s hs ↦ ⟨_, hs.2, h.base, rfl⟩)
  · exact Returns.fault
  · next e staged herror =>
    rw [herror] at hrun
    refine Returns.bind (R := fun _ (m : LiveModule) ↦ List.Forall₂ (fun (h : Host) q ↦
      h.process.Stands (.loaded h.base) q ∨ h.process.Stands (.refused h.base) q ∨
        h.process.Stands (.left h.base) q) hosts m.processes)
      (.of_triple (Triple.set fun _ _ ↦ ?_)) fun _ ↦ ?_
    · exact List.forall₂_map_right_iff.mpr (hrun.imp fun h s hs ↦ hs.stands_revert m.files)
    · rw [← hbases]
      refine (returns_giveUp (J := fun h q ↦ ∃ w, h.process.Stands w q ∧ w.IsRid)
        (fun h _ _ ⟨w, hq, hw⟩ hr ↦ ⟨w, h.process.stands_ofDialog w hq hr, hw⟩)
        (fun files h q hq ↦ ?_) l.patch.token).mono (fun _ hm ↦ hm) (fun outcome _ hm ↦ ?_)
        fun _ h ↦ h
      · rcases hq with hq | hq | hq
        · exact ⟨_, hq.unload files (.withdraws h.base), .inl rfl⟩
        · exact ⟨_, hq.unload files (.unloads (.inl rfl)), .inr rfl⟩
        · exact ⟨_, hq.unload files (.unloads (.inr rfl)), .inr rfl⟩
      · exact hover hm.2 fun w hw ↦ .inr ⟨hm.1 ▸ nofun, .inr (.inr hw)⟩

/-- A cycle ends with all processes let go, and with the patch in none of them unless it
succeeds. -/
theorem Begins.over (h : Begins begin act) :
    Returns (AreOutside fleet) act (AreOver fleet) (AreSpared fleet) := by
  rw [h.eq]
  refine Returns.bind h.hasBegun fun begun ↦ ?_
  cases begun with
  | inl outcome => exact .of_triple (Triple.pure fun _ hm ↦ AreSpared.over hm.2 hm.1)
  | inr l =>
    rintro m ⟨-, hosts, hprocesses, hbases, hall⟩
    exact (over_launch l hprocesses hbases).mono (fun _ h ↦ h) (fun _ _ h ↦ h)
      (fun _ h ↦ h.elim) m hall

/-- Nothing was written into processes that a patch was only loaded into. -/
def IsUnwritten (p q : AttachedProcess) : Prop :=
  q.target.edits = p.target.edits

/-- Loading patches, unloading them and informing agents writes nothing. -/
theorem isUnwritten_keptByLoading (fleet : Fleet) : KeptByLoading fleet IsUnwritten where
  informed := fun hq hinformed ↦ (congrArg Target.edits hinformed.target).trans hq
  load := fun p _ ↦ LoadState.keeps_load_of (Target.edits_ignoresMemory p.target)
  unload := fun p _ files _ ↦ (Target.edits_ignoresMemory p.target).tell files _

/-- In every cycle that returns, whatever it comes to and wherever agents fail, commands are
disciplined:

* A cycle is a beginning and an activation. The beginning asks no process to enter a sync point and
  writes into none, and it comes to the activation only when all processes answered with the base of
  the patch there.
* The activation goes through phases that are over in all processes before the next one begins. What
  is written in each of them is of one kind: what the entry point has to find, the code around the
  entry point, and only when the calls in all processes returned the references to functions of the
  patch and the code of redirected functions. The logs of all processes are in that order.
* What every single process was asked for in the whole cycle is disciplined. -/
theorem commands_are_disciplined (hbegins : Begins begin act) {m m' : LiveModule}
    {r : Outcome CycleOutcome} (hrun : act.run m = (r, m')) (hreturns : r ≠ .error .fault) :
    act = begin >>= launchUnless ∧
    List.Forall₂ IsUnwritten m.processes (begin.run m).2.processes ∧
    (∀ l m₁, begin.run m = (.ok (.inr l), m₁) → ∃ hosts : List Host,
      hosts.map Host.process = m.processes ∧ hosts.map Host.base = l.bases ∧
      LoadRun.AllLoaded hosts m₁.processes ∧ l.activation.IsPhased l.objects l.patch hosts) ∧
    (∀ r₁ m₁, begin.run m = (r₁, m₁) → (∀ l, r₁ ≠ .ok (.inr l)) →
      List.Forall₂ AttachedProcess.IsSpared m.processes m₁.processes) ∧
    List.Forall₂ (fun p q ↦ ∃ h, p.History h q ∧ p.requestsTo q = h.map Exchange.command ∧
      IsDisciplined (r = .ok .success) h) m.processes m'.processes := by
  have houtside : AreOutside m.processes m := List.forall₂_same.mpr fun p _ ↦ p.stands_outside
  have hbegun := hbegins.hasBegun m houtside
  have hover := hbegins.over m houtside
  rw [hrun] at hover
  refine ⟨hbegins.eq, ((isUnwritten_keptByLoading m.processes).begins hbegins).run
    (List.forall₂_same.mpr fun _ _ ↦ rfl), fun l m₁ hlaunch ↦ ?_, fun r₁ m₁ hended hno ↦ ?_, ?_⟩
  · rw [hlaunch] at hbegun
    obtain ⟨htoken, hosts, hprocesses, hbases, hall⟩ := hbegun
    exact ⟨hosts, hprocesses, hbases, hall, l.activation.isPhased l.objects htoken hosts⟩
  · rw [hended] at hbegun
    rcases r₁ with (e | _) | outcome | l
    · exact hbegun
    · rw [hbegins.eq, run_bind, hended] at hrun
      cases hrun
      exact (hreturns rfl).elim
    · exact hbegun.2
    · exact (hno l rfl).elim
  · rcases r with (e | _) | outcome
    · exact hover.imp fun p q ⟨w, ⟨h, hq, hleads⟩, hw⟩ ↦
        ⟨h, hq, hq.requests, isDisciplined_of_leads hleads
          (.inr ⟨nofun, hw.imp id (Or.imp id .inl)⟩)⟩
    · exact (hreturns rfl).elim
    · refine hover.imp fun p q ⟨w, ⟨h, hq, hleads⟩, hw⟩ ↦ ⟨h, hq, hq.requests, ?_⟩
      rw [Except.ok.injEq]
      exact isDisciplined_of_leads hleads hw

/-- An agent whose connection breaks when it is asked to leave a sync point, the first time. -/
def stuckAgent : Agent :=
  { Agent.willing with
    reacts := fun c n ↦ if c == .leaveSyncPoint && n == 0 then .breaks else .serves }

/-- A session with one process, and a linker that writes an image with an entry point. -/
def stuckSession : LiveModule := Relinked.session 140 [Relinked.process 7 stuckAgent]

/-- What a cycle comes to. The entry point is covered and put back while the thread is parked, and
covered again while it is. -/
theorem run_stuckSession : (Relinked.cycle.run stuckSession).1 = .ok .activateError ∧
    (Relinked.cycle.run stuckSession).2.processes.map (fun p ↦ p.target.edits.map fun e ↦
      (e.suspensions, e.threads.map Thread.ip))
      = [[(0, [Target.allocationStart]), (0, [Target.allocationStart]), (0, [0x140000004])]] := by
  decide +kernel

/-- A process that does not get away from its sync point is asked for that again before the patch is
unloaded from it. -/
theorem stuck_process_is_let_go :
    (Relinked.cycle.run stuckSession).1 = .ok .activateError ∧
    List.Forall₂ (fun p q ↦ ∃ h, p.History h q ∧ p.requestsTo q = h.map Exchange.command ∧
      IsDisciplined ((.ok .activateError : Outcome CycleOutcome) = .ok .success) h)
      stuckSession.processes (Relinked.cycle.run stuckSession).2.processes := by
  have hdisciplined : ∀ (m : LiveModule) (outcome : CycleOutcome),
      (Relinked.cycle.run m).1 = .ok outcome →
      List.Forall₂ (fun p q ↦ ∃ h, p.History h q ∧ p.requestsTo q = h.map Exchange.command ∧
        IsDisciplined ((.ok outcome : Outcome CycleOutcome) = .ok .success) h)
        m.processes (Relinked.cycle.run m).2.processes := by
    intro m outcome houtcome
    have hbegins : Begins _ Relinked.cycle := .updateWithObjects _
    exact (commands_are_disciplined hbegins (Prod.ext houtcome rfl) nofun).2.2.2.2
  exact ⟨run_stuckSession.1, hdisciplined _ _ run_stuckSession.1⟩

end LiveModule

/-! ### Edits of still processes -/

/-- What an operation leaves of a process: everything that it wrote there was written while nothing
else ran, the process is suspended as often as before, and every thread is where it was. -/
structure AttachedProcess.WasStill (p q : AttachedProcess) : Prop where
  edits : IsGuarded p.target p.commandThread q.target.nextAllocation q.target.edits
  suspensions : q.target.suspensions = p.target.suspensions
  threads : q.target.threads = p.target.threads

variable {fleet : Fleet}

/-- What is under way in processes without a suspension is kept by everything that sessions do. -/
theorem underWay_keptByHandling (hfleet : ∀ p ∈ fleet, p.target.gate.LetsGo) :
    KeptByHandling fleet (AttachedProcess.UnderWay · 0) (Staged.UnderWay · 0) where
  pid := fun h ↦ h.2.pid
  informed := fun h hinformed ↦ ⟨hinformed.commandThread.trans h.1, hinformed.target ▸ h.2⟩
  load := fun p hp ↦ LoadState.underWay_load (hfleet p hp)
  unload := fun _ _ _ _ ↦ AttachedProcess.underWay_tell _ _
  starts := fun h ↦ h
  run := Activation.underWay_run hfleet
  replay := fun p hp patch ↦ patch.underWay_replay (hfleet p hp)
  ends := fun h ↦ h
  revert := fun p hp files _ ↦ Staged.underWay_revert (hfleet p hp) files

namespace LiveModule

/-- Processes are edited only while nothing else runs in them. In every cycle and every installation
of earlier patches, in whichever module it is and whatever it comes to, rollback included, every write
into a process was made while the process was suspended more often than when the operation began, or
while every thread but the one that serves commands was parked in a cave; the only others open such
a cave in memory that was allocated for it. At the end the process is suspended as often as at the
beginning, and no thread is elsewhere. Processes may refuse any call but those by which they are let
run again. -/
theorem processes_are_edited_in_stillness {m : LiveModule} (hm : m.Reachable)
    (hgates : ∀ p ∈ m.processes, p.target.gate.LetsGo) {α : Type} {act : CycleM α}
    (hact : EditsProcesses act) :
    List.Forall₂ AttachedProcess.WasStill m.processes (act.run m).2.processes := by
  have hstart : List.Forall₂ (AttachedProcess.UnderWay · 0) m.processes m.processes :=
    List.forall₂_same.mpr fun p _ ↦ .refl p
  have hend := ((underWay_keptByHandling hgates).keeps hm.isConsistent.distinct hact).run hstart
  exact List.Forall₂.imp (fun p q h ↦ ⟨h.2.edits, h.2.suspensions, h.2.threads⟩) hend

/-- A process that does not get away from its sync point was edited in stillness. Its entry point was
put back and covered again without a suspension, while its thread was parked in a cave. -/
theorem stuck_process_is_edited_in_stillness :
    (Relinked.cycle.run stuckSession).1 = .ok .activateError ∧
    (Relinked.cycle.run stuckSession).2.processes.map (fun p ↦ p.target.edits.map fun e ↦
      (e.suspensions, e.threads.map Thread.ip))
      = [[(0, [Target.allocationStart]), (0, [Target.allocationStart]), (0, [0x140000004])]] ∧
    List.Forall₂ AttachedProcess.WasStill stuckSession.processes
      (Relinked.cycle.run stuckSession).2.processes := by
  have hreachable : stuckSession.Reachable :=
    .attach (.load _ _ _ _ (Relinked.load_started 140)) (Relinked.process 7 stuckAgent)
  refine ⟨run_stuckSession.1, run_stuckSession.2, ?_⟩
  refine processes_are_edited_in_stillness hreachable (fun p hp ↦ ?_) (.updateWithObjects _)
  have hprocesses : stuckSession.processes = [Relinked.process 7 stuckAgent] := rfl
  rw [hprocesses, List.mem_singleton] at hp
  rw [hp]
  exact fun _ _ _ ↦ rfl

end LiveModule
end LivePatch
