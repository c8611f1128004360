import LivePatch.Proofs.Attached.Informing
import LivePatch.Proofs.Build.PatchNames
import LivePatch.Session.Cycle

/-!
# Cycles without a patch

Everything up to the moment where a patch is loaded leaves the processes alone. Units are compiled,
object files stripped and linked; agents are told what the tools printed and hooks what happened, and
nothing else is asked of any process. So a cycle that finds no change, or in which a unit does not
compile or the patch does not link, leaves every process, the registry and the patches as they were.
-/

namespace LivePatch

/-- Whether a cycle ended before there was a patch to load. -/
def CycleOutcome.isWithoutPatch : CycleOutcome → Bool
  | .noChange | .compileError _ _ | .linkError _ => true
  | .success | .loadError | .activateError => false

namespace LiveModule

/-- A module whose processes were only informed since, while its registry and its patches stayed. -/
structure Untouched (m m' : LiveModule) : Prop where
  registry : m'.registry = m.registry
  patches : m'.patches = m.patches
  processes : Fleet.Informed m.processes m'.processes

variable {m : LiveModule} {α : Type}

/-- Nothing happened to a module yet. -/
theorem Untouched.refl (m : LiveModule) : m.Untouched m := ⟨rfl, rfl, Fleet.informed_refl _⟩

theorem run_inWorkshop (act : WorkshopM α) (m : LiveModule) :
    (inWorkshop act).run m
      = ((act.run m.workshop).1, { m with workshop := (act.run m.workshop).2 }) := rfl

theorem run_eq_of_inWorkshop {act : WorkshopM α} {m m' : LiveModule} {r : Outcome α}
    (h : (inWorkshop act).run m = (r, m')) : act.run m.workshop = (r, m'.workshop) := by
  rw [run_inWorkshop] at h
  obtain ⟨hr, hm'⟩ := Prod.mk.inj h
  exact Prod.ext hr (congrArg workshop hm')

/-- What work in the workshop, which may try names of patches, and telling the processes about it
do not bear on. -/
structure IgnoresWork (inv : LiveModule → Prop) : Prop where
  work : ∀ {s : LiveModule} {counter : Nat} (w : Workshop), s.counter ≤ counter → inv s →
    inv { s with workshop := w, counter := counter }
  informing : ∀ {s : LiveModule} {fleet : Fleet}, Fleet.Informed s.processes fleet → inv s →
    inv { s with processes := fleet }

namespace IgnoresWork

variable {inv : LiveModule → Prop}

theorem inWorkshop (h : IgnoresWork inv) (act : WorkshopM α) :
    Keeps inv (LiveModule.inWorkshop act) :=
  Keeps.of_run fun s hs ↦ h.work _ (Nat.le_refl s.counter) hs

theorem onFleet (h : IgnoresWork inv) {act : FleetM α}
    (hact : ∀ fleet, Keeps (Fleet.Informed fleet) act) : Keeps inv (LiveModule.onFleet act) :=
  Keeps.of_run fun s hs ↦ h.informing ((hact s.processes).run (Fleet.informed_refl _)) hs

theorem callHooks (h : IgnoresWork inv) (kind : HookKind) :
    Keeps inv (LiveModule.callHooks kind) :=
  Keeps.get.bind fun _ ↦ (h.onFleet fun _ ↦ Hooks.informed_call _ _ _ _).bind fun _ ↦ Keeps.pure _

theorem forwardOutput (h : IgnoresWork inv) (text : String) :
    Keeps inv (LiveModule.forwardOutput text) := by
  refine Keeps.get.bind fun _ ↦ ?_
  split
  · exact Keeps.pure _
  · exact h.onFleet fun _ ↦ Output.informed_forward _ _

theorem runTool (h : IgnoresWork inv) (i : Invocation) : Keeps inv (LiveModule.runTool i) :=
  (h.inWorkshop _).bind fun _ ↦ (h.forwardOutput _).bind fun _ ↦ Keeps.pure _

theorem compileEach (h : IgnoresWork inv) (units : List (Compiland × Bool)) :
    Keeps inv (LiveModule.compileEach units) := by
  induction units with
  | nil => exact Keeps.pure _
  | cons unit units ih =>
    apply Keeps.bind
    · exact Keeps.tried (Keeps.get.bind fun _ ↦ h.runTool _)
    · exact fun _ ↦ ih.bind fun _ ↦ Keeps.pure _

/-- Linking, whatever the linker does. -/
theorem link (h : IgnoresWork inv) (needed recompiled : PathSet) :
    Keeps inv (LiveModule.link needed recompiled) := by
  refine Triple.bind_get fun s hs ↦ ?_
  refine Triple.bind (R := fun _ ↦ inv) (Triple.set fun _ _ ↦
    h.work _ (PatchFiles.le_next s.counter s.files) hs) fun _ ↦ ?_
  exact Keeps.bind (Keeps.mapM fun _ _ ↦ h.inWorkshop _) fun _ ↦
    (h.runTool _).bind fun _ ↦ Keeps.pure _

theorem prepare (h : IgnoresWork inv) (path : Path) : Keeps inv (LiveModule.prepare path) := by
  refine Keeps.get.bind fun s ↦ (Keeps.lift _).bind fun image ↦ ?_
  split
  · exact Keeps.throw _
  · exact (h.inWorkshop _).bind fun _ ↦ (Keeps.lift _).bind fun _ ↦ Keeps.get.bind fun _ ↦
      (Keeps.lift _).bind fun _ ↦ Keeps.pure _

end IgnoresWork

/-- Marking units one after another. -/
theorem run_forM_mark (objects : List Path) (recompiled : Bool) (s : LiveModule) :
    (objects.forM fun o ↦ mark o recompiled).run s = (.ok ⟨⟩, { s with
      compilands := objects.foldl (fun t o ↦ t.mark o recompiled) s.compilands }) := by
  induction objects generalizing s with
  | nil => rfl
  | cons object objects ih =>
    change (mark object recompiled >>= fun _ ↦ objects.forM fun o ↦ mark o recompiled).run s = _
    rw [run_bind, mark, run_modify]
    exact ih _

/-- What was to be linked is forgotten, and its units are no longer marked. -/
theorem run_clearPending (s : LiveModule) :
    clearPending.run s = (.ok ⟨⟩, { s with
      compilands := s.pending.toList.foldl (fun t o ↦ t.mark o false) s.compilands
      pending := ∅ }) := by
  unfold clearPending
  rw [run_bind, run_get]
  dsimp only
  rw [run_bind, run_forM_mark]
  rfl

/-- Work whose errors go unnoticed keeps what it keeps otherwise. -/
theorem keeps_tolerating {inv : LiveModule → Prop} {act : CycleM Unit} (h : Keeps inv act) :
    Keeps inv (tolerating act) := by
  apply Keeps.of_run
  intro m hm
  have hrun := h.run hm
  simp only [tolerating, tryCatchThe, MonadExceptOf.tryCatch, ExceptT.tryCatch, ExceptT.run,
    ExceptT.mk, bind, StateT.bind] at hrun ⊢
  generalize act m = r at hrun ⊢
  rcases r with ⟨(_ | _) | _, t⟩ <;> exact hrun

/-- What compiling does not bear on either: which units there are, and which of them are to be
compiled or linked. -/
structure IgnoresBooks (inv : LiveModule → Prop) : Prop extends IgnoresWork inv where
  books : ∀ {s : LiveModule} (compilands : CompilandTable) (modified pending : PathSet), inv s →
    inv { s with compilands := compilands, modified := modified, pending := pending }

namespace IgnoresBooks

variable {inv : LiveModule → Prop}

theorem mark (h : IgnoresBooks inv) (object : Path) (recompiled : Bool) :
    Keeps inv (LiveModule.mark object recompiled) :=
  Keeps.modify fun s hs ↦ h.books _ s.modified s.pending hs

theorem bookSuccess (h : IgnoresBooks inv) (object : Path) :
    Keeps inv (LiveModule.bookSuccess object) :=
  (h.inWorkshop _).bind fun _ ↦ (h.mark _ _).bind fun _ ↦
    Keeps.modify fun s hs ↦ h.books s.compilands _ _ hs

theorem bookFailure (h : IgnoresBooks inv) (object : Path) :
    Keeps inv (LiveModule.bookFailure object) :=
  (h.mark _ _).bind fun _ ↦ Keeps.modify fun s hs ↦ h.books s.compilands s.modified _ hs

theorem record (h : IgnoresBooks inv) (compiled : List Compiled) :
    Keeps inv (LiveModule.record compiled) := by
  induction compiled with
  | nil => exact Keeps.pure _
  | cons c compiled ih =>
    unfold LiveModule.record
    rcases c with ⟨object, (_ | _) | output⟩
    · exact (h.bookFailure _).bind fun _ ↦ ih.bind fun _ ↦ Keeps.pure _
    · exact Keeps.throw _
    · dsimp only
      split
      · exact (h.bookSuccess _).bind fun _ ↦ ih
      · exact (h.bookFailure _).bind fun _ ↦ ih.bind fun _ ↦ Keeps.pure _

theorem compileStage (h : IgnoresBooks inv) (units : List (Compiland × Bool)) :
    Keeps inv (LiveModule.compileStage units) :=
  (h.compileEach units).bind fun _ ↦ h.record _

theorem unitsToCompile (h : IgnoresBooks inv) : Keeps inv LiveModule.unitsToCompile :=
  Triple.bind_get fun s hs ↦ Triple.bind (R := fun _ ↦ inv)
    (Triple.set fun _ _ ↦ h.books s.compilands _ s.pending hs) fun _ ↦ Keeps.pure _

/-- Compiling, whichever units fail. -/
theorem compile (h : IgnoresBooks inv) : Keeps inv LiveModule.compile := by
  refine h.unitsToCompile.bind fun units ↦ ?_
  dsimp only
  refine (h.compileStage _).bind fun failures ↦ ?_
  split
  · exact Keeps.pure _
  · refine (h.compileStage _).bind fun failures ↦ ?_
    split
    · exact Keeps.pure _
    · exact h.compileStage _

theorem detectChanges (h : IgnoresBooks inv) :
    Keeps inv (modify LiveModule.detectChanges : CycleM PUnit) :=
  Keeps.modify fun s hs ↦ h.books _ _ s.pending hs

theorem accept (h : IgnoresBooks inv) (object : Path) : Keeps inv (LiveModule.accept object) :=
  (h.inWorkshop _).bind fun _ ↦ (h.mark _ _).bind fun _ ↦
    Keeps.modify fun s hs ↦ h.books s.compilands s.modified _ hs

theorem clearPending (h : IgnoresBooks inv) : Keeps inv LiveModule.clearPending :=
  Keeps.get.bind fun _ ↦ (Keeps.forM fun _ _ ↦ h.mark _ _).bind fun _ ↦
    Keeps.modify fun s hs ↦ h.books s.compilands s.modified _ hs

theorem abandon (h : IgnoresBooks inv) (outcome : CycleOutcome) :
    Keeps inv (LiveModule.abandon outcome) :=
  h.clearPending.bind fun _ ↦ (keeps_tolerating (h.callHooks _)).bind fun _ ↦ Keeps.pure _

end IgnoresBooks

/-- Compiles what changed. Answers an outcome when there is nothing to build. -/
def compileChanged : CycleM (Option CycleOutcome) := do
  modify detectChanges
  let m ← get
  if m.modified.isEmpty && m.pending.isEmpty then return some .noChange
  if !m.modified.isEmpty then
    callHooks .compileStart
    let failures ← compile
    match failures with
    | (_, exitCode) :: _ =>
      callHooks .compileError
      return some (.compileError (failures.map Prod.fst) exitCode)
    | [] => callHooks .compileSuccess
  return none

/-- Books object files that were built elsewhere. Answers an outcome when there are none. -/
def acceptAll (objects : List Path) : CycleM (Option CycleOutcome) := do
  objects.forM accept
  if (← get).pending.isEmpty then return some .noChange
  return none

/-- Builds, unless a cycle ended before. -/
def buildUnless : Option CycleOutcome → CycleM CycleOutcome
  | some outcome => pure outcome
  | none => build

theorem update_eq : update = compileChanged >>= buildUnless := by
  unfold update compileChanged
  simp only [bind_assoc]
  congr 1
  funext _
  congr 1
  funext m
  split
  · rfl
  · split
    · simp only [bind_assoc]
      congr 1
      funext _
      congr 1
      funext failures
      cases failures <;> simp [buildUnless]
    · rfl

theorem updateWithObjects_eq (objects : List Path) :
    updateWithObjects objects = acceptAll objects >>= buildUnless := by
  unfold updateWithObjects acceptAll
  simp only [bind_assoc]
  congr 1
  funext _
  congr 1
  funext m
  split <;> rfl

namespace IgnoresBooks

variable {inv : LiveModule → Prop}

theorem compileChanged (h : IgnoresBooks inv) : Keeps inv LiveModule.compileChanged := by
  refine h.detectChanges.bind fun _ ↦ Keeps.get.bind fun m ↦ ?_
  split
  · exact Keeps.pure _
  · split
    · refine (h.callHooks _).bind fun _ ↦ h.compile.bind fun failures ↦ ?_
      split
      · exact (h.callHooks _).bind fun _ ↦ Keeps.pure _
      · exact (h.callHooks _).bind fun _ ↦ Keeps.pure _
    · exact Keeps.pure _

theorem acceptAll (h : IgnoresBooks inv) (objects : List Path) :
    Keeps inv (LiveModule.acceptAll objects) := by
  refine Keeps.bind (Keeps.forM fun object _ ↦ h.accept object) fun _ ↦ Keeps.get.bind fun m ↦ ?_
  split <;> exact Keeps.pure _

end IgnoresBooks

theorem untouched_ignoresBooks (m : LiveModule) : IgnoresBooks m.Untouched where
  work := fun _ _ hs ↦ ⟨hs.registry, hs.patches, hs.processes⟩
  informing := fun hinformed hs ↦
    ⟨hs.registry, hs.patches, Fleet.informed_trans hs.processes hinformed⟩
  books := fun _ _ _ hs ↦ ⟨hs.registry, hs.patches, hs.processes⟩

/-- Whatever installing comes to, there was a patch to load. -/
theorem isWithoutPatch_install (path : Path) (needed : PathSet) (stripped : Stripped) :
    Triple (fun _ ↦ True) (install path needed stripped)
      (fun outcome _ ↦ outcome.isWithoutPatch = false) fun _ ↦ True := by
  have habandon : ∀ outcome : CycleOutcome, outcome.isWithoutPatch = false →
      Triple (fun _ ↦ True) (abandon outcome) (fun outcome _ ↦ outcome.isWithoutPatch = false)
        fun _ ↦ True :=
    fun outcome h ↦ Keeps.triv_bind fun _ ↦ Keeps.triv_bind fun _ ↦ Triple.pure fun _ _ ↦ h
  have hactivate : ∀ patch p image bases, Triple (fun _ ↦ True)
      (activate patch p image needed stripped bases)
      (fun outcome _ ↦ outcome.isWithoutPatch = false) fun _ ↦ True := by
    intro patch p image bases
    refine Keeps.triv_bind fun result ↦ ?_
    split
    · exact Triple.throw fun _ _ ↦ trivial
    · exact Keeps.triv_bind fun _ ↦ Keeps.triv_bind fun _ ↦ habandon _ rfl
    · refine Keeps.triv_bind fun s ↦ ?_
      dsimp only
      split
      · exact Keeps.triv_bind fun _ ↦ Keeps.triv_bind fun _ ↦ Keeps.triv_bind fun _ ↦
          Triple.pure fun _ _ ↦ rfl
      · exact Triple.throw fun _ _ ↦ trivial
      · exact Keeps.triv_bind fun _ ↦ Keeps.triv_bind fun _ ↦ Keeps.triv_bind fun _ ↦
          habandon _ rfl
  refine Keeps.triv_bind fun p ↦ Keeps.triv_bind fun s ↦ Keeps.triv_bind fun r ↦
    Keeps.triv_bind fun _ ↦ ?_
  split
  · exact Keeps.triv_bind fun _ ↦ habandon _ rfl
  · refine Keeps.triv_bind fun isInReach ↦ ?_
    split
    · exact Keeps.triv_bind fun token ↦ hactivate _ _ _ _
    · exact Keeps.triv_bind fun _ ↦ habandon _ rfl

/-- A build leaves the processes alone, unless there is a patch to load. -/
theorem untouched_build : Triple m.Untouched build
    (fun outcome s ↦ outcome.isWithoutPatch = true → m.Untouched s) fun _ ↦ True := by
  have h := untouched_ignoresBooks m
  refine Keeps.get.bind_any fun s ↦ ?_
  split
  · exact Triple.pure fun _ hs _ ↦ hs
  · refine (h.inWorkshop _).bind_any fun owners ↦
      (h.inWorkshop _).bind_any fun needed ↦ Keeps.get.bind_any fun _ ↦
      (h.inWorkshop _).bind_any fun stripped ↦ ?_
    refine (h.link _ _).tried.bind_any fun linked ↦
      (h.inWorkshop _).tried.bind_any fun restored ↦
      (Keeps.lift _).bind_any fun linked ↦ (Keeps.lift _).bind_any fun _ ↦ ?_
    split
    · exact (h.callHooks _).bind_any fun _ ↦ Triple.pure fun _ hs _ ↦ hs
    · refine (isWithoutPatch_install _ _ _).mono (fun _ _ ↦ trivial) (fun _ _ h h' ↦ ?_)
        fun _ _ ↦ trivial
      rw [h] at h'
      cases h'

theorem untouched_update : Triple m.Untouched update
    (fun outcome s ↦ outcome.isWithoutPatch = true → m.Untouched s) fun _ ↦ True := by
  have h := untouched_ignoresBooks m
  refine h.detectChanges.bind_any fun _ ↦ Keeps.get.bind_any fun s ↦ ?_
  split
  · exact Triple.pure fun _ hs _ ↦ hs
  · split
    · refine (h.callHooks _).bind_any fun _ ↦ h.compile.bind_any fun failures ↦ ?_
      split
      · exact (h.callHooks _).bind_any fun _ ↦ Triple.pure fun _ hs _ ↦ hs
      · exact (h.callHooks _).bind_any fun _ ↦ untouched_build
    · exact untouched_build

theorem untouched_updateWithObjects (objects : List Path) :
    Triple m.Untouched (updateWithObjects objects)
      (fun outcome s ↦ outcome.isWithoutPatch = true → m.Untouched s) fun _ ↦ True := by
  refine Keeps.bind_any (Keeps.forM fun _ _ ↦ (untouched_ignoresBooks m).accept _) fun _ ↦
    Keeps.get.bind_any fun s ↦ ?_
  split
  · exact Triple.pure fun _ hs _ ↦ hs
  · exact untouched_build

/-- The two kinds of cycles: for what changed, and for object files that were built elsewhere. -/
inductive IsCycle : CycleM CycleOutcome → Prop where
  | update : IsCycle update
  | updateWithObjects (objects : List Path) : IsCycle (updateWithObjects objects)

/-- A cycle that finds no change, or in which a unit does not compile or the patch does not link,
leaves the processes alone: the registry and the patches stay as they were, and so does everything
of every process, which was sent nothing but output and calls of hooks. That holds whatever tools,
agents and files do. -/
theorem cycle_without_patch_leaves_processes_alone {m m' : LiveModule} {act : CycleM CycleOutcome}
    (hact : IsCycle act) {outcome : CycleOutcome} (hrun : act.run m = (.ok outcome, m'))
    (houtcome : outcome.isWithoutPatch = true) : m.Untouched m' := by
  cases hact with
  | update => exact untouched_update.ok (.refl m) hrun houtcome
  | updateWithObjects objects =>
    exact (untouched_updateWithObjects objects).ok (.refl m) hrun houtcome

/-! A session with one process whose module has hooks for compiling, and with a unit that changed
but does not compile. -/

namespace Uncompiled

/-- The only unit. -/
def unit : Compiland := .ofPaths ⟨"a.cpp"⟩ ⟨"a.obj"⟩

/-- Tables of the module: hooks that are called when compiling starts and when it failed. -/
def tables : ImageTables := { ImageTables.empty with
  sections := [⟨HookKind.compileStart.sectionName, 0x100, 8⟩,
    ⟨HookKind.compileError.sectionName, 0x108, 16⟩] }

/-- A process in which one thread runs and a function was redirected before. -/
def process : AttachedProcess where
  target := ((Target.ofPid 7).map 0x140000000 (Bytes.fill 16 X86.trap)).spawn 0x140000004
  agent := .willing
  commandThread := none
  moduleBase := 0x140000000
  redirected := [0x140000000]

/-- The session, with a compiler that fails and says so. -/
def session : LiveModule where
  settings := .default
  path := ⟨"app.dll"⟩
  linker := ⟨⟨"link.exe"⟩, ⟨"app.pdb"⟩, "", ⟨""⟩, []⟩
  weakSymbols := []
  provider := ⟨fun _ ↦ .ok .empty, fun _ ↦ .ok .empty, fun _ ↦ .ok .empty, fun _ ↦ .ok .empty,
    fun _ ↦ .ok [], fun _ ↦ .ok ⟨⟨"link.exe"⟩, ⟨"app.pdb"⟩, "", ⟨""⟩, []⟩⟩
  workshop := ⟨(FileTree.emptyAt ["w"]).put ["w", "a.cpp"] (.file #[] (.written 1)), .empty,
    fun _ files ↦ (.ok ⟨2, "a.cpp(1): error"⟩, files), []⟩
  registry := (Registry.empty.insert ⟨"app.dll"⟩ tables 0x1000).register .module 7 0x140000000
  compilands := .ofLists [unit] []
  processes := [process]
  patches := []
  modified := ∅
  pending := ∅
  counter := 0

end Uncompiled

/-- A unit that does not compile leaves the process alone. -/
theorem uncompiled_unit_leaves_process_alone :
    (update.run Uncompiled.session).1 = .ok (.compileError [⟨"a.obj"⟩] 2) ∧
      Uncompiled.session.Untouched (update.run Uncompiled.session).2 := by
  have hfailed : (update.run Uncompiled.session).1 = .ok (.compileError [⟨"a.obj"⟩] 2) := by
    decide +kernel
  exact ⟨hfailed, cycle_without_patch_leaves_processes_alone .update (Prod.ext hfailed rfl) rfl⟩

end LiveModule
end LivePatch
