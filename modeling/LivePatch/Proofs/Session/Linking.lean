import LivePatch.Proofs.Build.Backups
import LivePatch.Proofs.Build.Closure
import LivePatch.Proofs.Session.Stages

/-!
# Linking

The tools that a cycle runs are compilers, and behind them the linker when all that was to be
compiled is. The linker is given what is pending, every object file by its name on the line that the
linker is run with, and it is the last tool of its cycle.
-/

namespace LivePatch

/-- A file stands on the line of a tool. -/
def Invocation.Names (i : Invocation) (p : Path) : Prop :=
  ∃ (q : Path) (parts : List String),
    q.same p = true ∧ q.quoted ∈ parts ∧ i.arguments = Text.join " " parts

/-- The line of a linker names every file that is to be linked. -/
theorem LinkerLine.names_invocation (s : Settings) (tree : FileTree) (linker : LinkerRecord)
    (weakSymbols : List String) (tables : List ObjectTable) {needed : PathSet} (files : PatchFiles)
    {o : Path} (ho : needed.contains o = true) :
    (invocation s tree linker
      (arguments s linker weakSymbols tables needed.toList files)).Names o := by
  obtain ⟨q, hq, hsame⟩ := (PathSet.contains_iff needed o).mp ho
  refine ⟨q, _, hsame, ?_, rfl⟩
  exact List.mem_append_left _ (List.mem_append_right _ (List.mem_map_of_mem hq))

/-! ### Work without tools -/

namespace Workshop

variable {runs : List Run} {α : Type}

theorem runs_onFiles (act : FilesM α) : Keeps (fun w ↦ w.runs = runs) (onFiles act) :=
  Keeps.of_run fun _ hw ↦ hw

theorem runs_onObjects (act : FileTree → ExceptT Stop (StateM ObjectCache) α) :
    Keeps (fun w ↦ w.runs = runs) (onObjects act) :=
  Keeps.of_run fun _ hw ↦ hw

theorem runs_object (path : Path) : Keeps (fun w ↦ w.runs = runs) (object path) :=
  (runs_onObjects _).bind fun _ ↦ Keeps.pure _

theorem runs_restoreEach (paths : List Path) :
    Keeps (fun w ↦ w.runs = runs) (Stripped.restoreEach paths) := by
  induction paths with
  | nil => exact Keeps.pure _
  | cons path paths ih =>
    refine Keeps.of_run fun w hw ↦ ?_
    have hrestored := (runs_onFiles (Backup.restore path)).run hw
    rw [Stripped.run_restoreEach_cons]
    generalize (onFiles (Backup.restore path)).run w = result at hrestored ⊢
    rcases result with ⟨_ | _, w'⟩ <;> exact ih.run hrestored

theorem runs_strip (registry : Registry) (recompiled : PathSet) (owners : SymbolOwners)
    (strategy : RemovalStrategy) (needed : List Path) :
    Keeps (fun w ↦ w.runs = runs)
      (Stripped.strip registry recompiled owners strategy needed) := by
  have hwork : ∀ {α : Type} {act : WorkshopM α}, Keeps (fun w ↦ w.runs = runs) act →
      Keeps (fun r : StripRun ↦ r.workshop.runs = runs) (Stripped.inWorkshop act) :=
    fun hact ↦ Keeps.of_run fun r hr ↦ hact.run hr
  have hstart : ∀ path, Keeps (fun r : StripRun ↦ r.workshop.runs = runs)
      (Stripped.start registry recompiled owners strategy path) := by
    intro path
    refine (hwork (runs_onFiles _)).bind fun _ ↦ Keeps.bind (Keeps.modify fun _ hr ↦ hr) fun _ ↦
      (hwork (runs_object _)).bind fun _ ↦ Keeps.get.bind fun _ ↦ (Keeps.lift _).bind fun _ ↦ ?_
    split
    · exact Keeps.pure _
    · exact Keeps.throw _
  have hfinish : ∀ s, Keeps (fun r : StripRun ↦ r.workshop.runs = runs)
      (Stripped.finish registry strategy s) := by
    intro s
    unfold Stripped.finish
    split
    · exact (hwork (runs_onFiles _)).bind fun _ ↦ Keeps.pure _
    · exact Keeps.throw _
  have heach : Keeps (fun r : StripRun ↦ r.workshop.runs = runs)
      (Stripped.stripEach registry recompiled owners strategy needed) := by
    refine (Keeps.mapM fun path _ ↦ hstart path).bind fun started ↦ ?_
    dsimp only
    split
    · exact (Keeps.mapM fun _ _ ↦ Keeps.lift _).bind fun _ ↦ Keeps.mapM fun s _ ↦ hfinish s
    · exact Keeps.mapM fun s _ ↦ hfinish s
  refine Keeps.of_run fun w hw ↦ ?_
  have hstripped := heach.run (s := ⟨w, []⟩) hw
  rw [Stripped.run_strip]
  generalize (Stripped.stripEach registry recompiled owners strategy needed).run ⟨w, []⟩ = result
    at hstripped ⊢
  rcases result with ⟨_ | symbols, r⟩
  · have hrestored := (runs_restoreEach r.backedUp).run hstripped
    dsimp only
    generalize (Stripped.restoreEach r.backedUp).run r.workshop = restored at hrestored ⊢
    rcases restored with ⟨_ | _, w'⟩ <;> exact hrestored
  · exact hstripped

end Workshop

namespace LiveModule

variable {m s : LiveModule} {runs : List Run} {α β : Type}

theorem runs_inWorkshop {act : WorkshopM α} (h : Keeps (fun w ↦ w.runs = runs) act) :
    Keeps (fun m ↦ m.workshop.runs = runs) (inWorkshop act) :=
  Keeps.of_run fun _ hm ↦ h.run hm

theorem runs_onFleet (act : FleetM α) : Keeps (fun m ↦ m.workshop.runs = runs) (onFleet act) :=
  Keeps.of_run fun _ hm ↦ hm

theorem runs_callHooks (kind : HookKind) :
    Keeps (fun m ↦ m.workshop.runs = runs) (callHooks kind) :=
  Keeps.get.bind fun _ ↦ (runs_onFleet _).bind fun _ ↦ Keeps.pure _

theorem runs_clearPending : Keeps (fun m ↦ m.workshop.runs = runs) clearPending :=
  Keeps.get.bind fun _ ↦ Keeps.bind (Keeps.forM fun _ _ ↦ Keeps.modify fun _ hm ↦ hm) fun _ ↦
    Keeps.modify fun _ hm ↦ hm

theorem runs_abandon (outcome : CycleOutcome) :
    Keeps (fun m ↦ m.workshop.runs = runs) (abandon outcome) :=
  runs_clearPending.bind fun _ ↦ (keeps_tolerating (runs_callHooks _)).bind fun _ ↦ Keeps.pure _

theorem runs_finish (patch : PatchRecord) :
    Keeps (fun m ↦ m.workshop.runs = runs) (finish patch) :=
  runs_clearPending.bind fun _ ↦ Keeps.bind (Keeps.modify fun _ hm ↦ hm) fun _ ↦ Keeps.pure _

theorem runs_prepare (path : Path) : Keeps (fun m ↦ m.workshop.runs = runs) (prepare path) := by
  refine Keeps.get.bind fun _ ↦ (Keeps.lift _).bind fun image ↦ ?_
  split
  · exact Keeps.throw _
  · exact (runs_inWorkshop (Workshop.runs_onFiles _)).bind fun _ ↦ (Keeps.lift _).bind fun _ ↦
      Keeps.get.bind fun _ ↦ (Keeps.lift _).bind fun _ ↦ Keeps.pure _

theorem runs_activate (patch : PatchRecord) (p : Prepared) (image : Image) (needed : PathSet)
    (stripped : Stripped) (bases : List UInt64) :
    Keeps (fun m ↦ m.workshop.runs = runs) (activate patch p image needed stripped bases) := by
  have hgiveUp : Keeps (fun m ↦ m.workshop.runs = runs) (do
      unload bases
      modify fun m ↦ { m with registry := m.registry.discard patch.token }
      abandon .activateError) :=
    Keeps.bind (Keeps.modify fun _ hm ↦ hm) fun _ ↦ Keeps.bind (Keeps.modify fun _ hm ↦ hm)
      fun _ ↦ runs_abandon _
  refine Keeps.bind (Keeps.tried (Keeps.mapM fun object _ ↦
    runs_inWorkshop (Workshop.runs_object object))) fun result ↦ ?_
  split
  · exact Keeps.throw _
  · exact hgiveUp
  · refine Triple.bind_get fun m hm ↦ ?_
    dsimp only
    split
    · exact Triple.bind (R := fun _ (m : LiveModule) ↦ m.workshop.runs = runs)
        (Triple.set fun _ _ ↦ hm) fun _ ↦ runs_finish _
    · exact Triple.throw fun _ h ↦ h ▸ hm
    · exact Triple.bind (R := fun _ (m : LiveModule) ↦ m.workshop.runs = runs)
        (Triple.set fun _ _ ↦ hm) fun _ ↦ hgiveUp

theorem runs_install (path : Path) (needed : PathSet) (stripped : Stripped) :
    Keeps (fun m ↦ m.workshop.runs = runs) (install path needed stripped) := by
  have hunload : ∀ bases outcome, Keeps (fun m ↦ m.workshop.runs = runs) (do
      unload bases
      abandon outcome) :=
    fun _ _ ↦ Keeps.bind (Keeps.modify fun _ hm ↦ hm) fun _ ↦ runs_abandon _
  refine (runs_prepare path).bind fun p ↦ Triple.bind_get fun m hm ↦
    Triple.bind_lift (fun r _ ↦ ?_) fun _ h ↦ h ▸ hm
  refine Triple.bind (R := fun _ (m : LiveModule) ↦ m.workshop.runs = runs)
    (Triple.set fun _ _ ↦ hm) fun _ ↦ ?_
  split
  · exact hunload _ _
  · refine (Keeps.lift _).bind fun isInReach ↦ ?_
    split
    · refine Keeps.bind (Triple.bind_get fun m hm ↦ ?_) fun token ↦ runs_activate _ _ _ _ _ _
      exact Triple.bind (R := fun _ (m : LiveModule) ↦ m.workshop.runs = runs)
        (Triple.set fun _ _ ↦ hm) fun _ ↦ Keeps.pure _
    · exact hunload _ _

/-! ### Work that compiles -/

/-- Work that runs no tools but compilers. -/
def RunsCompilers (act : CycleM α) : Prop := ∀ m, ∃ trials, Ran m trials (act.run m).2

namespace RunsCompilers

variable {act : CycleM α}

/-- Work that runs no tool at all. -/
theorem of_run (h : ∀ m : LiveModule, (act.run m).2.settings = m.settings ∧
    (act.run m).2.workshop.toolchain = m.workshop.toolchain ∧
    (act.run m).2.workshop.runs = m.workshop.runs) : RunsCompilers act :=
  fun m ↦ ⟨[], (h m).1, (h m).2.1, (h m).2.2.trans (List.append_nil _).symm⟩

theorem bind {f : α → CycleM β} (h : RunsCompilers act) (hf : ∀ a, RunsCompilers (f a)) :
    RunsCompilers (act >>= f) := by
  intro m
  obtain ⟨trials, hran⟩ := h m
  rw [run_bind]
  generalize act.run m = result at hran ⊢
  rcases result with ⟨_ | a, m₁⟩
  · exact ⟨trials, hran⟩
  · obtain ⟨more, hmore⟩ := hf a m₁
    exact ⟨trials ++ more, hran.trans hmore⟩

theorem pure (a : α) : RunsCompilers (pure a) := .of_run fun _ ↦ ⟨rfl, rfl, rfl⟩

theorem throw (stop : Stop) : RunsCompilers (throw stop : CycleM α) :=
  .of_run fun _ ↦ ⟨rfl, rfl, rfl⟩

theorem get : RunsCompilers get := .of_run fun _ ↦ ⟨rfl, rfl, rfl⟩

theorem forM {f : Path → CycleM PUnit} (h : ∀ o, RunsCompilers (f o)) (objects : List Path) :
    RunsCompilers (objects.forM f) := by
  induction objects with
  | nil => exact .pure _
  | cons object objects ih => exact (h object).bind fun _ ↦ ih

theorem callHooks (kind : HookKind) : RunsCompilers (LiveModule.callHooks kind) :=
  get.bind fun _ ↦ .bind (.of_run fun _ ↦ ⟨rfl, rfl, rfl⟩) fun _ ↦ .pure _

theorem reload (object : Path) : RunsCompilers (inWorkshop (Workshop.reload object)) := by
  refine .of_run fun m ↦ ?_
  obtain ⟨objects, hreload⟩ := run_reload object m.workshop
  change _ ∧ ((Workshop.reload object).run m.workshop).2.toolchain = _ ∧
    ((Workshop.reload object).run m.workshop).2.runs = _
  rw [hreload]
  exact ⟨rfl, rfl, rfl⟩

theorem mark (object : Path) (recompiled : Bool) :
    RunsCompilers (LiveModule.mark object recompiled) :=
  .of_run fun _ ↦ ⟨rfl, rfl, rfl⟩

theorem bookSuccess (object : Path) : RunsCompilers (LiveModule.bookSuccess object) :=
  (reload object).bind fun _ ↦ (mark object true).bind fun _ ↦
    .of_run fun _ ↦ ⟨rfl, rfl, rfl⟩

theorem bookFailure (object : Path) : RunsCompilers (LiveModule.bookFailure object) :=
  (mark object false).bind fun _ ↦ .of_run fun _ ↦ ⟨rfl, rfl, rfl⟩

theorem accept (object : Path) : RunsCompilers (LiveModule.accept object) :=
  (reload object).bind fun _ ↦ (mark object true).bind fun _ ↦
    .of_run fun _ ↦ ⟨rfl, rfl, rfl⟩

theorem record (compiled : List Compiled) : RunsCompilers (LiveModule.record compiled) := by
  induction compiled with
  | nil => exact .pure _
  | cons c compiled ih =>
    unfold LiveModule.record
    rcases c with ⟨object, (_ | _) | output⟩
    · exact (bookFailure object).bind fun _ ↦ ih.bind fun _ ↦ .pure _
    · exact .throw _
    · dsimp only
      split
      · exact (bookSuccess object).bind fun _ ↦ ih
      · exact (bookFailure object).bind fun _ ↦ ih.bind fun _ ↦ .pure _

theorem compileStage (units : List (Compiland × Bool)) :
    RunsCompilers (LiveModule.compileStage units) := by
  refine .bind (fun m ↦ ?_) fun compiled ↦ record compiled
  obtain ⟨trials, m', hrun, -, hran, -⟩ := run_compileEach units m
  exact ⟨trials, by rwa [hrun]⟩

theorem compile : RunsCompilers LiveModule.compile := by
  have hunits : RunsCompilers unitsToCompile :=
    .of_run fun _ ↦ ⟨rfl, rfl, rfl⟩
  refine hunits.bind fun units ↦ ?_
  dsimp only
  refine (compileStage _).bind fun failures ↦ ?_
  split
  · exact .pure _
  · refine (compileStage _).bind fun failures ↦ ?_
    split
    · exact .pure _
    · exact compileStage _

theorem compileChanged : RunsCompilers LiveModule.compileChanged := by
  refine .bind (.of_run fun _ ↦ ⟨rfl, rfl, rfl⟩) fun _ ↦ get.bind fun m ↦ ?_
  split
  · exact .pure _
  · split
    · refine (callHooks _).bind fun _ ↦ compile.bind fun failures ↦ ?_
      split
      · exact (callHooks _).bind fun _ ↦ .pure _
      · exact (callHooks _).bind fun _ ↦ .pure _
    · exact .pure _

theorem acceptAll (objects : List Path) : RunsCompilers (LiveModule.acceptAll objects) := by
  refine .bind (forM accept objects) fun _ ↦ get.bind fun m ↦ ?_
  split <;> exact .pure _

end RunsCompilers

/-! ### The way to the linker -/

/-- What a build links. -/
structure Linkage where
  needed : PathSet
  /-- The object files that the patch is for. -/
  recompiled : PathSet
  stripped : Stripped

/-- A run of the linker, which makes an image of what is linked. -/
structure LinkerRun where
  linkage : Linkage
  line : Invocation
  image : Path

/-- What a build does before its link. Answers what is linked, unless nothing is pending. -/
def gatherLinkage : CycleM (Option Linkage) := do
  let m ← get
  if m.pending.isEmpty then return none
  let recompiled := m.pending
  let owners ← inWorkshop (Closure.symbolOwners m.compilands recompiled)
  let needed ← inWorkshop (Closure.needed m.compilands m.registry owners recompiled)
  let strategy := m.settings.strategyFor (m.settings.linkerFor (← get).files m.linker.linker)
  let stripped ← inWorkshop
    (Stripped.strip m.registry recompiled owners strategy needed.toList)
  return some ⟨needed, recompiled, stripped⟩

/-- What a link does before it runs the linker. -/
def prepareLinker (l : Linkage) : CycleM LinkerRun := do
  let (patchFiles, m) := (← get).nextPatchFiles
  set m
  let tables ← l.recompiled.toList.mapM fun object ↦ inWorkshop (Workshop.object object)
  let arguments :=
    LinkerLine.arguments m.settings m.linker m.weakSymbols tables l.needed.toList patchFiles
  pure ⟨l, LinkerLine.invocation m.settings m.files m.linker arguments, patchFiles.image⟩

/-- What a cycle that starts in a way does before it runs the linker, if it comes to that. -/
def approachLinker (front : CycleM (Option CycleOutcome)) : CycleM (Option LinkerRun) := do
  match ← front with
  | some _ => pure none
  | none =>
    match ← gatherLinkage with
    | none => pure none
    | some l => some <$> prepareLinker l

/-- What a build does behind its link, whatever that came to. -/
def finishLink (l : Linkage) (linked : Outcome Linked) : CycleM CycleOutcome := do
  let restored ← ExceptT.lift (inWorkshop l.stripped.restore).run
  let linked ← linked
  restored
  if !linked.output.isSuccess then
    callHooks .compileError
    return .linkError linked.output.exitCode
  install linked.image l.needed l.stripped

/-- What a build does with what it gathered. -/
def linkGathered : Option Linkage → CycleM CycleOutcome
  | none => pure .noChange
  | some l => do finishLink l (← ExceptT.lift (link l.needed l.recompiled).run)

theorem build_eq_gatherLinkage_bind : build = gatherLinkage >>= linkGathered := by
  unfold build gatherLinkage
  simp only [bind_assoc]
  congr 1
  funext m
  split
  · rfl
  · simp only [bind_assoc, pure_bind, linkGathered, finishLink]

theorem link_eq (l : Linkage) : link l.needed l.recompiled = (do
    let r ← prepareLinker l
    let output ← runTool r.line
    pure ⟨r.image, output⟩) := by
  unfold link prepareLinker
  simp only [bind_assoc, pure_bind]

variable {front : CycleM (Option CycleOutcome)} {act : CycleM CycleOutcome} {r : LinkerRun}

/-- A cycle that starts in a way comes to the linker, with the module in a state then. -/
def Links (m : LiveModule) (front : CycleM (Option CycleOutcome)) (r : LinkerRun)
    (s : LiveModule) : Prop :=
  (approachLinker front).run m = (.ok (some r), s)

/-- The stages of a cycle before it runs the linker. -/
theorem Links.stages (h : m.Links front r s) :
    ∃ m₁ l m₂, front.run m = (.ok none, m₁) ∧ gatherLinkage.run m₁ = (.ok (some l), m₂) ∧
      (prepareLinker l).run m₂ = (.ok r, s) := by
  unfold Links approachLinker at h
  rw [run_bind] at h
  rcases hfront : front.run m with ⟨_ | _ | _, m₁⟩ <;> rw [hfront] at h
  · cases h
  · dsimp only at h
    rw [run_bind] at h
    rcases hgather : gatherLinkage.run m₁ with ⟨_ | _ | l, m₂⟩ <;> rw [hgather] at h
    · cases h
    · cases h
    · refine ⟨m₁, l, m₂, rfl, hgather, ?_⟩
      dsimp only at h
      rw [map_eq_pure_bind, run_bind] at h
      rcases hprepare : (prepareLinker l).run m₂ with ⟨_ | r', t⟩ <;> rw [hprepare] at h
      · cases h
      · cases h
        rfl
  · cases h

/-! ### What the linker is given -/

namespace IgnoresWork

variable {inv : LiveModule → Prop}

theorem gatherLinkage (h : IgnoresWork inv) : Keeps inv LiveModule.gatherLinkage := by
  refine Keeps.get.bind fun m ↦ ?_
  split
  · exact Keeps.pure _
  · exact (h.inWorkshop _).bind fun _ ↦ (h.inWorkshop _).bind fun _ ↦ Keeps.get.bind fun _ ↦
      (h.inWorkshop _).bind fun _ ↦ Keeps.pure _

theorem prepareLinker (h : IgnoresWork inv) (l : Linkage) :
    Keeps inv (LiveModule.prepareLinker l) := by
  refine Triple.bind_get fun m hm ↦ ?_
  refine Triple.bind (R := fun _ ↦ inv) (Triple.set fun _ _ ↦
    h.work _ (PatchFiles.le_next m.counter m.files) hm) fun _ ↦ ?_
  exact Keeps.bind (Keeps.mapM fun _ _ ↦ h.inWorkshop _) fun _ ↦ Keeps.pure _

end IgnoresWork

theorem runs_gatherLinkage : Keeps (fun m ↦ m.workshop.runs = runs) gatherLinkage := by
  refine Keeps.get.bind fun m ↦ ?_
  split
  · exact Keeps.pure _
  · exact (runs_inWorkshop (Closure.keeps_symbolOwners _ _ Workshop.runs_onObjects)).bind fun _ ↦
      (runs_inWorkshop (Closure.keeps_needed _ _ _ _ Workshop.runs_object)).bind fun _ ↦
      Keeps.get.bind fun _ ↦
      (runs_inWorkshop (Workshop.runs_strip _ _ _ _ _)).bind fun _ ↦ Keeps.pure _

theorem runs_prepareLinker (l : Linkage) :
    Keeps (fun m ↦ m.workshop.runs = runs) (prepareLinker l) := by
  refine Triple.bind_get fun m hm ↦ ?_
  refine Triple.bind (R := fun _ (m : LiveModule) ↦ m.workshop.runs = runs)
    (Triple.set fun _ _ ↦ hm) fun _ ↦ ?_
  exact Keeps.bind (Keeps.mapM fun _ _ ↦ runs_inWorkshop (Workshop.runs_object _)) fun _ ↦
    Keeps.pure _

theorem runs_finishLink (l : Linkage) (linked : Outcome Linked) :
    Keeps (fun m ↦ m.workshop.runs = runs) (finishLink l linked) := by
  refine (Keeps.tried (runs_inWorkshop (Workshop.runs_restoreEach _))).bind fun _ ↦
    (Keeps.lift _).bind fun linked ↦ (Keeps.lift _).bind fun _ ↦ ?_
  split
  · exact (runs_callHooks _).bind fun _ ↦ Keeps.pure _
  · exact runs_install _ _ _

/-- What is linked contains what the patch is for. -/
theorem contains_gatherLinkage : Triple (fun _ ↦ True) gatherLinkage
    (fun gathered _ ↦ ∀ l, gathered = some l →
      ∀ o, l.recompiled.contains o = true → l.needed.contains o = true) fun _ ↦ True := by
  refine Keeps.triv_bind fun m ↦ ?_
  split
  · exact Triple.pure fun _ _ _ hl ↦ by cases hl
  · refine Keeps.triv_bind fun owners ↦ Triple.bind (R := fun needed _ ↦
      ∀ o, m.pending.contains o = true → needed.contains o = true) (fun s _ ↦ ?_) fun needed ↦
      Triple.of_fact fun hneeded ↦ Keeps.triv_bind fun _ ↦ Keeps.triv_bind fun stripped ↦
      Triple.pure fun _ _ l hl ↦ ?_
    · rw [run_inWorkshop]
      rcases hrun : (Closure.needed m.compilands m.registry owners m.pending).run s.workshop
        with ⟨_ | needed, w⟩
      · trivial
      · exact fun o ho ↦ Closure.contains_needed hrun ho
    · cases hl
      exact hneeded

/-- The linker of a module is run for what is linked, every file of it by its name. -/
theorem names_prepareLinker (l : Linkage) : Triple (fun _ ↦ True) (prepareLinker l)
    (fun r m ↦ r.linkage = l ∧ (∃ files arguments,
      r.line = LinkerLine.invocation m.settings files m.linker arguments) ∧
      ∀ o, l.needed.contains o = true → r.line.Names o) fun _ ↦ True := by
  refine Triple.bind_get fun m _ ↦ ?_
  dsimp only
  generalize m.nextPatchFiles = next
  obtain ⟨patchFiles, m⟩ := next
  refine Triple.bind (R := fun _ (s : LiveModule) ↦ s.settings = m.settings ∧ s.linker = m.linker)
    (Triple.set fun _ _ ↦ ⟨rfl, rfl⟩) fun _ ↦ ?_
  refine ((Keeps.mapM fun object _ ↦ Keeps.of_run fun s hs ↦ hs).mono (fun _ h ↦ h) (fun _ _ h ↦ h)
    fun _ _ ↦ trivial).bind fun tables ↦ Triple.pure fun s hs ↦ ⟨rfl, ?_, fun o ho ↦ ?_⟩
  · rw [hs.1, hs.2]
    exact ⟨_, _, rfl⟩
  · exact LinkerLine.names_invocation _ _ _ _ _ _ ho

/-- What is gathered for a link is what was pending, and gathering does not bear on the books. -/
theorem books_gatherLinkage (b : Books) :
    Triple (fun m ↦ m.books = b) gatherLinkage
      (fun gathered m ↦ m.books = b ∧ ∀ l, gathered = some l → l.recompiled = b.pending)
      fun m ↦ m.books = b := by
  have h := books_ignoresWork b
  refine Triple.bind_get fun m hm ↦ Triple.mono ?_ (fun _ h ↦ (congrArg books h).trans hm)
    (fun _ _ h ↦ h) fun _ h ↦ h
  subst hm
  split
  · exact Triple.pure fun _ hs ↦ ⟨hs, nofun⟩
  · refine Triple.bind (h.inWorkshop _) fun owners ↦ Triple.bind (h.inWorkshop _) fun needed ↦
      Triple.bind Keeps.get fun _ ↦ Triple.bind (h.inWorkshop _) fun stripped ↦
      Triple.pure fun _ hs ↦ ⟨hs, fun l hl ↦ ?_⟩
    cases hl
    rfl

theorem books_prepareLinker (b : Books) (l : Linkage) :
    Triple (fun m ↦ m.books = b) (prepareLinker l)
      (fun r m ↦ m.books = b ∧ r.linkage = l) fun m ↦ m.books = b := by
  refine Triple.bind_get fun m hm ↦ ?_
  refine Triple.bind (R := fun _ (m : LiveModule) ↦ m.books = b) (Triple.set fun _ _ ↦ hm)
    fun _ ↦ ?_
  exact Triple.bind (Keeps.mapM fun _ _ ↦ (books_ignoresWork b).inWorkshop _) fun _ ↦
    Triple.pure fun _ hs ↦ ⟨hs, rfl⟩

/-- The linker gets what is pending when a cycle comes to its build, and finds the books as they
are then. -/
theorem Links.books (h : m.Links front r s) :
    ∃ m₁, front.run m = (.ok none, m₁) ∧ r.linkage.recompiled = m₁.pending ∧
      s.books = m₁.books := by
  obtain ⟨m₁, l, m₂, hfront, hgather, hprepare⟩ := h.stages
  have hgathered := (books_gatherLinkage m₁.books).ok rfl hgather
  have hprepared := (books_prepareLinker m₁.books l).ok hgathered.1 hprepare
  exact ⟨m₁, hfront, hprepared.2 ▸ hgathered.2 l rfl, hprepared.1⟩

/-- What a cycle does before it builds: it runs compilers, and bears on little but the books. -/
structure IsFront (front : CycleM (Option CycleOutcome)) (act : CycleM CycleOutcome) : Prop where
  eq : act = front >>= buildUnless
  compiles : RunsCompilers front
  ignores : ∀ {inv : LiveModule → Prop}, IgnoresBooks inv → Keeps inv front

theorem isFront_compileChanged : IsFront compileChanged update :=
  ⟨update_eq, .compileChanged, fun h ↦ h.compileChanged⟩

theorem isFront_acceptAll (objects : List Path) :
    IsFront (acceptAll objects) (updateWithObjects objects) :=
  ⟨updateWithObjects_eq objects, .acceptAll objects, fun h ↦ h.acceptAll objects⟩

/-- The linker is given every object file that the patch is for by its name. -/
theorem Links.names (h : m.Links front r s) {o : Path}
    (ho : r.linkage.recompiled.contains o = true) : r.line.Names o := by
  obtain ⟨m₁, l, m₂, -, hgather, hprepare⟩ := h.stages
  obtain ⟨rfl, -, hnames⟩ := (names_prepareLinker l).ok trivial hprepare
  exact hnames o (contains_gatherLinkage.ok trivial hgather _ rfl o ho)

/-- The linker is the one of the module. -/
theorem Links.line (hfront : IsFront front act) (h : m.Links front r s) :
    ∃ files arguments, r.line = LinkerLine.invocation m.settings files m.linker arguments := by
  have hignores : IgnoresBooks fun s ↦ s.settings = m.settings ∧ s.linker = m.linker :=
    { work := fun _ _ hs ↦ hs, informing := fun _ hs ↦ hs, books := fun _ _ _ hs ↦ hs }
  obtain ⟨m₁, l, m₂, hrun, hgather, hprepare⟩ := h.stages
  have h₁ := (hfront.ignores hignores).run_eq ⟨rfl, rfl⟩ hrun
  have h₂ := hignores.gatherLinkage.run_eq h₁ hgather
  have hs := (hignores.prepareLinker l).run_eq h₂ hprepare
  obtain ⟨-, hline, -⟩ := (names_prepareLinker l).ok trivial hprepare
  rwa [hs.1, hs.2] at hline

/-- Between what a cycle does before it builds and the linker no tool is run. -/
theorem Links.runs_eq (h : m.Links front r s) :
    s.workshop.runs = (front.run m).2.workshop.runs := by
  obtain ⟨m₁, l, m₂, hrun, hgather, hprepare⟩ := h.stages
  rw [hrun]
  exact (runs_prepareLinker l).run_eq (runs_gatherLinkage.run_eq rfl hgather) hprepare

/-- A cycle that comes to the linker runs it next, and goes on with what that comes to. -/
theorem Links.run_eq (h : m.Links front r s) : (front >>= buildUnless).run m = (do
    let output ← ExceptT.lift (runTool r.line).run
    finishLink r.linkage (output.map (Linked.mk r.image)) : CycleM CycleOutcome).run s := by
  obtain ⟨m₁, l, m₂, hfront, hgather, hprepare⟩ := h.stages
  obtain ⟨rfl, -, -⟩ := (names_prepareLinker l).ok trivial hprepare
  have hlink : (link r.linkage.needed r.linkage.recompiled).run m₂ =
      (((runTool r.line).run s).1.map (Linked.mk r.image), ((runTool r.line).run s).2) := by
    rw [link_eq, run_bind, hprepare]
    dsimp only
    rw [run_bind]
    rcases (runTool r.line).run s with ⟨_ | output, t⟩ <;> rfl
  rw [run_bind, hfront]
  change build.run m₁ = _
  rw [build_eq_gatherLinkage_bind, run_bind, hgather]
  change (ExceptT.lift (link r.linkage.needed r.linkage.recompiled).run >>=
    finishLink r.linkage).run m₂ = _
  rw [run_bind, run_tried, hlink, run_bind, run_tried]

/-- A cycle runs the linker of a module, and finds the module in a state then: it comes to that state
before, goes on with what the linker comes to, and runs no other tool any more. -/
structure RunsLinker (m : LiveModule) (front : CycleM (Option CycleOutcome))
    (act : CycleM CycleOutcome) (r : LinkerRun) (s : LiveModule) : Prop where
  links : m.Links front r s
  goesOn : act.run m = (do
    let output ← ExceptT.lift (runTool r.line).run
    finishLink r.linkage (output.map (Linked.mk r.image)) : CycleM CycleOutcome).run s
  logged : (act.run m).2.workshop.runs = s.workshop.runs ++ [⟨r.line, s.files⟩]

/-- A cycle that comes to the linker runs it. -/
theorem Links.runsLinker (hfront : IsFront front act) (h : m.Links front r s) :
    m.RunsLinker front act r s := by
  have hrun : act.run m = _ := hfront.eq ▸ h.run_eq
  refine ⟨h, hrun, ?_⟩
  obtain ⟨fleet, htool⟩ := run_runTool r.line s
  rw [hrun, run_bind, run_tried, htool]
  exact (runs_finishLink _ _).run rfl

/-- A cycle that does not come to the linker runs no tool behind what it does before it builds, and
answers what that answered, if not that there was no change or an error. -/
theorem run_of_not_links (hfront : IsFront front act) (h : ∀ r s, ¬m.Links front r s) :
    (act.run m).2.workshop.runs = (front.run m).2.workshop.runs ∧
      ∀ outcome, (act.run m).1 = .ok outcome →
        (front.run m).1 = .ok (some outcome) ∨ outcome = .noChange := by
  rw [hfront.eq, run_bind]
  rcases hrun : front.run m with ⟨_ | _ | outcome, m₁⟩
  · exact ⟨rfl, fun _ hok ↦ by cases hok⟩
  · -- what is gathered cannot be linked, if there is anything
    change (build.run m₁).2.workshop.runs = _ ∧ ∀ outcome, (build.run m₁).1 = .ok outcome → _
    rw [build_eq_gatherLinkage_bind, run_bind]
    have hgathered := runs_gatherLinkage.run (s := m₁) rfl
    rcases hgather : gatherLinkage.run m₁ with ⟨_ | _ | l, m₂⟩ <;> rw [hgather] at hgathered
    · exact ⟨hgathered, fun _ hok ↦ by cases hok⟩
    · exact ⟨hgathered, fun outcome hok ↦ .inr (by cases hok; rfl)⟩
    · have hprepared := (runs_prepareLinker l).run hgathered
      rcases hprepare : (prepareLinker l).run m₂ with ⟨stop | r, s⟩ <;> rw [hprepare] at hprepared
      · have hlink : (link l.needed l.recompiled).run m₂ = (.error stop, s) := by
          rw [link_eq, run_bind, hprepare]
        change ((ExceptT.lift (link l.needed l.recompiled).run >>= finishLink l).run m₂).2.workshop.runs
          = _ ∧ ∀ outcome, ((ExceptT.lift (link l.needed l.recompiled).run >>=
            finishLink l).run m₂).1 = .ok outcome → _
        rw [run_bind, run_tried, hlink]
        refine ⟨(runs_finishLink l _).run hprepared, fun outcome hok ↦ ?_⟩
        dsimp only at hok
        unfold finishLink at hok
        rw [run_bind, run_tried] at hok
        cases hok
      · refine absurd ?_ (h r s)
        unfold Links approachLinker
        rw [run_bind, hrun]
        dsimp only
        rw [run_bind, hgather]
        dsimp only
        rw [map_eq_pure_bind, run_bind, hprepare]
        rfl
  · exact ⟨rfl, fun _ hok ↦ .inl (by cases hok; rfl)⟩

/-- The tools that a cycle runs are compilers, and behind them the linker if it comes to that. -/
theorem exists_runs (hfront : IsFront front act) (m : LiveModule) :
    ∃ (trials : List Trial) (linked : Option Run),
      (act.run m).2.workshop.runs
        = m.workshop.runs ++ trials.map (Trial.run m) ++ linked.toList ∧
      ∀ run, linked = some run → ∃ r s, m.RunsLinker front act r s ∧ run = ⟨r.line, s.files⟩ := by
  obtain ⟨trials, hran⟩ := hfront.compiles m
  refine ⟨trials, ?_⟩
  by_cases h : ∃ r s, m.Links front r s
  · obtain ⟨r, s, hlinks⟩ := h
    have hlinker := hlinks.runsLinker hfront
    refine ⟨some ⟨r.line, s.files⟩, ?_, fun run hrun ↦ ?_⟩
    · rw [hlinker.logged, hlinks.runs_eq, hran.runs]
      rfl
    · cases hrun
      exact ⟨r, s, hlinker, rfl⟩
  · refine ⟨none, ?_, fun _ hrun ↦ by cases hrun⟩
    rw [(run_of_not_links hfront fun r s hlinks ↦ h ⟨r, s, hlinks⟩).1, hran.runs]
    exact (List.append_nil _).symm

end LiveModule
end LivePatch
