import LivePatch.Proofs.Build.Backups
import LivePatch.Proofs.Build.Closure
import LivePatch.Proofs.Build.PatchNames
import LivePatch.Proofs.Session.Consistency
import LivePatch.Session.Cycle

/-!
# Object files survive a build

Whatever a build comes to, the object files that go into the patch have their contents again when it
returns, and none of them was left a backup. That takes object files none of which lies in the place
of another one's backup, and file names of patches that are not theirs.
-/

namespace LivePatch

namespace LoadState

variable {P : FileTree → Prop}

/-- Loading a patch writes its copy for the process, and its image only in place. -/
theorem keeps_files_load (moduleSize : UInt32) {path : Path} (pid : UInt32) (inPlace : Bool)
    (hwrite : ∀ t t' p data, P t → (p = path ∧ inPlace = true ∨ p = copyPath path pid) →
      t.write? p data = some t' → P t') :
    Keeps (fun s ↦ AttachedProcess.Is pid s.process ∧ P s.files)
      (load moduleSize path inPlace) := by
  have hprocess : ∀ {α : Type} (act : ProcessM α), Keeps (AttachedProcess.Is pid) act →
      Keeps (fun s ↦ AttachedProcess.Is pid s.process ∧ P s.files) (onProcess act) := by
    intro α act hact
    exact Keeps.of_run fun s hs ↦ ⟨hact.run hs.1, hs.2⟩
  have hsave : ∀ (image : Image) (p : Path), p = path ∧ inPlace = true ∨ p = copyPath path pid →
      Keeps (fun s ↦ AttachedProcess.Is pid s.process ∧ P s.files) (onFiles (image.save p)) := by
    intro image p hp
    have hchange : Keeps P (image.save p) := by
      refine Triple.inContext ((Files.triple_change _).mono (fun _ h ↦ h) ?_ fun _ h ↦ h)
      rintro _ t' ⟨t, ht, hwritten⟩
      exact hwrite t t' p _ ht hp hwritten
    exact Keeps.of_run fun s hs ↦ ⟨hs.1, hchange.run hs.2⟩
  have hplace : ∀ base, Keeps (fun s ↦ AttachedProcess.Is pid s.process ∧ P s.files)
      (placeAt path inPlace base) := by
    intro base
    refine Triple.bind_get fun s hs ↦ Triple.bind_lift (fun at_ _ ↦ ?_) fun _ h ↦ h ▸ hs
    split
    · exact Triple.pure fun _ h ↦ h ▸ hs
    · split
      · next hinPlace =>
        have hwork : Keeps (fun s ↦ AttachedProcess.Is pid s.process ∧ P s.files) (do
            onImage (Image.rebase base)
            onFiles ((← get).image.save path)
            pure path : LoadM Path) :=
          (Keeps.of_run fun _ h ↦ h).bind fun _ ↦ Keeps.get.bind fun _ ↦
            (hsave _ path (.inl ⟨rfl, hinPlace⟩)).bind fun _ ↦ Keeps.pure _
        exact hwork.mono (fun _ h ↦ h ▸ hs) (fun _ _ h ↦ h) fun _ h ↦ h
      · refine Triple.bind_lift (fun _ _ ↦ Triple.bind_lift (fun image _ ↦ ?_) fun _ h ↦ h ▸ hs)
          fun _ h ↦ h ▸ hs
        have hcopy : copyPath path s.process.pid = copyPath path pid := by rw [hs.1]
        exact Triple.mono ((hsave image _ (.inr hcopy)).bind fun _ ↦ Keeps.pure _)
          (fun _ h ↦ h ▸ hs) (fun _ _ h ↦ h) fun _ h ↦ h
  refine Keeps.get.bind fun s ↦ (Keeps.lift _).bind fun size ↦ ?_
  refine Keeps.bind (Keeps.get.bind fun _ ↦ hprocess _ (AttachedProcess.is_onTarget
    (Target.is_ignoresThreads.suspended_act
      (Placement.keeps_freeRegionNear Target.is_ignoresThreads.isRangeFree _ _ _))))
    fun room ↦ ?_
  cases room with
  | none => exact Keeps.pure _
  | some base =>
    exact (hplace base).bind fun file ↦ Keeps.get.bind fun _ ↦
      hprocess _ (AttachedProcess.is_loadPatch _ file)

end LoadState

namespace LoadRun

variable {P : FileTree → Prop}

/-- Loading a patch into processes writes its image, and its copies for processes. -/
theorem files_loadEach {moduleSize : UInt32} {path : Path}
    (hwrite : ∀ t t' p data, P t → (p = path ∨ ∃ pid, p = LoadState.copyPath path pid) →
      t.write? p data = some t' → P t') {isFirst : Bool} {files : FileTree} {image : Image}
    {fleet : Fleet} {r : LoadRun} (hfiles : P files)
    (hr : loadEach moduleSize path isFirst files image fleet = .ok r) : P r.files := by
  induction fleet generalizing isFirst files image r with
  | nil =>
    cases hr
    exact hfiles
  | cons p rest ih =>
    have hload := (LoadState.keeps_files_load moduleSize p.pid isFirst
      (fun t t' q data ht hq ↦ hwrite t t' q data ht (hq.imp And.left fun h ↦ ⟨p.pid, h⟩))).run
      (s := ⟨files, image, p⟩) ⟨rfl, hfiles⟩
    unfold loadEach at hr
    generalize (LoadState.load moduleSize path isFirst).run ⟨files, image, p⟩ = loaded at hload hr
    rcases loaded with ⟨(_ | _) | _ | base, s⟩
    · cases hr
      exact hload.2
    · cases hr
    · cases hr
      exact hload.2
    · obtain ⟨more, hmore, hr⟩ := Outcome.bind_eq_ok_iff.mp hr
      cases hr
      exact (ih hload.2 hmore : P more.files)

end LoadRun

namespace LiveModule

/-- What a module is built with is still there, and its workshop has a property. -/
structure IsAt (m : LiveModule) (W : Workshop → Prop) (m' : LiveModule) : Prop where
  settings : m'.settings = m.settings
  path : m'.path = m.path
  linker : m'.linker = m.linker
  weakSymbols : m'.weakSymbols = m.weakSymbols
  workshop : W m'.workshop

variable {m : LiveModule} {W : Workshop → Prop} {α : Type}

/-- Work in the workshop. -/
theorem triple_inWorkshop {act : WorkshopM α} {S : Workshop → Prop} {Q : α → Workshop → Prop}
    (h : Triple W act Q S) :
    Triple (m.IsAt W) (inWorkshop act) (fun a ↦ m.IsAt (Q a)) (m.IsAt S) := by
  intro m' hm'
  rw [run_inWorkshop]
  have hact := h m'.workshop hm'.workshop
  generalize act.run m'.workshop = r at hact ⊢
  obtain ⟨hsettings, hpath, hlinker, hweak, -⟩ := hm'
  rcases r with ⟨_ | a, w⟩ <;> exact ⟨hsettings, hpath, hlinker, hweak, hact⟩

theorem isAt_onFleet (act : FleetM α) : Keeps (m.IsAt W) (onFleet act) :=
  Keeps.of_run fun _ h ↦ ⟨h.settings, h.path, h.linker, h.weakSymbols, h.workshop⟩

theorem isAt_callHooks (kind : HookKind) : Keeps (m.IsAt W) (callHooks kind) :=
  Keeps.get.bind fun _ ↦ (isAt_onFleet _).bind fun _ ↦ Keeps.pure _

theorem isAt_forwardOutput (text : String) : Keeps (m.IsAt W) (forwardOutput text) := by
  refine Keeps.get.bind fun m' ↦ ?_
  split
  · exact Keeps.pure _
  · exact isAt_onFleet _

theorem isAt_clearPending : Keeps (m.IsAt W) clearPending := by
  refine Keeps.get.bind fun _ ↦ Keeps.bind (Keeps.forM fun object _ ↦ ?_) fun _ ↦
    Keeps.modify fun _ h ↦ ⟨h.settings, h.path, h.linker, h.weakSymbols, h.workshop⟩
  exact Keeps.modify fun _ h ↦ ⟨h.settings, h.path, h.linker, h.weakSymbols, h.workshop⟩

theorem isAt_abandon (outcome : CycleOutcome) : Keeps (m.IsAt W) (abandon outcome) :=
  isAt_clearPending.bind fun _ ↦ (keeps_tolerating (isAt_callHooks _)).bind fun _ ↦ Keeps.pure _

theorem isAt_finish (patch : PatchRecord) : Keeps (m.IsAt W) (finish patch) :=
  isAt_clearPending.bind fun _ ↦ (Keeps.modify fun _ h ↦
    ⟨h.settings, h.path, h.linker, h.weakSymbols, h.workshop⟩).bind fun _ ↦ Keeps.pure _

theorem isAt_unload (bases : List UInt64) : Keeps (m.IsAt W) (unload bases) :=
  Keeps.modify fun _ h ↦ ⟨h.settings, h.path, h.linker, h.weakSymbols, h.workshop⟩

theorem isAt_discard (token : Token) : Keeps (m.IsAt W)
    (modify fun m ↦ { m with registry := m.registry.discard token } : CycleM Unit) :=
  Keeps.modify fun _ h ↦ ⟨h.settings, h.path, h.linker, h.weakSymbols, h.workshop⟩

theorem isAt_enroll (path : Path) (p : Prepared) (bases : List UInt64) :
    Keeps (m.IsAt W) (enroll path p bases) :=
  Triple.bind_get fun _ h ↦ Triple.bind (R := fun _ ↦ m.IsAt W)
    (Triple.set fun _ _ ↦ ⟨h.settings, h.path, h.linker, h.weakSymbols, h.workshop⟩) fun _ ↦
    Keeps.pure _

section Files

variable {tools : Toolchain} {P : FileTree → Prop}

/-- Activating a patch changes no file. -/
theorem isAt_activate (patch : PatchRecord) (p : Prepared) (image : Image) (needed : PathSet)
    (stripped : Stripped) (bases : List UInt64) :
    Keeps (m.IsAt (Workshop.IsWith tools P)) (activate patch p image needed stripped bases) := by
  refine Keeps.bind (Keeps.tried (Keeps.mapM fun object _ ↦
    triple_inWorkshop (Workshop.keeps_object object))) fun result ↦ ?_
  split
  · exact Keeps.throw _
  · exact (isAt_unload bases).bind fun _ ↦ (isAt_discard _).bind fun _ ↦ isAt_abandon _
  · refine Triple.bind_get fun m' h ↦ ?_
    dsimp only
    split
    · exact Triple.bind (R := fun _ ↦ m.IsAt (Workshop.IsWith tools P))
        (Triple.set fun _ _ ↦ ⟨h.settings, h.path, h.linker, h.weakSymbols, h.workshop⟩)
        fun _ ↦ isAt_finish _
    · exact Triple.throw fun _ hm' ↦ hm' ▸ h
    · exact Triple.bind (R := fun _ ↦ m.IsAt (Workshop.IsWith tools P))
        (Triple.set fun _ _ ↦ ⟨h.settings, h.path, h.linker, h.weakSymbols, h.workshop⟩) fun _ ↦
        (isAt_unload bases).bind fun _ ↦ (isAt_discard _).bind fun _ ↦ isAt_abandon _

/-- Preparing a linked patch writes its image. -/
theorem isAt_prepare {path : Path}
    (hwrite : ∀ t t' data, P t → t.write? path data = some t' → P t') :
    Keeps (m.IsAt (Workshop.IsWith tools P)) (prepare path) := by
  refine Keeps.get.bind fun _ ↦ (Keeps.lift _).bind fun image ↦ ?_
  split
  · exact Keeps.throw _
  · next image _ =>
    have hsave : Keeps P (image.save path) := by
      refine Triple.inContext ((Files.triple_change _).mono (fun _ h ↦ h) ?_ fun _ h ↦ h)
      rintro _ t' ⟨t, ht, hwritten⟩
      exact hwrite t t' _ ht hwritten
    exact (triple_inWorkshop (Workshop.triple_onFiles hsave)).bind fun _ ↦ (Keeps.lift _).bind
      fun _ ↦ Keeps.get.bind fun _ ↦ (Keeps.lift _).bind fun _ ↦ Keeps.pure _

/-- Installing a patch writes its image and copies of it. -/
theorem isAt_install {path : Path}
    (hwrite : ∀ t t' p data, P t → (p = path ∨ ∃ pid, p = LoadState.copyPath path pid) →
      t.write? p data = some t' → P t') (needed : PathSet) (stripped : Stripped) :
    Keeps (m.IsAt (Workshop.IsWith tools P)) (install path needed stripped) := by
  refine (isAt_prepare fun t t' data ht ↦ hwrite t t' path data ht (.inl rfl)).bind fun p ↦
    Triple.bind_get fun m' h ↦ ?_
  refine Triple.bind_lift (fun r hr ↦ ?_) fun _ hm' ↦ hm' ▸ h
  have hfiles : P r.files := LoadRun.files_loadEach hwrite h.workshop.2 hr
  refine Triple.bind (R := fun _ ↦ m.IsAt (Workshop.IsWith tools P)) (Triple.set fun _ _ ↦
    ⟨h.settings, h.path, h.linker, h.weakSymbols, h.workshop.1, hfiles⟩) fun _ ↦ ?_
  split
  · exact (isAt_unload _).bind fun _ ↦ isAt_abandon _
  · refine (Keeps.lift _).bind fun isInReach ↦ ?_
    split
    · exact (isAt_enroll _ _ _).bind fun _ ↦ isAt_activate _ _ _ _ _ _
    · exact (isAt_unload _).bind fun _ ↦ isAt_abandon _

end Files

variable {objects done : List Path}

/-- A module whose object files are built into a patch. -/
abbrev IsBuilding (m : LiveModule) (objects done : List Path) : LiveModule → Prop :=
  m.IsAt (Workshop.IsWith m.workshop.toolchain (Backup.Underway objects m.files done))

/-- Installing a patch that lies elsewhere leaves the object files as far as they are. -/
theorem isBuilding_install {path : Path}
    (hpath : Backup.IsElsewhere m.files.home objects path)
    (hcopy : ∀ pid, Backup.IsElsewhere m.files.home objects (LoadState.copyPath path pid))
    (needed : PathSet) (stripped : Stripped) :
    Keeps (m.IsBuilding objects done) (install path needed stripped) := by
  refine isAt_install (fun t t' p data ht hp hwrite ↦ ?_) needed stripped
  refine ht.elsewhere ?_ (FileTree.sets_of_write? ht.isTree hwrite)
  rcases hp with rfl | ⟨pid, rfl⟩
  · exact hpath
  · exact hcopy pid

/-- The linker leaves object files and their backups alone, whichever patch of a module it links
them into. -/
def LinkerSpares (m : LiveModule) (objects : List Path) : Prop :=
  ∀ (tables : List ObjectTable) (n : Nat) (files t : FileTree), t.IsTree →
    Backup.Spares objects t (m.workshop.toolchain
      (LinkerLine.invocation m.settings files m.linker (LinkerLine.arguments m.settings m.linker
        m.weakSymbols tables objects (PatchFiles.ofNumber m.path n))) t).2

theorem nextPatchFiles_eq (m : LiveModule) : m.nextPatchFiles =
    (((PatchFiles.next m.path m.counter).run m.files).1.1, { m with
      workshop := { m.workshop with files := ((PatchFiles.next m.path m.counter).run m.files).2 }
      counter := ((PatchFiles.next m.path m.counter).run m.files).1.2 }) := rfl

/-- The next files of a patch have a number, and what takes their room goes. -/
theorem isBuilding_nextPatchFiles
    (hown : ∀ p, PatchFiles.IsOwn m.path p → Backup.IsElsewhere m.files.home objects p)
    {m' : LiveModule} (h : m.IsBuilding objects done m') :
    (∃ n, m'.nextPatchFiles.1 = PatchFiles.ofNumber m.path n) ∧
      m.IsBuilding objects done m'.nextPatchFiles.2 := by
  have hfiles : Backup.Underway objects m.files done m'.files := h.workshop.2
  have hnext := PatchFiles.next_keeps (P := Backup.Underway objects m.files done)
    (fun t t' p ht hp hremove ↦
      ht.elsewhere (hown p hp) (FileTree.sets_of_remove? ht.isTree hremove))
    m'.counter hfiles
  rw [nextPatchFiles_eq, h.path]
  generalize (PatchFiles.next m.path m'.counter).run m'.files = r at hnext ⊢
  obtain ⟨hnumber, hfiles⟩ := hnext
  exact ⟨hnumber, h.settings, rfl, h.linker, h.weakSymbols, h.workshop.1, hfiles⟩

/-- Running the linker leaves the object files as far as they are. -/
theorem isBuilding_runTool {i : Invocation}
    (hspares : ∀ t : FileTree, t.IsTree → Backup.Spares objects t (m.workshop.toolchain i t).2) :
    Keeps (m.IsBuilding objects done) (runTool i) := by
  refine Keeps.bind (triple_inWorkshop ?_) fun _ ↦ (isAt_forwardOutput _).bind fun _ ↦ Keeps.pure _
  refine Triple.bind_get fun w hw ↦ Triple.bind (R := fun _ ↦ Workshop.IsWith m.workshop.toolchain
    (Backup.Underway objects m.files done)) (Triple.set fun _ _ ↦ ⟨hw.1, ?_⟩) fun _ ↦ Keeps.lift _
  have hrun := hspares w.files hw.2.isTree
  rw [← hw.1] at hrun
  exact hw.2.congr hrun

/-- Linking leaves the object files as far as they are. -/
theorem isBuilding_link {needed : PathSet} (hspares : m.LinkerSpares needed.toList)
    (hown : ∀ p, PatchFiles.IsOwn m.path p → Backup.IsElsewhere m.files.home needed.toList p)
    (recompiled : PathSet) :
    Triple (m.IsBuilding needed.toList done) (link needed recompiled)
      (fun linked m' ↦ (∃ n, linked.image = (PatchFiles.ofNumber m.path n).image) ∧
        m.IsBuilding needed.toList done m') (m.IsBuilding needed.toList done) := by
  refine Triple.bind_get fun m' h ↦ ?_
  obtain ⟨⟨n, hn⟩, hnext⟩ := isBuilding_nextPatchFiles hown h
  dsimp only
  rw [hn]
  refine Triple.bind (R := fun _ ↦ m.IsBuilding needed.toList done) (Triple.set fun _ _ ↦ hnext)
    fun _ ↦ Triple.bind (Keeps.mapM fun object _ ↦
      triple_inWorkshop (Workshop.keeps_object object)) fun tables ↦ ?_
  rw [hnext.settings, hnext.linker, hnext.weakSymbols]
  exact Triple.bind (isBuilding_runTool fun t ht ↦ hspares tables n _ t ht) fun _ ↦
    Triple.pure fun _ hm' ↦ ⟨⟨n, rfl⟩, hm'⟩

/-- The object files that a patch of what is pending needs. -/
def neededObjects (m : LiveModule) : WorkshopM PathSet := do
  let owners ← Closure.symbolOwners m.compilands m.pending
  Closure.needed m.compilands m.registry owners m.pending

/-- Putting back what was backed up works. -/
theorem triple_restore (hapart : Backup.AreApart m.files.home objects) {stripped : Stripped}
    (hbacked : stripped.backedUp = objects) :
    Triple (m.IsBuilding objects objects) (ExceptT.lift (inWorkshop stripped.restore).run)
      (fun _ ↦ m.IsBuilding objects []) fun _ ↦ False := by
  subst hbacked
  refine (triple_inWorkshop (m := m)
    (Stripped.triple_restoreEach hapart stripped.backedUp)).tried.mono (fun _ h ↦ h) ?_ fun _ h ↦ h
  rintro (_ | _) m' h
  · exact h.workshop.elim
  · exact h

/-- Linking, and putting back what was backed up whatever that came to. -/
theorem triple_assemble {needed : PathSet} (hspares : m.LinkerSpares needed.toList)
    (hapart : Backup.AreApart m.files.home needed.toList)
    (hown : ∀ p, PatchFiles.IsOwn m.path p → Backup.IsElsewhere m.files.home needed.toList p)
    (recompiled : PathSet) {stripped : Stripped} (hbacked : stripped.backedUp = needed.toList) :
    Triple (m.IsBuilding needed.toList needed.toList) (do
        let linked ← ExceptT.lift (link needed recompiled).run
        let restored ← ExceptT.lift (inWorkshop stripped.restore).run
        let linked ← (linked : Outcome Linked)
        restored
        if !linked.output.isSuccess then
          callHooks .compileError
          return .linkError linked.output.exitCode
        install linked.image needed stripped)
      (fun _ ↦ m.IsBuilding needed.toList []) (m.IsBuilding needed.toList []) := by
  have hlink : Triple (m.IsBuilding needed.toList needed.toList)
      (ExceptT.lift (link needed recompiled).run : CycleM (Outcome Linked))
      (fun linked m' ↦ (∀ l, linked = .ok l → ∃ n, l.image = (PatchFiles.ofNumber m.path n).image) ∧
        m.IsBuilding needed.toList needed.toList m') fun _ ↦ False := by
    refine (isBuilding_link hspares hown recompiled).tried.mono (fun _ h ↦ h) ?_ fun _ h ↦ h
    rintro (e | l) m' h
    · exact ⟨fun _ hl ↦ (by cases hl), h⟩
    · exact ⟨fun _ hl ↦ (by cases hl; exact h.1), h.2⟩
  refine Triple.bind (hlink.mono (fun _ h ↦ h) (fun _ _ h ↦ h) fun _ h ↦ h.elim) fun linked ↦
    Triple.of_pre fun m₁ ⟨himage, h₁⟩ ↦ ?_
  refine Triple.bind ((triple_restore hapart hbacked).mono (fun _ h ↦ h ▸ h₁) (fun _ _ h ↦ h)
    fun _ h ↦ h.elim) fun restored ↦ ?_
  refine Triple.bind_lift (fun linked hlinked ↦ (Keeps.lift _).bind fun _ ↦ ?_) fun _ h ↦ h
  obtain ⟨n, hn⟩ := himage linked hlinked
  split
  · exact (isAt_callHooks _).bind fun _ ↦ Keeps.pure _
  · rw [hn]
    exact isBuilding_install (hown _ ⟨n, .inl rfl⟩) (fun pid ↦ hown _ ⟨n, .inr (.inr ⟨pid, rfl⟩)⟩)
      needed stripped

/-- A build has put all object files back when it returns. -/
theorem triple_build {needed : PathSet} (hneeded : (m.neededObjects.run m.workshop).1 = .ok needed)
    (htree : m.files.IsTree) (hapart : Backup.AreApart m.files.home needed.toList)
    (hown : ∀ p, PatchFiles.IsOwn m.path p → Backup.IsElsewhere m.files.home needed.toList p)
    (hspares : m.LinkerSpares needed.toList) :
    Triple (· = m) build (fun _ ↦ m.IsBuilding needed.toList []) (m.IsBuilding needed.toList []) := by
  have hm : m.IsBuilding needed.toList [] m := ⟨rfl, rfl, rfl, rfl, rfl, .start htree⟩
  refine Triple.bind_get fun m' h ↦ ?_
  subst h
  split
  · exact Triple.pure fun _ h ↦ h ▸ hm
  · have howners : Triple (· = m') (inWorkshop (Closure.symbolOwners m'.compilands m'.pending))
        (fun _ ↦ m'.IsBuilding needed.toList []) (m'.IsBuilding needed.toList []) :=
      (triple_inWorkshop (Closure.keeps_symbolOwners _ _ Workshop.keeps_onObjects)).mono (fun _ h ↦ h ▸ hm) (fun _ _ h ↦ h)
        fun _ h ↦ h
    refine howners.with_run.bind fun owners ↦ Triple.of_pre fun m₁ ⟨hrun₁, h₁⟩ ↦ ?_
    have hfollowed : Triple (· = m₁)
        (inWorkshop (Closure.needed m'.compilands m'.registry owners m'.pending))
        (fun _ ↦ m'.IsBuilding needed.toList []) (m'.IsBuilding needed.toList []) :=
      (triple_inWorkshop (Closure.keeps_needed _ _ _ _ Workshop.keeps_object)).mono (fun _ h ↦ h ▸ h₁) (fun _ _ h ↦ h)
        fun _ h ↦ h
    refine hfollowed.with_run.bind fun found ↦ Triple.of_pre fun m₂ ⟨hrun₂, h₂⟩ ↦ ?_
    have hfound : found = needed := by
      have howned := run_eq_of_inWorkshop hrun₁
      have hreached := run_eq_of_inWorkshop hrun₂
      rw [neededObjects, run_bind, howned] at hneeded
      dsimp only at hneeded
      rw [hreached] at hneeded
      exact Except.ok.inj hneeded
    subst hfound
    refine Triple.bind_get fun _ h ↦ ?_
    dsimp only
    refine Triple.bind ((triple_inWorkshop (Stripped.triple_strip hapart hapart.nodup _ _ _ _)).mono
      (fun _ hm ↦ (hm.trans h) ▸ h₂) (fun _ _ h ↦ h) fun _ h ↦ h) fun stripped ↦
      Triple.of_pre fun m₄ h₄ ↦ ?_
    have hbuilt : m'.IsBuilding found.toList found.toList m₄ :=
      ⟨h₄.settings, h₄.path, h₄.linker, h₄.weakSymbols, h₄.workshop.2⟩
    exact (triple_assemble hspares hapart hown m'.pending h₄.workshop.1).mono (fun _ h ↦ h ▸ hbuilt)
      (fun _ _ h ↦ h) fun _ h ↦ h

/-- Whatever a build comes to, every object file that goes into the patch has its contents again
when it returns, and no backup of it is left that was not there before. That holds of object files
none of which lies in the place of another one or of a backup, and of a linker that leaves them and
their backups alone, while patches have other file names. -/
theorem object_files_survive_build {needed : PathSet}
    (hneeded : (m.neededObjects.run m.workshop).1 = .ok needed) (htree : m.files.IsTree)
    (hapart : Backup.AreApart m.files.home needed.toList)
    (hown : ∀ p, PatchFiles.IsOwn m.path p → Backup.IsElsewhere m.files.home needed.toList p)
    (hspares : m.LinkerSpares needed.toList) :
    ∀ o ∈ needed.toList, (build.run m).2.files.read? o = m.files.read? o ∧
      ((build.run m).2.files.read? (Backup.pathOf o) = none ∨
        (build.run m).2.files.read? (Backup.pathOf o) = m.files.read? (Backup.pathOf o)) := by
  have hbuild := (triple_build hneeded htree hapart hown hspares) m rfl
  have hunderway : Backup.Underway needed.toList m.files [] (build.run m).2.files := by
    generalize build.run m = r at hbuild ⊢
    rcases r with ⟨_ | _, m'⟩ <;> exact hbuild.workshop.2
  intro o ho
  exact ⟨hunderway.kept o ho List.not_mem_nil, hunderway.clean o ho List.not_mem_nil⟩

/-! A module in a working directory with a few object files, all of them recompiled, and a linker
that refuses to link. -/

namespace Refused

/-- An object file without sections. -/
def object (stamp : UInt8) : Bytes :=
  #[0x64, 0x86, 0, 0, stamp, 0, 0, 0, 0, 0, 0, 0, 0, 0, 0, 0, 0, 0, 0, 0]

/-- A working directory with object files. -/
def tree (objects : List (Path × Bytes)) : FileTree :=
  objects.foldl (fun t o ↦ t.put (o.1.location ["w"]) (.file o.2 (.written 1))) (.emptyAt ["w"])

/-- How the module was linked. -/
def linker : LinkerRecord := ⟨⟨"link.exe"⟩, ⟨"app.pdb"⟩, "", ⟨""⟩, []⟩

/-- The module. -/
def module (objects : List (Path × Bytes)) : LiveModule where
  settings := .default
  path := ⟨"app.dll"⟩
  linker := linker
  weakSymbols := []
  provider := ⟨fun _ ↦ .ok .empty, fun _ ↦ .ok .empty, fun _ ↦ .ok .empty, fun _ ↦ .ok .empty,
    fun _ ↦ .ok [], fun _ ↦ .ok linker⟩
  workshop := ⟨tree objects, .empty, fun _ t ↦ (.ok ⟨1, ""⟩, t), []⟩
  registry := .empty
  compilands := .empty
  processes := []
  patches := []
  modified := ∅
  pending := PathSet.ofList (objects.map Prod.fst)
  counter := 0

/-- Two object files whose backups get names of their own. -/
def apart : LiveModule := module [(⟨"a.obj"⟩, object 1), (⟨"b.obj"⟩, object 2)]

/-- Two object files of which the second one has the name of the first one's backup. -/
def nested : LiveModule := module [(⟨"a.obj"⟩, object 1), (⟨"a.obj.bak"⟩, object 2)]

theorem linkerSpares (given : List (Path × Bytes)) (objects : List Path) :
    (module given).LinkerSpares objects :=
  fun _ _ _ _ ht ↦ ⟨rfl, ht, fun _ _ ↦ rfl, fun _ _ ↦ rfl⟩

private theorem needed_of_toList (m : LiveModule) (objects : List Path)
    (h : (m.neededObjects.run m.workshop).1.map PathSet.toList = .ok objects) :
    ∃ needed, (m.neededObjects.run m.workshop).1 = .ok needed ∧ needed.toList = objects := by
  generalize (m.neededObjects.run m.workshop).1 = r at h ⊢
  rcases r with _ | needed
  · cases h
  · exact ⟨needed, rfl, Except.ok.inj h⟩

private theorem isNamed_path : Path.IsNamed "app".toList "dll".toList := by
  constructor <;> decide

end Refused

/-- Two object files have their contents again after the linker refused, and no backup is left. -/
theorem refused_object_files_survive_build :
    (build.run Refused.apart).1 = .ok (.linkError 1) ∧
    ∃ needed, (Refused.apart.neededObjects.run Refused.apart.workshop).1 = .ok needed ∧
      needed.toList = [⟨"a.obj"⟩, ⟨"b.obj"⟩] ∧
      ∀ o ∈ needed.toList, (build.run Refused.apart).2.files.read? o = Refused.apart.files.read? o ∧
        ((build.run Refused.apart).2.files.read? (Backup.pathOf o) = none ∨
          (build.run Refused.apart).2.files.read? (Backup.pathOf o)
            = Refused.apart.files.read? (Backup.pathOf o)) := by
  refine ⟨by decide +kernel, ?_⟩
  obtain ⟨needed, hneeded, hobjects⟩ :=
    Refused.needed_of_toList Refused.apart [⟨"a.obj"⟩, ⟨"b.obj"⟩] (by decide +kernel)
  refine ⟨needed, hneeded, hobjects, object_files_survive_build hneeded
    (FileTree.isTree_of_forall (by decide)) ?_ (fun p hp ↦ ?_) (Refused.linkerSpares _ _)⟩
  · rw [hobjects]
    exact ⟨by decide, by decide⟩
  · rw [hobjects]
    obtain ⟨q, rfl | rfl⟩ := PatchFiles.IsOwn.eq_append Refused.isNamed_path hp
    · exact Backup.isElsewhere_append (by decide) (by decide) (by decide) q
    · exact Backup.isElsewhere_append (by decide) (by decide) (by decide) q

/-- Backing up an object file overwrites another one that has the name of its backup, and that one
comes back with other contents, although both name files of their own, all files could be put back
and the linker touched none. -/
theorem object_file_in_place_of_backup_is_lost :
    (build.run Refused.nested).1 = .ok (.linkError 1) ∧
    ∃ needed, (Refused.nested.neededObjects.run Refused.nested.workshop).1 = .ok needed ∧
      (needed.toList.Pairwise fun o o' ↦
        o.location Refused.nested.files.home ≠ o'.location Refused.nested.files.home) ∧
      Refused.nested.LinkerSpares needed.toList ∧
      ∃ o ∈ needed.toList,
        (build.run Refused.nested).2.files.read? o ≠ Refused.nested.files.read? o := by
  refine ⟨by decide +kernel, ?_⟩
  obtain ⟨needed, hneeded, hobjects⟩ :=
    Refused.needed_of_toList Refused.nested [⟨"a.obj"⟩, ⟨"a.obj.bak"⟩] (by decide +kernel)
  refine ⟨needed, hneeded, ?_, Refused.linkerSpares _ _, ?_⟩
  · rw [hobjects]
    decide
  · rw [hobjects]
    exact ⟨⟨"a.obj.bak"⟩, by simp, by decide +kernel⟩

end LiveModule
end LivePatch
