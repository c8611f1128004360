import LivePatch.Proofs.Patch.Planning
import LivePatch.Proofs.Session.Tally

/-!
# How sessions grow

Apart from where images are mapped, an operation that returns leaves the images and the patches of a
session as they were, or adds one image and the record that activating it as the newest image came
to. What holds of a module alone and survives that holds in every session.
-/

namespace LivePatch

/-- An image without the processes that it is mapped in. -/
def RegisteredImage.unplaced (i : RegisteredImage) : RegisteredImage := { i with processes := [] }

namespace Registry

/-- The images without the processes that they are mapped in. -/
def unplaced (r : Registry) : List RegisteredImage := r.images.map RegisteredImage.unplaced

theorem unplaced_modifyAt {f : RegisteredImage → RegisteredImage}
    (hf : ∀ i, (f i).unplaced = i.unplaced) (r : Registry) (token : Token) :
    (r.modifyAt token f).unplaced = r.unplaced := by
  refine List.ext_getElem? fun n ↦ ?_
  simp only [unplaced, modifyAt, List.getElem?_map, List.getElem?_modify]
  cases r.images[n]? with
  | none => rfl
  | some i => by_cases h : token.index = n <;> simp [h, hf]

@[simp] theorem unplaced_register (r : Registry) (token : Token) (pid : UInt32) (base : UInt64) :
    (r.register token pid base).unplaced = r.unplaced := by
  rw [register, unplaced_modifyAt]
  exact fun _ ↦ rfl

@[simp] theorem unplaced_forget (r : Registry) (token : Token) (pid : UInt32) :
    (r.forget token pid).unplaced = r.unplaced := by
  rw [forget, unplaced_modifyAt]
  exact fun _ ↦ rfl

@[simp] theorem unplaced_unregister (r : Registry) (pid : UInt32) :
    (r.unregister pid).unplaced = r.unplaced := by
  simp [unplaced, unregister, RegisteredImage.unplaced, Function.comp_def]

theorem unplaced_foldl_register {α : Type} (r : Registry) (token : Token) (items : List α)
    (pid : α → UInt32) (base : α → UInt64) :
    (items.foldl (fun registry i ↦ registry.register token (pid i) (base i)) r).unplaced
      = r.unplaced := by
  induction items generalizing r with
  | nil => rfl
  | cons i items ih => rw [List.foldl_cons, ih, unplaced_register]

theorem unplaced_insert (r : Registry) (path : Path) (tables : ImageTables) (size : UInt32) :
    (r.insert path tables size).unplaced = r.unplaced ++ [⟨path, tables, size, []⟩] := by
  rw [unplaced, insert, List.map_append]
  rfl

theorem unplaced_discard {r : Registry} {token : Token} (h : token.index ≠ 0)
    (hnewest : token.index + 1 = r.size) : (r.discard token).unplaced = r.unplaced.dropLast := by
  have hd : r.isDiscardable token = true := by
    simp only [isDiscardable, Bool.and_eq_true, bne_iff_ne, beq_iff_eq]
    exact ⟨h, hnewest⟩
  rw [discard, if_pos hd, unplaced, List.map_dropLast]
  rfl

@[simp] theorem length_unplaced (r : Registry) : r.unplaced.length = r.size := List.length_map _

theorem symbols_eq_unplaced (r : Registry) :
    r.symbols = r.unplaced.map fun i ↦ i.tables.symbols := by
  simp [symbols, unplaced, RegisteredImage.unplaced, Function.comp_def]

end Registry

/-- The images of a session, wherever they are mapped, and the patches. -/
structure Chronicle where
  images : List RegisteredImage
  patches : List PatchRecord

namespace Chronicle

/-- The tables of symbols of all images. -/
def symbols (c : Chronicle) : List SymbolTable := c.images.map fun i ↦ i.tables.symbols

/-- A chronicle stays as it is, or an image is added to it that was activated as the newest one,
together with the record of that. -/
inductive Grows (c : Chronicle) : Chronicle → Prop where
  | stays : c.Grows c
  | adds {a : Activation} {objects : List (ObjectTable × List String)}
      {start patch : PatchRecord} {staged staged' : List Staged} {image : RegisteredImage}
      (images : a.view.registry.unplaced = c.images ++ [image])
      (tables : image.tables = a.view.tables)
      (newest : a.view.token.index + 1 = a.view.registry.size)
      (token : start.token = a.view.token)
      (run : (a.run objects start).run staged = (.ok patch, staged')) :
      c.Grows ⟨c.images ++ [image], c.patches ++ [patch]⟩

end Chronicle

namespace LiveModule

/-- The chronicle of a session. -/
def chronicle (m : LiveModule) : Chronicle := ⟨m.registry.unplaced, m.patches⟩

variable {c : Chronicle}

theorem chronicle_ignoresBooks (c : Chronicle) : IgnoresBooks fun m ↦ m.chronicle = c where
  work := fun _ _ hm ↦ hm
  informing := fun _ hm ↦ hm
  books := fun _ _ _ hm ↦ hm

/-- An image was added to a chronicle that is to be activated as the newest one. -/
structure Awaits (c : Chronicle) (token : Token) (tables : ImageTables) (m : LiveModule) : Prop where
  added : ∃ image, image.tables = tables ∧ m.chronicle = ⟨c.images ++ [image], c.patches⟩
  newest : token.index + 1 = m.registry.size
  notModule : c.images ≠ []

variable {token : Token} {tables : ImageTables}

theorem awaits_ignoresBooks (c : Chronicle) (token : Token) (tables : ImageTables) :
    IgnoresBooks (Awaits c token tables) where
  work := fun _ _ hm ↦ ⟨hm.added, hm.newest, hm.notModule⟩
  informing := fun _ hm ↦ ⟨hm.added, hm.newest, hm.notModule⟩
  books := fun _ _ _ hm ↦ ⟨hm.added, hm.newest, hm.notModule⟩

/-- Dropping the added image brings the chronicle back. -/
theorem chronicle_discard : Triple (Awaits c token tables)
    (modify fun m ↦ { m with registry := m.registry.discard token } : CycleM Unit)
    (fun _ m ↦ m.chronicle = c) fun m ↦ m.chronicle = c := by
  refine Triple.modify fun m hm ↦ ?_
  obtain ⟨image, -, hchronicle⟩ := hm.added
  have himages : m.registry.unplaced = c.images ++ [image] := congrArg Chronicle.images hchronicle
  have hpatches : m.patches = c.patches := congrArg Chronicle.patches hchronicle
  have hindex : token.index ≠ 0 := by
    have hnewest := hm.newest
    have hpos := List.length_pos_iff.mpr hm.notModule
    rw [← Registry.length_unplaced, himages, List.length_append, List.length_singleton] at hnewest
    omega
  rw [chronicle, Registry.unplaced_discard hindex hm.newest, himages, List.dropLast_concat, hpatches]

theorem chronicle_unload (bases : List UInt64) : Keeps (fun m ↦ m.chronicle = c) (unload bases) :=
  Keeps.modify fun _ hm ↦ hm

/-- Entering a loaded patch adds its image. -/
theorem awaits_enroll (hc : c.images ≠ []) (path : Path) (p : Prepared) (bases : List UInt64) :
    Triple (fun m ↦ m.chronicle = c) (enroll path p bases)
      (fun token ↦ Awaits c token p.tables) fun m ↦ m.chronicle = c := by
  refine Triple.bind_get fun m hm ↦ ?_
  refine Triple.bind (R := fun _ ↦ Awaits c m.registry.next p.tables) (Triple.set fun _ _ ↦ ?_)
    fun _ ↦ Triple.pure fun _ hs ↦ hs
  subst hm
  refine ⟨⟨⟨path, p.tables, p.size, []⟩, rfl, ?_⟩, ?_, hc⟩
  · rw [chronicle, Registry.unplaced_foldl_register, Registry.unplaced_insert]
    rfl
  · change m.registry.images.length + 1 = _
    rw [Registry.size_foldl_register, Registry.size_insert]
    rfl

/-- A patch that became active adds its record. -/
theorem triple_finish_chronicle (patch : PatchRecord) :
    Triple (fun m ↦ m.chronicle = c) (finish patch)
      (fun _ m ↦ m.chronicle = ⟨c.images, c.patches ++ [patch]⟩) fun _ ↦ False := by
  intro m hm
  subst hm
  unfold finish
  rw [run_bind, run_clearPending]
  exact rfl

/-- Activating an entered patch adds its record, or drops its image. -/
theorem grows_activate (patch : PatchRecord) (p : Prepared) (image : Image) (needed : PathSet)
    (stripped : Stripped) (bases : List UInt64) :
    Returns (Awaits c patch.token p.tables) (activate patch p image needed stripped bases)
      (fun _ m ↦ c.Grows m.chronicle) fun m ↦ m.chronicle = c := by
  have hgiveUp : Returns (Awaits c patch.token p.tables) (do
      unload bases
      modify fun m ↦ { m with registry := m.registry.discard patch.token }
      abandon .activateError) (fun _ m ↦ c.Grows m.chronicle) fun m ↦ m.chronicle = c := by
    have hunload : Triple (Awaits c patch.token p.tables) (unload bases)
        (fun _ ↦ Awaits c patch.token p.tables) fun m ↦ m.chronicle = c :=
      Triple.modify fun _ hm ↦ ⟨hm.added, hm.newest, hm.notModule⟩
    exact (Returns.of_triple (hunload.bind fun _ ↦ chronicle_discard.bind fun _ ↦
      (chronicle_ignoresBooks c).abandon _)).mono (fun _ h ↦ h) (fun _ _ h ↦ h ▸ .stays)
      fun _ h ↦ h
  have hobjects : Triple (Awaits c patch.token p.tables)
      (ExceptT.lift (needed.toList.mapM fun o ↦ inWorkshop (Workshop.object o)).run)
      (fun _ ↦ Awaits c patch.token p.tables) fun m ↦ m.chronicle = c :=
    (Triple.tried (Keeps.mapM fun o _ ↦ (awaits_ignoresBooks c _ _).inWorkshop _)).mono
      (fun _ h ↦ h) (fun r _ h ↦ by cases r <;> exact h) fun _ h ↦ h.elim
  refine Returns.bind (.of_triple hobjects) fun result ↦ ?_
  split
  · exact Returns.fault
  · exact hgiveUp
  · refine Returns.bind_get fun m hm ↦ ?_
    dsimp only
    split
    · next patch' staged hok =>
      obtain ⟨added, htables, hchronicle⟩ := hm.added
      have himages : m.registry.unplaced = c.images ++ [added] := congrArg Chronicle.images hchronicle
      refine .of_triple (Triple.bind
        (R := fun _ m' ↦ m'.chronicle = ⟨c.images ++ [added], c.patches⟩)
        (Triple.set fun _ _ ↦ hchronicle) fun _ ↦ ?_)
      exact (triple_finish_chronicle patch').mono (fun _ h ↦ h)
        (fun _ _ h ↦ h ▸ .adds himages htables hm.newest rfl hok) fun _ h ↦ h.elim
    · exact Returns.fault
    · exact Returns.bind (R := fun _ ↦ Awaits c patch.token p.tables) (.of_triple (Triple.set
        fun _ _ ↦ ⟨hm.added, hm.newest, hm.notModule⟩)) fun _ ↦ hgiveUp

theorem grows_install (hc : c.images ≠ []) (path : Path) (needed : PathSet) (stripped : Stripped) :
    Returns (fun m ↦ m.chronicle = c) (install path needed stripped)
      (fun _ m ↦ c.Grows m.chronicle) fun m ↦ m.chronicle = c := by
  have h := chronicle_ignoresBooks c
  have hgiveUp : ∀ bases outcome, Returns (fun m ↦ m.chronicle = c) (do
      unload bases
      abandon outcome) (fun _ m ↦ c.Grows m.chronicle) fun m ↦ m.chronicle = c :=
    fun bases outcome ↦ (Returns.of_triple ((chronicle_unload bases).bind fun _ ↦
      h.abandon outcome)).mono (fun _ h ↦ h) (fun _ _ h ↦ h ▸ .stays) fun _ h ↦ h
  refine Returns.bind_keeps (h.prepare path) fun p ↦ Returns.bind_get fun m hm ↦ ?_
  refine Returns.bind_lift (fun r _ ↦ ?_) fun _ heq ↦ heq ▸ hm
  refine Returns.bind (R := fun _ m ↦ m.chronicle = c) (.of_triple (Triple.set fun _ _ ↦ hm))
    fun _ ↦ ?_
  split
  · exact hgiveUp _ _
  · refine Returns.bind_keeps (Keeps.lift _) fun isInReach ↦ ?_
    split
    · exact Returns.bind (.of_triple (awaits_enroll hc _ _ _)) fun token ↦
        grows_activate (.bare path token p.size p.entryPoint) p r.image needed stripped r.bases
    · exact hgiveUp _ _

/-- Work that leaves the chronicle alone lets it stay. -/
theorem stays_of_keeps {α : Type} {act : CycleM α} (h : Keeps (fun m ↦ m.chronicle = c) act) :
    Returns (fun m ↦ m.chronicle = c) act (fun _ m ↦ c.Grows m.chronicle)
      fun m ↦ m.chronicle = c :=
  (Returns.of_triple h).mono (fun _ h ↦ h) (fun _ _ h ↦ h ▸ .stays) fun _ h ↦ h

theorem grows_build (hc : c.images ≠ []) :
    Returns (fun m ↦ m.chronicle = c) build (fun _ m ↦ c.Grows m.chronicle)
      fun m ↦ m.chronicle = c := by
  have h := chronicle_ignoresBooks c
  refine Returns.bind_keeps Keeps.get fun m ↦ ?_
  split
  · exact stays_of_keeps (Keeps.pure _)
  · refine Returns.bind_keeps (h.inWorkshop _) fun owners ↦
      Returns.bind_keeps (h.inWorkshop _) fun needed ↦
      Returns.bind_keeps Keeps.get fun _ ↦
      Returns.bind_keeps (h.inWorkshop _) fun stripped ↦
      Returns.bind_keeps (h.link _ _).tried fun linked ↦
      Returns.bind_keeps (h.inWorkshop _).tried fun restored ↦
      Returns.bind_keeps (Keeps.lift _) fun linked ↦ Returns.bind_keeps (Keeps.lift _) fun _ ↦ ?_
    split
    · exact stays_of_keeps ((h.callHooks _).bind fun _ ↦ Keeps.pure _)
    · exact grows_install hc _ _ _

theorem grows_update (hc : c.images ≠ []) :
    Returns (fun m ↦ m.chronicle = c) update (fun _ m ↦ c.Grows m.chronicle)
      fun m ↦ m.chronicle = c := by
  have h := chronicle_ignoresBooks c
  refine Returns.bind_keeps h.detectChanges fun _ ↦ Returns.bind_keeps Keeps.get fun m ↦ ?_
  split
  · exact stays_of_keeps (Keeps.pure _)
  · split
    · refine Returns.bind_keeps (h.callHooks _) fun _ ↦
        Returns.bind_keeps h.compile fun failures ↦ ?_
      split
      · exact stays_of_keeps ((h.callHooks _).bind fun _ ↦ Keeps.pure _)
      · exact Returns.bind_keeps (h.callHooks _) fun _ ↦ grows_build hc
    · exact grows_build hc

theorem grows_updateWithObjects (hc : c.images ≠ []) (objects : List Path) :
    Returns (fun m ↦ m.chronicle = c) (updateWithObjects objects)
      (fun _ m ↦ c.Grows m.chronicle) fun m ↦ m.chronicle = c := by
  refine Returns.bind_keeps (Keeps.forM fun _ _ ↦ (chronicle_ignoresBooks c).accept _) fun _ ↦
    Returns.bind_keeps Keeps.get fun m ↦ ?_
  split
  · exact stays_of_keeps (Keeps.pure _)
  · exact grows_build hc

/-- Installing earlier patches in a process only notes where they are mapped there. -/
theorem chronicle_replayLoaded (patch : PatchRecord) (p : AttachedProcess) (base : UInt64) :
    Keeps (fun m ↦ m.chronicle = c) (replayLoaded patch p base) := by
  have hregistry : ∀ (m : LiveModule) (r : Registry), r.unplaced = m.registry.unplaced →
      m.chronicle = c → ({ m with registry := r } : LiveModule).chronicle = c :=
    fun m r hr hm ↦ (congrArg (fun images ↦ (⟨images, m.patches⟩ : Chronicle)) hr).trans hm
  refine Keeps.bind (Keeps.modify fun m hm ↦ hregistry m _ (Registry.unplaced_register ..) hm)
    fun _ ↦ Triple.bind_get fun m hm ↦ ?_
  split
  · exact Triple.set fun _ _ ↦ hm
  · exact Triple.throw fun _ h ↦ h ▸ hm
  · refine Triple.bind (R := fun _ m ↦ m.chronicle = c) (Triple.modify fun _ h ↦ h ▸ hm) fun _ ↦ ?_
    exact (Keeps.modify fun m hm ↦ hregistry m _ (Registry.unplaced_forget ..) hm).bind fun _ ↦
      Keeps.throw _

theorem chronicle_replay (pid : UInt32) (patch : PatchRecord) :
    Keeps (fun m ↦ m.chronicle = c) (replay pid patch) := by
  refine Triple.bind_get fun m hm ↦ ?_
  have hstop : ∀ s, s = m → s.chronicle = c := fun _ h ↦ h ▸ hm
  dsimp only
  split
  · exact Triple.fail hstop
  · refine Triple.bind_lift (fun image _ ↦ ?_) hstop
    generalize (LoadState.load m.registry.moduleSize patch.path false).run _ = loaded
    obtain ⟨result, s⟩ := loaded
    refine Triple.bind (R := fun _ (m : LiveModule) ↦ m.chronicle = c) (Triple.set fun _ _ ↦ hm) fun _ ↦
      (Keeps.lift _).bind fun found ↦ ?_
    cases found with
    | none => exact Keeps.fail _
    | some base =>
      refine (Keeps.lift _).bind fun isInReach ↦ ?_
      split
      · exact chronicle_replayLoaded patch _ base
      · have hunload : Keeps (fun m ↦ m.chronicle = c) (unloadFrom s.process base) :=
          Keeps.modify fun _ hm ↦ hm
        exact hunload.bind fun _ ↦ Keeps.fail _

theorem chronicle_installPatches (pid : UInt32) :
    Keeps (fun m ↦ m.chronicle = c) (installPatches pid) := by
  refine Keeps.get.bind fun m ↦ ?_
  split
  · exact Keeps.pure _
  · split
    · exact Keeps.fail _
    · exact Keeps.forM fun patch _ ↦ chronicle_replay pid patch

theorem chronicle_attach (p : AttachedProcess) : Keeps (fun m ↦ m.chronicle = c) (attach p) := by
  refine keeps_attach fun m hm _ ↦ ?_
  rw [chronicle, Registry.unplaced_register]
  exact hm

/-- An operation that returns lets the chronicle grow. -/
theorem IsOperation.grows {m m' : LiveModule} (hm : m.registry.size ≠ 0) {α : Type}
    {act : CycleM α} (hact : IsOperation act) {r : Outcome α} (hrun : act.run m = (r, m'))
    (hreturns : r ≠ .error .fault) : m.chronicle.Grows m'.chronicle := by
  have hc : m.chronicle.images ≠ [] := by
    rw [← List.length_pos_iff, show m.chronicle.images.length = m.registry.size from
      Registry.length_unplaced _]
    omega
  have hgrows : Returns (fun s ↦ s.chronicle = m.chronicle) act
      (fun _ s ↦ m.chronicle.Grows s.chronicle) fun s ↦ s.chronicle = m.chronicle := by
    cases hact with
    | attach p => exact stays_of_keeps (chronicle_attach p)
    | update => exact grows_update hc
    | updateWithObjects objects => exact grows_updateWithObjects hc objects
    | installPatches pid => exact stays_of_keeps (chronicle_installPatches pid)
  have := hgrows m rfl
  rw [hrun] at this
  rcases r with (e | _) | a
  · exact (show m'.chronicle = m.chronicle from this) ▸ .stays
  · exact (hreturns rfl).elim
  · exact this

/-- What holds of a module alone and stays when a patch is added holds in every session. -/
theorem Arises.chronicle_induction {P : Chronicle → Prop} (hload : ∀ image, P ⟨[image], []⟩)
    (hgrows : ∀ c c' : Chronicle, P c → c.Grows c' → P c') {m : LiveModule} (h : m.Arises) :
    P m.chronicle := by
  induction h with
  | @load m path settings provider workshop h =>
    obtain ⟨tables, linker, image, size, weakSymbols, -, -, -, -, -, rfl⟩ := load_eq_ok_iff.mp h
    exact hload ⟨path, tables, size, []⟩
  | operation hm hact hrun hreturns ih =>
    have hsize := hm.isInStep.size
    exact hgrows _ _ ih (hact.grows (by omega) hrun hreturns)
  | @detach m _ pid ih =>
    have hstays : (m.detach pid).chronicle = m.chronicle :=
      congrArg (fun images ↦ (⟨images, m.patches⟩ : Chronicle)) (Registry.unplaced_unregister ..)
    exact hstays ▸ ih
  | surroundings _ hregistry hpatches _ ih =>
    rw [chronicle, hregistry, hpatches]
    exact ih

end LiveModule
end LivePatch
