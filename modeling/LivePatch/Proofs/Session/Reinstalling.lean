import LivePatch.Proofs.Session.Discipline

/-!
# Installing patches again

Installing the earlier patches in a process loads each patch that it comes to wherever there is
room, whether the registry has the patch in that process or not. What the registry has there when an
install comes to a patch is what it had when the install started. So a process that was just
attached runs the entry point of each patch once, and a process that has some of the patches already
runs theirs again.
-/

namespace LivePatch

/-- Where an image is mapped does not depend on what is noted of another one. -/
theorem Registry.mapping?_modifyAt {r : Registry} {token other : Token} (hne : token ≠ other)
    (f : RegisteredImage → RegisteredImage) (pid : UInt32) :
    (r.modifyAt token f).mapping? pid other = r.mapping? pid other := by
  have hindex : token.index ≠ other.index := by
    rintro h
    cases token
    cases other
    exact hne (congrArg Token.mk h)
  unfold mapping? baseOf? bases get? modifyAt
  simp only [List.getElem?_map, List.getElem?_modify, if_neg hindex, id_map']

/-- Noting where an image is mapped keeps the size of the module. -/
theorem Registry.moduleSize_register (r : Registry) (token : Token) (pid : UInt32) (base : UInt64) :
    (r.register token pid base).moduleSize = r.moduleSize := by
  unfold moduleSize get? register modifyAt
  rw [List.getElem?_modify]
  cases r.images[Token.module.index]? with
  | none => rfl
  | some i => split <;> rfl

/-- An image is mapped in no process that none of the images is noted for. -/
theorem Registry.mapping?_eq_none {r : Registry} {pid : UInt32}
    (h : ∀ i ∈ r.images, ∀ placed ∈ i.processes, placed.pid ≠ pid) (token : Token) :
    r.mapping? pid token = none := by
  have hbase : baseOf? (r.bases pid) token = none := by
    unfold baseOf? bases
    rw [List.getElem?_map]
    cases himage : r.images[token.index]? with
    | none => rfl
    | some i =>
      have hnone : i.processes.find? (fun p ↦ p.pid == pid) = none :=
        List.find?_eq_none.mpr fun placed hplaced ↦ by
          simpa using h i (List.mem_of_getElem? himage) placed hplaced
      simp [hnone]
  rw [mapping?, hbase]
  rfl

/-! ### What a process is asked for -/

namespace Standing

/-- How often the entry point of a patch may still be called. -/
def callsLeft : Standing → Nat
  | .outside | .loaded _ | .held _ false => 1
  | _ => 0

/-- A call of the entry point takes one of the calls that are left, and nothing brings one back. -/
theorem Step.callsLeft_le {w w' : Standing} {e : Exchange} (hstep : Step w e w') :
    w'.callsLeft + (if e.command.name == .callEntryPoint then 1 else 0) ≤ w.callsLeft := by
  cases hstep with
  | leaves _ called _ => cases called <;> simp [callsLeft, Command.name]
  | unloads h _ => rcases h with rfl | rfl <;> simp [callsLeft, Command.name]
  | _ => simp [callsLeft, Command.name]

theorem Leads.countP_calls_le {w w' : Standing} {h : List Exchange} (hleads : Leads w h w') :
    (h.map Exchange.command).countP (fun c ↦ c.name == .callEntryPoint) ≤ w.callsLeft := by
  induction hleads with
  | nil => exact Nat.zero_le _
  | cons hstep _ ih =>
    have hleft := hstep.callsLeft_le
    rw [List.map_cons, List.countP_cons]
    omega

end Standing

namespace LoadState

variable (moduleSize : UInt32) (path : Path) (inPlace : Bool)

/-- What comes before a process is asked to load a patch: room is looked for, and the file is made
that is to be loaded there. -/
def place : LoadM (Option Path) := do
  let size ← (← get).image.size
  match ← findRoom moduleSize size with
  | none => pure none
  | some base =>
    let file ← placeAt path inPlace base
    pure (some file)

/-- Asks the process to load the file that was made, if there was room. -/
def loadPlaced : Option Path → LoadM (Option UInt64)
  | none => pure none
  | some file => do onProcess (AttachedProcess.loadPatch (← get).files file)

theorem load_eq : load moduleSize path inPlace = place moduleSize path inPlace >>= loadPlaced := by
  unfold load place
  simp only [bind_assoc]
  refine bind_congr fun s ↦ bind_congr fun size ↦ bind_congr fun room ↦ ?_
  cases room with
  | none => simp [loadPlaced]
  | some base => simp [loadPlaced]

variable {p : AttachedProcess}

/-- Nothing is asked of a process while room is looked for. -/
theorem stands_place :
    Keeps (fun s ↦ p.Stands .outside s.process) (place moduleSize path inPlace) := by
  refine Keeps.get.bind fun s ↦ (Keeps.lift _).bind fun size ↦ Keeps.bind (Keeps.get.bind fun _ ↦
    triple_onProcess ((p.stands_ofDialog _).onTarget _)) fun room ↦ ?_
  cases room with
  | none => exact Keeps.pure _
  | some base => exact (keeps_placeAt path inPlace base).bind fun _ ↦ Keeps.pure _

/-- A process is asked to load a patch exactly when the patch found its place. -/
theorem stands_load_iff {s : LoadState} (hs : p.Stands .outside s.process) :
    ∃ w, p.Stands w ((load moduleSize path inPlace).run s).2.process ∧
      (w ≠ .outside ↔ ∃ file, ((place moduleSize path inPlace).run s).1 = .ok (some file)) ∧
      ∀ base, ((load moduleSize path inPlace).run s).1 = .ok (some base) → w = .loaded base := by
  have hplaced := (stands_place moduleSize path inPlace).run hs
  rw [load_eq, run_bind]
  rcases hrun : (place moduleSize path inPlace).run s with ⟨_ | _ | file, t⟩ <;>
    rw [hrun] at hplaced
  · exact ⟨.outside, hplaced, by simp, nofun⟩
  · exact ⟨.outside, hplaced, by simp, nofun⟩
  · have hload := AttachedProcess.stands_loadPatch t.files file t.process hplaced
    dsimp only
    rw [loadPlaced, run_bind, run_get]
    dsimp only
    rw [run_onProcess]
    generalize (AttachedProcess.loadPatch t.files file).run t.process = r at hload ⊢
    rcases r with ⟨_ | _ | base, q⟩
    · exact ⟨.turnedAway, hload, by simp, nofun⟩
    · exact ⟨.turnedAway, hload, by simp, nofun⟩
    · exact ⟨.loaded base, hload, by simp, fun _ h ↦ by cases h; rfl⟩

end LoadState

namespace PatchRecord

variable (patch : PatchRecord) (files : FileTree) (registry : Registry)

theorem is_replay {pid : UInt32} : Keeps (Staged.Is pid) (patch.replay files registry) := by
  have hhooks : ∀ hooks, Keeps (AttachedProcess.Is pid) (callHooks files registry hooks) :=
    keeps_callHooks_of fun r base ↦ r.is_callIn files base
  have hfunctions : Keeps (Staged.Is pid) (patch.redirectFunctions registry) :=
    (Staged.is_onTarget Target.is_ignoresThreads.suspend).bind fun _ ↦ Keeps.ensuring
      ((Staged.is_onTarget Target.is_ignoresThreads.threadIps).bind fun _ ↦
        PatchSteps.is_redirectFunctions _ _ _ _) (Staged.is_onTarget Target.is_ignoresThreads.resume)
  exact (Staged.is_hold _).bind fun _ ↦ (Staged.is_onProcess (hhooks _)).bind fun _ ↦
    (Staged.is_onProcess ((Target.is_allowsPatch _ _).redirectReferences _)).bind fun _ ↦
    (Staged.is_onProcess ((Target.is_allowsPatch _ _).prepareEntry rfl)).bind fun _ ↦
    (Staged.is_onProcess ((Target.is_allowsEntry _ _).callEntryPoint rfl _)).bind fun _ ↦
    (Staged.is_onProcess ((Target.is_allowsPatch _ _).redirectReferences _)).bind fun _ ↦
    hfunctions.bind fun _ ↦ (Staged.is_onProcess (hhooks _)).bind fun _ ↦ Staged.is_letGo _

/-- The edits of a patch are made again between entering a sync point and leaving it, and its entry
point is called once at most. -/
theorem stands_replay (h : Host) : Triple h.IsLoaded (patch.replay files registry)
    (fun _ ↦ h.IsLeft) h.IsRevertible := by
  have hhooks : ∀ {inv : Staged → Prop}, Staged.OfDialog inv → ∀ hooks,
      Keeps inv (Staged.onProcess (callHooks files registry hooks)) := by
    intro inv hinv hooks
    exact hinv.onProcess fun p ↦ keeps_callHooks_of (fun r base ↦
      p.isOnlyInformed_ofDialog.callIn r files base) hooks
  have hreferences : ∀ {inv : Staged → Prop}, Staged.OfDialog inv → ∀ token records,
      Keeps inv (Staged.onProcess (PatchSteps.redirectReferences registry token records)) :=
    fun hinv _ _ ↦ hinv.onProcess fun p ↦ p.isOnlyInformed_ofDialog.redirectReferences _ _ _
  have hfunctions : Keeps h.IsHeld (patch.redirectFunctions registry) :=
    (h.isHeld_ofDialog.onTarget _).bind fun _ ↦ Keeps.ensuring
      ((h.isHeld_ofDialog.onTarget _).bind fun _ ↦
        h.isHeld_ofDialog.redirectFunctions _ _ _ _) (h.isHeld_ofDialog.onTarget _)
  have hbefore : ∀ {α : Type} {act : StagedM α}, Keeps h.IsEntered act →
      Triple h.IsEntered act (fun _ ↦ h.IsEntered) h.IsRevertible :=
    fun hact ↦ hact.mono (fun _ hs ↦ hs) (fun _ _ hs ↦ hs) fun _ hs ↦ .inl (.inl hs)
  have hbehind : ∀ {α : Type} {act : StagedM α}, Keeps h.IsHeld act →
      Triple h.IsHeld act (fun _ ↦ h.IsHeld) h.IsRevertible :=
    fun hact ↦ hact.mono (fun _ hs ↦ hs) (fun _ _ hs ↦ hs) fun _ hs ↦ .inr (.inl hs)
  have hcall : Triple h.IsEntered
      (Staged.onProcess (PatchSteps.callEntryPoint files registry patch)) (fun _ ↦ h.IsHeld)
      h.IsRevertible :=
    (Host.triple_onProcess true (AttachedProcess.stands_callEntryPoint files registry patch)).mono
      (fun _ hs ↦ hs) (fun _ _ hs ↦ hs) fun _ hs ↦ .inr (.inl hs)
  exact ((h.triple_hold files).mono (fun _ hs ↦ hs) (fun _ _ hs ↦ hs) fun _ hs ↦ .inl hs).bind
    fun _ ↦ (hbefore (hhooks h.isEntered_ofDialog _)).bind
    fun _ ↦ (hbefore (hreferences h.isEntered_ofDialog _ _)).bind
    fun _ ↦ (hbefore (h.isEntered_ofDialog.onProcess fun p ↦
      p.isOnlyInformed_ofDialog.prepareEntry _ _)).bind
    fun _ ↦ hcall.bind
    fun _ ↦ (hbehind (hreferences h.isHeld_ofDialog _ _)).bind
    fun _ ↦ (hbehind hfunctions).bind
    fun _ ↦ (hbehind (hhooks h.isHeld_ofDialog _)).bind fun _ ↦ h.triple_letGo files

end PatchRecord

namespace LiveModule

variable {m m' m₁ : LiveModule} {pid : UInt32} {patch : PatchRecord} {p q : AttachedProcess}

/-- The process of an identifier has a property. -/
def HasAt (pid : UInt32) (P : AttachedProcess → Prop) (m : LiveModule) : Prop :=
  ∃ q, m.process? pid = some q ∧ P q

theorem pid_of_process? (hp : m.process? pid = some p) : p.pid = pid := by
  simpa using List.find?_some hp

/-- Putting a process back leaves every process under its identifier. -/
theorem process?_putProcess_eq_map (m : LiveModule) (q : AttachedProcess) (pid : UInt32) :
    (m.putProcess q).process? pid =
      (m.process? pid).map fun r ↦ if r.pid = q.pid then q else r := by
  have hsame : (fun r : AttachedProcess ↦ r.pid == pid) ∘ (fun r ↦ if r.pid = q.pid then q else r)
      = fun r ↦ r.pid == pid := by
    funext r
    rw [Function.comp_apply]
    split
    · next h => rw [h]
    · rfl
  unfold process? putProcess
  rw [List.find?_map, hsame]

/-- A process takes the place of the one with its identifier. -/
theorem process?_putProcess (hp : m.process? pid = some p) (hq : q.pid = pid) :
    (m.putProcess q).process? pid = some q := by
  rw [process?_putProcess_eq_map, hp, Option.map_some, if_pos ((pid_of_process? hp).trans hq.symm)]

theorem HasAt.putProcess {P Q : AttachedProcess → Prop} (h : HasAt pid P m) (hpid : q.pid = pid)
    (hq : Q q) : HasAt pid Q (m.putProcess q) := by
  obtain ⟨p, hp, -⟩ := h
  exact ⟨q, process?_putProcess hp hpid, hq⟩

/-- The process was asked for something since it was another one. -/
def IsAsked (p q : AttachedProcess) : Prop := ∃ w, p.Stands w q ∧ w ≠ .outside

theorem isAsked_unload {w w' : Standing} {base : UInt64} (hq : p.Stands w q) (files : FileTree)
    (hstep : ∀ reply, w.Step ⟨.unloadPatch base, reply⟩ w') (hw' : w' ≠ .outside) :
    IsAsked p ((AttachedProcess.tell files (.unloadPatch base)).run q).2 :=
  ⟨w', hq.unload files hstep, hw'⟩

theorem isAsked_unloadFrom {w w' : Standing} {base : UInt64} (hpid : q.pid = pid)
    (hq : p.Stands w q) (hstep : ∀ reply, w.Step ⟨.unloadPatch base, reply⟩ w')
    (hw' : w' ≠ .outside) :
    Triple (HasAt pid (IsAsked p)) (unloadFrom q base) (fun _ ↦ HasAt pid (IsAsked p))
      (HasAt pid (IsAsked p)) :=
  Triple.modify fun m hm ↦ hm.putProcess ((AttachedProcess.is_tell m.files _).run (s := q) hpid)
    (isAsked_unload hq m.files hstep hw')

/-- A process that a patch was loaded into stays one that was asked for something. -/
theorem isAsked_replayLoaded {base : UInt64} (hpid : q.pid = pid)
    (hstands : p.Stands (.loaded base) q) :
    Keeps (HasAt pid (IsAsked p)) (replayLoaded patch q base) := by
  refine Keeps.bind (Keeps.modify fun _ hm ↦ hm) fun _ ↦ Triple.bind_get fun m hm ↦ ?_
  have hloaded : Host.IsLoaded ⟨p, base⟩ (Staged.ofProcess q) := ⟨rfl, hstands⟩
  have hreplay := patch.stands_replay m.files m.registry ⟨p, base⟩ _ hloaded
  have his := (patch.is_replay m.files m.registry).run (s := Staged.ofProcess q) hpid
  generalize (patch.replay m.files m.registry).run (Staged.ofProcess q) = r at hreplay his
  rcases r with ⟨(e | _) | ⟨⟩, s⟩
  · have hrevert : (s.revert m.files).pid = pid := Staged.is_revert m.files his
    have hunload : Triple (HasAt pid (IsAsked p)) (unloadFrom (s.revert m.files) base)
        (fun _ ↦ HasAt pid (IsAsked p)) (HasAt pid (IsAsked p)) := by
      rcases hreplay.stands_revert m.files with hq | hq | hq
      · exact isAsked_unloadFrom hrevert hq (.withdraws base) nofun
      · exact isAsked_unloadFrom hrevert hq (.unloads (.inl rfl)) nofun
      · exact isAsked_unloadFrom hrevert hq (.unloads (.inr rfl)) nofun
    have hstart : ∀ s, s = m → HasAt pid (IsAsked p) s := fun _ h ↦ h ▸ hm
    exact (hunload.mono hstart (fun _ _ h ↦ h) fun _ h ↦ h).bind fun _ ↦
      Keeps.bind (Keeps.modify fun _ hm ↦ hm) fun _ ↦ Keeps.throw _
  · exact Triple.throw fun _ h ↦ h ▸ hm
  · exact Triple.set fun _ _ ↦ hm.putProcess his ⟨_, hreplay.2, nofun⟩

/-- The file of a patch can be read, and room for it is found near the module of a process. -/
def FindsPlace (m : LiveModule) (pid : UInt32) (patch : PatchRecord) : Prop :=
  ∃ p image file, m.process? pid = some p ∧ Image.load m.files patch.path = .ok image ∧
    ((LoadState.place m.registry.moduleSize patch.path false).run ⟨m.files, image, p⟩).1
      = .ok (some file)

theorem findsPlace_iff {image : Image} (hp : m.process? pid = some p)
    (himage : Image.load m.files patch.path = .ok image) :
    m.FindsPlace pid patch ↔ ∃ file, ((LoadState.place m.registry.moduleSize patch.path false).run
      ⟨m.files, image, p⟩).1 = .ok (some file) := by
  constructor
  · rintro ⟨p', image', file, hp', himage', hfile⟩
    cases hp.symm.trans hp'
    cases himage.symm.trans himage'
    exact ⟨file, hfile⟩
  · rintro ⟨file, hfile⟩
    exact ⟨p, image, file, hp, himage, hfile⟩

/-- The process of an identifier was asked for something if and only if something is the case. -/
def IsAskedIff (p : AttachedProcess) (pid : UInt32) (placed : Prop) (m : LiveModule) : Prop :=
  ∃ w, (w ≠ .outside ↔ placed) ∧ HasAt pid (p.Stands w) m

theorem HasAt.isAskedIff {placed : Prop} (h : HasAt pid (IsAsked p) m) (hplaced : placed) :
    m.IsAskedIff p pid placed := by
  obtain ⟨q, hq, w, hstands, hw⟩ := h
  exact ⟨w, iff_of_true hw hplaced, q, hq, hstands⟩

/-- Installing a patch in a process asks it for something exactly when the patch finds its place. -/
theorem isAskedIff_replay (patch : PatchRecord) (hp : m.process? pid = some p) :
    ((replay pid patch).run m).2.IsAskedIff p pid (m.FindsPlace pid patch) := by
  have hpid := pid_of_process? hp
  have hends : Triple (· = m) (replay pid patch)
      (fun _ s ↦ s.IsAskedIff p pid (m.FindsPlace pid patch))
      fun s ↦ s.IsAskedIff p pid (m.FindsPlace pid patch) := by
    refine Triple.bind_get fun s heq ↦ ?_
    subst heq
    dsimp only
    rw [hp]
    dsimp only
    cases himage : Image.load s.files patch.path with
    | error stop =>
      have hnowhere : ¬ s.FindsPlace pid patch := by
        rintro ⟨_, image, _, -, himage', -⟩
        cases himage.symm.trans himage'
      refine Triple.bind_lift (fun _ h ↦ by cases h) fun _ h ↦ ?_
      exact ⟨.outside, by simp [hnowhere], p, h ▸ hp, p.stands_outside⟩
    | ok image =>
      refine Triple.bind_ok rfl ?_
      obtain ⟨w, hstands, hplaced, hbase⟩ :=
        LoadState.stands_load_iff s.registry.moduleSize patch.path false
          (s := ⟨s.files, image, p⟩) p.stands_outside
      have hfinds : w ≠ .outside ↔ s.FindsPlace pid patch :=
        hplaced.trans (findsPlace_iff hp himage).symm
      have hsame := (LoadState.is_load s.registry.moduleSize patch.path false).run
        (s := ⟨s.files, image, p⟩) hpid
      generalize (LoadState.load s.registry.moduleSize patch.path false).run
        ⟨s.files, image, p⟩ = loaded at hstands hbase hsame
      obtain ⟨result, t⟩ := loaded
      dsimp only at hstands hbase hsame ⊢
      refine Triple.bind (R := fun _ ↦ HasAt pid (p.Stands w)) (Triple.set fun _ _ ↦
        ⟨_, process?_putProcess (m := { s with workshop := _ }) hp hsame, hstands⟩) fun _ ↦
        Triple.bind_lift (fun found hfound ↦ ?_) fun _ hm ↦ ⟨w, hfinds, hm⟩
      cases found with
      | none => exact Triple.fail fun _ hm ↦ ⟨w, hfinds, hm⟩
      | some base =>
        cases hbase base hfound
        have hplace := hfinds.mp nofun
        have hasked : ∀ m', HasAt pid (p.Stands (.loaded base)) m' → HasAt pid (IsAsked p) m' :=
          fun _ ⟨q, hq, hstands⟩ ↦ ⟨q, hq, _, hstands, nofun⟩
        refine Triple.bind_lift (fun isInReach _ ↦ ?_) fun m' hm ↦ (hasked m' hm).isAskedIff hplace
        split
        · exact (isAsked_replayLoaded hsame hstands).mono hasked
            (fun _ _ h ↦ h.isAskedIff hplace) fun _ h ↦ h.isAskedIff hplace
        · exact ((isAsked_unloadFrom hsame hstands (.withdraws base) nofun).mono hasked
            (fun _ _ h ↦ h) fun _ h ↦ h.isAskedIff hplace).bind fun _ ↦
              Triple.fail fun _ h ↦ h.isAskedIff hplace
  have hrun := hends m rfl
  generalize (replay pid patch).run m = r at hrun
  rcases r with ⟨_ | _, m'⟩ <;> exact hrun

/-! ### What an install comes to -/

/-- The registry has a patch in a process. -/
def HasPatch (m : LiveModule) (pid : UInt32) (patch : PatchRecord) : Prop :=
  (m.registry.mapping? pid patch.token).isSome = true

/-- An install of the patches in a process comes to a patch: it installed those before. -/
def ComesTo (m : LiveModule) (pid : UInt32) (patch : PatchRecord) (m₁ : LiveModule) : Prop :=
  m.settings.installsLater = true ∧ (m.process? pid).isSome = true ∧
    ∃ before rest, m.patches = before ++ patch :: rest ∧
      (before.forM (replay pid)).run m = (.ok (), m₁)

/-- Installing a patch in a process neither loads it there nor calls its entry point. -/
def LeavesAlone (m : LiveModule) (pid : UInt32) (patch : PatchRecord) : Prop :=
  ∀ p q, m.process? pid = some p → ((replay pid patch).run m).2.process? pid = some q →
    ∀ c ∈ p.requestsTo q,
      (∀ file, c ≠ .loadPatch file) ∧ ∀ base entry, c ≠ .callEntryPoint base entry

/-- A process that was asked for something was asked to load a patch first. -/
theorem eq_loadPatch_of_leads {w : Standing} {h : List Exchange}
    (hleads : Standing.Leads .outside h w) (hw : w ≠ .outside) :
    ∃ file reply rest, h = ⟨.loadPatch file, reply⟩ :: rest := by
  cases hleads with
  | nil => exact (hw rfl).elim
  | cons hstep _ =>
    cases hstep with
    | loads file base => exact ⟨file, _, _, rfl⟩
    | fails file _ => exact ⟨file, _, _, rfl⟩
    | unloads h _ => rcases h with h | h <;> cases h

/-- A patch that finds its place is loaded, whatever the registry has. -/
theorem leavesAlone_iff : m.LeavesAlone pid patch ↔ ¬ m.FindsPlace pid patch := by
  cases hp : m.process? pid with
  | none =>
    refine iff_of_true (fun _ _ hp' ↦ ?_) fun ⟨_, _, _, hp', _⟩ ↦ ?_
    · cases hp.symm.trans hp'
    · cases hp.symm.trans hp'
  | some p =>
    obtain ⟨w, hw, q, hq, h, hhistory, hleads⟩ := isAskedIff_replay patch hp
    have hrequests := hhistory.requests
    rw [← hw, not_ne_iff]
    constructor
    · intro hleaves
      by_contra hne
      obtain ⟨file, reply, rest, rfl⟩ := eq_loadPatch_of_leads hleads hne
      exact (hleaves p q hp hq (.loadPatch file) (hrequests ▸ .head _)).1 file rfl
    · rintro rfl p' q' hp' hq' c hc
      cases hp.symm.trans hp'
      cases hq.symm.trans hq'
      rw [hrequests, Standing.eq_nil_of_outside hleads] at hc
      cases hc

/-- Where the registry has an image in a process. -/
def Maps (pid : UInt32) (token : Token) (found : Option Mapping) (m : LiveModule) : Prop :=
  m.registry.mapping? pid token = found

/-- What the registry has of other patches is not touched. -/
theorem maps_replay {token : Token} (hne : patch.token ≠ token) (found : Option Mapping) :
    Keeps (Maps pid token found) (replay pid patch) := by
  have hmodify : ∀ {m : LiveModule} f, m.Maps pid token found →
      Maps pid token found { m with registry := m.registry.modifyAt patch.token f } :=
    fun f hm ↦ (Registry.mapping?_modifyAt hne f pid).trans hm
  have hunload : ∀ q base, Keeps (Maps pid token found) (unloadFrom q base) :=
    fun _ _ ↦ Keeps.modify fun _ hm ↦ hm
  have hloaded : ∀ q base, Keeps (Maps pid token found) (replayLoaded patch q base) := by
    intro q base
    refine Keeps.bind (Keeps.modify fun _ hm ↦ hmodify _ hm) fun _ ↦ Triple.bind_get fun m hm ↦ ?_
    split
    · exact Triple.set fun _ _ ↦ hm
    · exact Triple.throw fun _ h ↦ h ▸ hm
    · refine Triple.bind (R := fun _ ↦ Maps pid token found)
        (fun s hs ↦ hunload _ _ s (hs ▸ hm)) fun _ ↦ ?_
      exact Keeps.bind (Keeps.modify fun _ hm ↦ hmodify _ hm) fun _ ↦ Keeps.throw _
  refine Triple.bind_get fun m hm ↦ ?_
  have hstop : ∀ s, s = m → s.Maps pid token found := fun _ h ↦ h ▸ hm
  dsimp only
  split
  · exact Triple.fail hstop
  · refine Triple.bind_lift (fun image _ ↦ ?_) hstop
    generalize (LoadState.load m.registry.moduleSize patch.path false).run _ = loaded
    obtain ⟨result, t⟩ := loaded
    refine Triple.bind (R := fun _ ↦ Maps pid token found) (Triple.set fun _ _ ↦ hm) fun _ ↦
      (Keeps.lift _).bind fun base ↦ ?_
    cases base with
    | none => exact Keeps.fail _
    | some base =>
      refine (Keeps.lift _).bind fun isInReach ↦ ?_
      split
      · exact hloaded _ _
      · exact (hunload _ _).bind fun _ ↦ Keeps.fail _

/-- When an install comes to a patch, the registry has of it what it had at the start. -/
theorem ComesTo.hasPatch_iff (h : m.IsInStep) (hcomes : m.ComesTo pid patch m₁) :
    m₁.HasPatch pid patch ↔ m.HasPatch pid patch := by
  obtain ⟨-, -, before, rest, hpatches, hrun⟩ := hcomes
  have hne : ∀ other ∈ before, other.token ≠ patch.token := by
    intro other hother
    obtain ⟨i, hi⟩ := List.mem_iff_getElem?.mp hother
    have hlt := (List.getElem?_eq_some_iff.mp hi).1
    have hfirst := h.tokens i other (by rw [hpatches, List.getElem?_append_left hlt, hi])
    have hlast := h.tokens before.length patch (by
      rw [hpatches, List.getElem?_append_right (Nat.le_refl _), Nat.sub_self]
      rfl)
    rw [hfirst, hlast]
    intro heq
    have hindex : i + 1 = before.length + 1 := congrArg Token.index heq
    omega
  have hkeeps : Keeps (Maps pid patch.token (m.registry.mapping? pid patch.token))
      (before.forM (replay pid)) :=
    Keeps.forM fun other hother ↦ maps_replay (hne other hother) _
  have hsame : m₁.registry.mapping? pid patch.token = m.registry.mapping? pid patch.token :=
    hkeeps.run_eq rfl hrun
  rw [HasPatch, hsame, HasPatch]

theorem ComesTo.exists_process (hcomes : m.ComesTo pid patch m₁) :
    ∃ p, m₁.process? pid = some p := by
  obtain ⟨-, hattached, before, rest, -, hrun⟩ := hcomes
  have hkeeps : Keeps (fun m' : LiveModule ↦ (m'.process? pid).isSome = true)
      (before.forM (replay pid)) := by
    refine Keeps.forM fun other _ ↦ Keeps.of_run fun m' hm' ↦ ?_
    obtain ⟨p, hp⟩ := Option.isSome_iff_exists.mp hm'
    obtain ⟨w, -, q, hq, -⟩ := isAskedIff_replay other hp
    exact Option.isSome_iff_exists.mpr ⟨q, hq⟩
  exact Option.isSome_iff_exists.mp (hkeeps.run_eq hattached hrun)

/-- A process that was just attached has none of the patches. -/
theorem not_hasPatch_of_attach (h : m.IsInStep) (hrun : (attach p).run m = (.ok (), m'))
    (hpatch : patch ∈ m'.patches) : ¬ m'.HasPatch p.pid patch := by
  obtain ⟨hnew, rfl⟩ := eq_of_attach hrun
  obtain ⟨i, hi⟩ := List.mem_iff_getElem?.mp hpatch
  have htoken := h.tokens i patch hi
  have hmodule : Token.module ≠ patch.token := by
    rw [htoken]
    intro heq
    exact Nat.succ_ne_zero i (congrArg Token.index heq).symm
  have hregister : (m.registry.register .module p.pid p.moduleBase).mapping? p.pid patch.token
      = m.registry.mapping? p.pid patch.token := Registry.mapping?_modifyAt hmodule _ p.pid
  have hnone : m.registry.mapping? p.pid patch.token = none := by
    refine Registry.mapping?_eq_none (fun i hi placed hplaced heq ↦ ?_) _
    obtain ⟨q, hq, hpid⟩ := h.attached i hi placed hplaced
    exact hnew q hq (hpid.trans heq)
  rw [HasPatch, hregister, hnone]
  exact Bool.false_ne_true

/-- In every session, a process that was just attached has none of the patches. Each patch that an
install comes to has its entry point called once at most, and the registry has of it what it had
when the install started. So an install leaves alone what the process has if and only if none of the
patches that it comes to was there at the start and finds its place: one that does is loaded and run
again. -/
theorem installed_patches_are_left_alone_iff {m : LiveModule} (h : m.Arises) :
    (∀ p m', (attach p).run m = (.ok (), m') → ∀ patch ∈ m'.patches, ¬ m'.HasPatch p.pid patch) ∧
    (∀ pid patch m₁, m.ComesTo pid patch m₁ →
      (∃ rest : List PatchRecord, (installPatches pid).run m
        = (replay pid patch >>= fun _ ↦ rest.forM (replay pid)).run m₁) ∧
      ∃ p q, m₁.process? pid = some p ∧ ((replay pid patch).run m₁).2.process? pid = some q ∧
        (p.requestsTo q).countP (fun c ↦ c.name == .callEntryPoint) ≤ 1) ∧
    ∀ pid,
      (∀ patch m₁, m.ComesTo pid patch m₁ → m₁.HasPatch pid patch → m₁.LeavesAlone pid patch) ↔
        ∀ patch m₁, m.ComesTo pid patch m₁ → m.HasPatch pid patch → ¬ m₁.FindsPlace pid patch := by
  have hinstep := h.isInStep
  refine ⟨fun p m' hrun patch hpatch ↦ not_hasPatch_of_attach hinstep hrun hpatch,
    fun pid patch m₁ hcomes ↦ ⟨?_, ?_⟩, fun pid ↦ ?_⟩
  · obtain ⟨hlater, hattached, before, rest, hpatches, hrun⟩ := hcomes
    refine ⟨rest, ?_⟩
    have hnotNone : (m.process? pid).isNone = false := by
      rw [← Option.not_isSome, hattached]
      rfl
    rw [installPatches, run_bind, run_get]
    simp only [hlater, hnotNone, Bool.not_true, Bool.false_eq_true, if_false]
    have hsplit : m.patches.forM (replay pid)
        = before.forM (replay pid) >>= fun _ ↦ (patch :: rest).forM (replay pid) :=
      hpatches ▸ List.forM_append
    rw [hsplit, run_bind, hrun]
    rfl
  · obtain ⟨p, hp⟩ := hcomes.exists_process
    obtain ⟨w, -, q, hq, history, hhistory, hleads⟩ := isAskedIff_replay patch hp
    refine ⟨p, q, hp, hq, ?_⟩
    rw [hhistory.requests]
    exact hleads.countP_calls_le
  · refine forall_congr' fun patch ↦ forall_congr' fun m₁ ↦ forall_congr' fun hcomes ↦ ?_
    rw [hcomes.hasPatch_iff hinstep, leavesAlone_iff]

/-! A session in which a cycle patched one process. -/

namespace Reinstalled

/-- The patch as it lies on disk. -/
def image : Image := ⟨⟨"/m.patch_0.dll"⟩, Relinked.image 140⟩

/-- The files, of which only the patch is left. -/
def files : FileTree := { FileTree.empty with
  nodes := [(["m.patch_0.dll"], .file (Relinked.image 140) (.written 1))] }

/-- The module has one patch, which a process has as well. -/
structure IsPatched (m : LiveModule) : Prop where
  installs : m.settings.installsLater = true
  paths : m.patches.map PatchRecord.path = [⟨"/m.patch_0.dll"⟩]
  size : m.registry.moduleSize = 0x1000
  mapped : (m.registry.mapping? 7 ⟨1⟩).isSome = true
  pids : m.processes.map AttachedProcess.pid = [7]

instance (m : LiveModule) : Decidable (IsPatched m) :=
  decidable_of_iff (_ ∧ _ ∧ _ ∧ _ ∧ _) ⟨fun ⟨hi, hpa, hs, hm, hpi⟩ ↦ ⟨hi, hpa, hs, hm, hpi⟩,
    fun h ↦ ⟨h.installs, h.paths, h.size, h.mapped, h.pids⟩⟩

/-- What a cycle and loading its patch again come to. -/
class Evaluation : Prop where
  cycle : (Relinked.cycle.run (Relinked.session 140 [Relinked.process 7 .willing])).1 = .ok .success ∧
    IsPatched (Relinked.cycle.run (Relinked.session 140 [Relinked.process 7 .willing])).2
  headers : (ImageFormat.Headers.read? .wide (Relinked.image 140)).isSome = true
  contents : files.read? ⟨"/m.patch_0.dll"⟩ = some (Relinked.image 140)
  place : ([7, 8] : List UInt32).map (fun pid ↦ ((LoadState.place 0x1000 ⟨"/m.patch_0.dll"⟩
    false).run ⟨files, image, Relinked.process pid .willing⟩).1)
      = [.ok (some ⟨"/m.patch_0.dll"⟩), .ok (some ⟨"/m.patch_0.dll"⟩)]

instance evaluation : Evaluation where
  cycle := by decide +kernel
  headers := by decide +kernel
  contents := rfl
  place := by decide +kernel

/-- The module some time after the cycle. -/
theorem exists_patched : ∃ m : LiveModule, m.Arises ∧ IsPatched m ∧ m.files = files ∧
    m.processes = [Relinked.process 7 .willing] := by
  have hcycle : ∀ m : LiveModule, m.Arises → (Relinked.cycle.run m).1 = .ok .success →
      (Relinked.cycle.run m).2.Arises := by
    intro m hm houtcome
    have hoperation : IsOperation Relinked.cycle := .updateWithObjects _
    exact .operation hm hoperation (r := .ok .success) (Prod.ext houtcome rfl) nofun
  obtain ⟨m, hm, hpatched⟩ : ∃ m : LiveModule, m.Arises ∧ IsPatched m :=
    ⟨_, hcycle _ (Relinked.arises_session 140 _) evaluation.cycle.1, evaluation.cycle.2⟩
  refine ⟨{ m with
    workshop := { m.workshop with files := files }
    processes := [Relinked.process 7 .willing] }, hm.surroundings rfl rfl hpatched.pids.symm, ?_,
    rfl, rfl⟩
  exact ⟨hpatched.installs, hpatched.paths, hpatched.size, hpatched.mapped, rfl⟩

theorem load_patch : Image.load files ⟨"/m.patch_0.dll"⟩ = .ok image := by
  obtain ⟨headers, hheaders⟩ := Option.isSome_iff_exists.mp evaluation.headers
  exact Image.load_of_read evaluation.contents hheaders

/-- There is room for the patch in the processes. -/
theorem findsPlace {pid : UInt32} (hpid : pid ∈ [7, 8]) {m : LiveModule} {patch : PatchRecord}
    (hfiles : m.files = files) (hsize : m.registry.moduleSize = 0x1000)
    (hp : m.process? pid = some (Relinked.process pid .willing))
    (hpath : patch.path = ⟨"/m.patch_0.dll"⟩) : m.FindsPlace pid patch := by
  refine ⟨_, image, ⟨"/m.patch_0.dll"⟩, hp, ?_, ?_⟩
  · rw [hfiles, hpath]
    exact load_patch
  · rw [hfiles, hpath, hsize]
    obtain ⟨h₇, h₈⟩ := List.cons.inj evaluation.place
    rcases List.mem_pair.mp hpid with rfl | rfl
    · exact h₇
    · exact (List.cons.inj h₈).1

end Reinstalled

open Reinstalled in
/-- A process that is attached behind the cycle has the patch loaded, which it did not have. -/
theorem later_process_is_patched_once : ∃ m m' patch, m.Arises ∧
    (attach (Relinked.process 8 .willing)).run m = (.ok (), m') ∧ m'.ComesTo 8 patch m' ∧
      ¬ m'.HasPatch 8 patch ∧ ¬ m'.LeavesAlone 8 patch ∧
      ∀ patch m₁, m'.ComesTo 8 patch m₁ → m₁.HasPatch 8 patch → m₁.LeavesAlone 8 patch := by
  obtain ⟨m, hm, hpatched, hfiles, hprocesses⟩ := exists_patched
  obtain ⟨patch, hpatches, hpath⟩ := List.map_eq_singleton_iff.mp hpatched.paths
  obtain ⟨m', hm'⟩ : ∃ m', m' = { m with
      registry := m.registry.register .module 8 0x140000000
      processes := m.processes ++ [Relinked.process 8 .willing] } := ⟨_, rfl⟩
  have hattach : (attach (Relinked.process 8 .willing)).run m = (.ok (), m') := by
    have hnew : (m.processes.any fun q ↦ q.pid == (Relinked.process 8 .willing).pid) = false := by
      rw [hprocesses]
      rfl
    rw [attach, run_bind, run_get]
    simp only [hnew, Bool.false_eq_true, if_false]
    rw [hm']
    rfl
  have hp : m'.process? 8 = some (Relinked.process 8 .willing) := by
    rw [hm', process?, hprocesses]
    rfl
  have hcomes : m'.ComesTo 8 patch m' :=
    ⟨hm' ▸ hpatched.installs, Option.isSome_iff_exists.mpr ⟨_, hp⟩, [], [], hm' ▸ hpatches, rfl⟩
  have hfinds : m'.FindsPlace 8 patch := by
    refine findsPlace (by decide) (hm' ▸ hfiles) ?_ hp hpath
    rw [hm']
    exact (Registry.moduleSize_register ..).trans hpatched.size
  have hnew := (installed_patches_are_left_alone_iff hm).1 _ _ hattach
  refine ⟨m, m', patch, hm, hattach, hcomes, hnew patch (hm' ▸ hpatches ▸ .head _),
    fun h ↦ leavesAlone_iff.mp h hfinds, ?_⟩
  refine ((installed_patches_are_left_alone_iff (.operation hm (.attach _) hattach nofun)).2.2
    8).mpr fun other m₁ hcomes hhas ↦ (hnew other ?_ hhas).elim
  obtain ⟨-, -, before, rest, hsplit, -⟩ := hcomes
  rw [hsplit]
  exact List.mem_append_right _ (List.mem_cons_self ..)

open Reinstalled in
/-- A process that was attached during the cycle has the patch loaded once more by an install. -/
theorem patched_process_is_patched_again :
    ¬ ∀ {m : LiveModule}, m.Arises → ∀ pid patch m₁, m.ComesTo pid patch m₁ →
      m₁.HasPatch pid patch → m₁.LeavesAlone pid patch := by
  intro hall
  obtain ⟨m, hm, hpatched, hfiles, hprocesses⟩ := exists_patched
  obtain ⟨patch, hpatches, hpath⟩ := List.map_eq_singleton_iff.mp hpatched.paths
  have hp : m.process? 7 = some (Relinked.process 7 .willing) := by
    rw [process?, hprocesses]
    rfl
  have htoken : patch.token = ⟨1⟩ :=
    hm.isInStep.tokens 0 patch (by rw [hpatches]; rfl)
  have hhas : m.HasPatch 7 patch := by
    rw [HasPatch, htoken]
    exact hpatched.mapped
  have hcomes : m.ComesTo 7 patch m :=
    ⟨hpatched.installs, Option.isSome_iff_exists.mpr ⟨_, hp⟩, [], [], hpatches, rfl⟩
  exact leavesAlone_iff.mp (hall hm 7 patch m hcomes hhas)
    (findsPlace (by decide) hfiles hpatched.size hp hpath)

end LiveModule
end LivePatch
