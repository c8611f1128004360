import LivePatch.Patch.Load
import LivePatch.Proofs.Outcome
import LivePatch.Proofs.Patch.Activation

/-!
# Loading and unloading

Loading a patch maps its bytes where nothing was mapped and changes nothing else; unloading it takes
just that back. So a process that strayed only in the region of a loaded patch is what it was once
the patch is unloaded.
-/

namespace LivePatch

/-- An agent that answers with the base of a patch only when it loaded it, and that unloads what it
is told to. -/
structure Agent.IsHonest (a : Agent) : Prop where
  loads : ∀ path n base, a.reacts (.loadPatch path) n ≠ .answers (.patchLoaded (some base))
  unloads : ∀ base n, a.reacts (.unloadPatch base) n = .serves

/-- A process in which the room of an image is free, the next allocation is new and the two lie
apart. -/
structure Target.HasRoom (t : Target) (base : UInt64) (size : UInt32) : Prop where
  image : t.memory.IsFree (fun _ ↦ False) base (max size.toNat 1)
  page : t.memory.IsFree (fun _ ↦ False) t.nextAllocation Cave.spin.size
  apart : base ≠ t.nextAllocation

instance (t : Target) (base : UInt64) (size : UInt32) : Decidable (t.HasRoom base size) :=
  decidable_of_iff (_ ∧ _ ∧ _) ⟨fun ⟨himage, hpage, hapart⟩ ↦ ⟨himage, hpage, hapart⟩,
    fun h ↦ ⟨h.image, h.page, h.apart⟩⟩

/-- Nothing starts in a range that is free. -/
theorem Memory.IsFree.isMapped {m : Memory} {base : UInt64} {size : Nat}
    (h : m.IsFree (fun _ ↦ False) base size) (hsize : 0 < size) : m.isMapped base = false := by
  rw [Bool.eq_false_iff]
  intro hmapped
  obtain ⟨r, hr, hb⟩ := List.any_eq_true.mp hmapped
  have hb : r.base = base := by simpa using hb
  rcases h r hr with h | h | h
  · exact h
  · rw [hb] at h
    omega
  · rw [hb] at h
    omega

namespace AttachedProcess

/-- A process with the bytes of a patch mapped. -/
def withPatch (p : AttachedProcess) (base : UInt64) (bytes : Bytes) : AttachedProcess :=
  { p with target := p.target.map base bytes }

/-- A process that a patch was loaded into and that is otherwise as it was. -/
def IsLoaded (p : AttachedProcess) (base : UInt64) (p' : AttachedProcess) : Prop :=
  ∃ bytes, (p.withPatch base bytes).Within (.at .none) p'

/-- A process that is as it was, as far as the engine and the program in it can tell. -/
structure IsRestored (p p' : AttachedProcess) : Prop where
  pid : p'.pid = p.pid
  memory : p'.target.memory = p.target.memory
  threads : p'.target.threads = p.target.threads
  suspensions : p'.target.suspensions = p.target.suspensions
  redirected : p'.redirected = p.redirected
  moduleBase : p'.moduleBase = p.moduleBase
  commandThread : p'.commandThread = p.commandThread

variable {p p' : AttachedProcess}

/-- A process that strayed nowhere is as it was. -/
theorem Within.isRestored {l : Leeway} (h : p.Within l p') (hplaces : l.places = .none)
    (hheld : l.held = 0) (hmoved : l.moved = []) : p.IsRestored p' := by
  refine ⟨h.target.pid, ?_, h.target.threads_eq hmoved, ?_, h.redirected, h.moduleBase,
    h.commandThread⟩
  · have hmemory := h.target.memory
    rw [hplaces] at hmemory
    exact hmemory.eq.symm
  · rw [h.target.suspensions, hheld, Nat.add_zero]

/-- What telling an honest agent to unload an image comes to. -/
theorem run_tell_unloadPatch (hp : p.agent.IsHonest) (files : FileTree) (base : UInt64) :
    (tell files (.unloadPatch base)).run p = (.ok ⟨⟩, { p with
      agent := p.agent.noted p.target (.unloadPatch base)
      target := { p.target with memory := p.target.memory.unmap base } }) := by
  simp only [tell, exchange, run_bind, run_get, run_set, hp.unloads]
  rfl

/-- Unloading a patch takes back that it was loaded and all that happened in its region. -/
theorem isRestored_unload {base : UInt64} {bytes : Bytes} {allocates : Bool}
    (hbase : p.target.memory.isMapped base = false) (hagent : p.agent.IsHonest)
    (h : (p.withPatch base bytes).Within ⟨.region base, 0, [], allocates⟩ p') (files : FileTree) :
    p.IsRestored ((tell files (.unloadPatch base)).run p').2 := by
  have hagent' : p'.agent.IsHonest := by
    have hreacts : p'.agent.reacts = p.agent.reacts := h.reacts
    constructor
    · rw [hreacts]
      exact hagent.loads
    · rw [hreacts]
      exact hagent.unloads
  rw [run_tell_unloadPatch hagent']
  refine ⟨h.target.pid, ?_, h.target.threads_eq rfl, h.target.suspensions, h.redirected,
    h.moduleBase, h.commandThread⟩
  have hmemory := h.target.memory.unmap base
  rw [withPatch, Target.map, Memory.unmap_map hbase] at hmemory
  refine (Memory.AgreesOff.eq (hmemory.mono fun r _ i hP ↦ ?_)).symm
  exact hP.2 hP.1

/-- What loading came to: the patch is mapped if there is a base. -/
def LoadsTo (p : AttachedProcess) : Option UInt64 → AttachedProcess → Prop
  | some base => p.IsLoaded base
  | none => p.Within (.at .none)

/-- Serving a request to load an image maps it, unless the agent refuses. -/
theorem triple_serve_loadPatch (files : FileTree) (path : Path) :
    Triple (p.Within (.at .none)) (serve files (.loadPatch path))
      (fun reply p' ↦ ∃ base, reply = .patchLoaded base ∧ p.LoadsTo base p')
      (p.Within (.at .none)) := by
  refine Triple.bind_get fun s hs ↦ ?_
  have hsame : ∀ s', s' = s → p.Within (.at .none) s' := fun _ h ↦ h ▸ hs
  have hmap : ∀ base bytes, Triple (· = s)
      (do set ({ s with target := s.target.map base bytes } : AttachedProcess)
          pure (Reply.patchLoaded (some base)) : ProcessM Reply)
      (fun reply p' ↦ ∃ base, reply = .patchLoaded base ∧ p.LoadsTo base p')
      (p.Within (.at .none)) := by
    intro base bytes
    refine Triple.bind (R := fun _ ↦ p.IsLoaded base) (Triple.set fun _ _ ↦ ⟨bytes, ?_⟩) fun _ ↦
      Triple.pure fun _ h ↦ ⟨some base, rfl, h⟩
    have ht := hs.target
    exact ⟨⟨ht.pid, ht.refuses, ht.threads, ht.suspensions, ht.nextAllocation,
      ht.memory.map base bytes⟩, hs.reacts, hs.commandThread, hs.moduleBase, hs.redirected⟩
  split
  · exact Triple.pure fun _ h ↦ ⟨none, rfl, hsame _ h⟩
  · refine Triple.bind_lift (fun image _ ↦ ?_) hsame
    cases s.agent.loadAt with
    | some base => exact hmap base image.data
    | none => exact Triple.bind_lift (fun base _ ↦ hmap base image.data) hsame

/-- Loading a patch either maps it or changes nothing. -/
theorem triple_loadPatch (hp : p.agent.IsHonest) (files : FileTree) (path : Path) :
    Triple (p.Within (.at .none)) (loadPatch files path) p.LoadsTo (p.Within (.at .none)) := by
  have hexchange : Triple (p.Within (.at .none)) (exchange files (.loadPatch path))
      (fun reply p' ↦ (∃ base, reply = .patchLoaded base ∧ p.LoadsTo base p') ∨
        p.Within (.at .none) p' ∧ ∀ base, reply ≠ .patchLoaded (some base))
      (p.Within (.at .none)) := by
    refine Triple.bind_get fun s hs ↦ Triple.bind (R := fun _ ↦ p.Within (.at .none))
      (Triple.set fun _ _ ↦ ⟨hs.target, hs.reacts, hs.commandThread, hs.moduleBase, hs.redirected⟩)
      fun _ ↦ ?_
    rw [show s.agent.reacts = p.agent.reacts from hs.reacts]
    split
    · exact Triple.fail fun _ h ↦ h
    · next reply hreply =>
      refine Triple.pure fun _ h ↦ .inr ⟨h, ?_⟩
      rintro base rfl
      exact hp.loads _ _ _ hreply
    · exact (triple_serve_loadPatch files path).mono (fun _ h ↦ h) (fun _ _ h ↦ .inl h) fun _ h ↦ h
  refine Triple.bind hexchange fun reply ↦ ?_
  split
  · next base =>
    refine Triple.pure fun s hs ↦ ?_
    rcases hs with ⟨base', heq, hs⟩ | ⟨hs, hne⟩
    · cases heq
      exact hs
    · cases base with
      | none => exact hs
      | some base => exact absurd rfl (hne base)
  · next hne =>
    refine Triple.fail fun s hs ↦ ?_
    rcases hs with ⟨base, rfl, -⟩ | ⟨hs, -⟩
    · exact absurd rfl (hne base)
    · exact hs

end AttachedProcess

namespace Placement

variable {inv : Target → Prop}

private theorem keeps_upward
    (hfree : ∀ address size, Keeps inv (Target.isRangeFree address size))
    (size highest : UInt64) (fuel : Nat) (candidate : UInt64) :
    Keeps inv (upward size highest fuel candidate) := by
  induction fuel generalizing candidate with
  | zero => exact Keeps.pure _
  | succ fuel ih =>
    unfold upward
    generalize Target.granularity = granularity
    split
    · exact Keeps.pure _
    · refine (hfree _ _).bind fun isFree ↦ ?_
      split
      · exact Keeps.pure _
      · exact (Keeps.lift _).bind fun next ↦ ih next

private theorem keeps_downward
    (hfree : ∀ address size, Keeps inv (Target.isRangeFree address size))
    (size lowest : UInt64) (fuel : Nat) (candidate : UInt64) :
    Keeps inv (downward size lowest fuel candidate) := by
  induction fuel generalizing candidate with
  | zero => exact Keeps.pure _
  | succ fuel ih =>
    unfold downward
    split
    · exact Keeps.pure _
    · refine (hfree _ _).bind fun isFree ↦ ?_
      split
      · exact Keeps.pure _
      · exact ih _

/-- Looking for room does no more than asking whether ranges are free. -/
theorem keeps_freeRegionNear
    (hfree : ∀ address size, Keeps inv (Target.isRangeFree address size))
    (base moduleSize size : UInt64) : Keeps inv (freeRegionNear base moduleSize size) := by
  unfold freeRegionNear
  generalize Target.granularity = granularity, range = range
  refine (Keeps.lift _).bind fun stop ↦ (Keeps.lift _).bind fun reach ↦ ?_
  dsimp only
  refine (Keeps.lift _).bind fun first ↦ ?_
  generalize candidates = count
  refine (keeps_upward hfree _ _ _ _).bind fun found ↦ ?_
  split
  · exact Keeps.pure _
  · exact (Keeps.lift _).bind fun last ↦ keeps_downward hfree _ _ _ _

end Placement

/-- An image is loaded from the bytes of its file, if these have the headers of one. -/
theorem Image.load_of_read {files : FileTree} {path : Path} {data : Bytes}
    {headers : ImageFormat.Headers} (hread : files.read? path = some data)
    (hheaders : ImageFormat.Headers.read? .wide data = some headers) :
    Image.load files path = .ok ⟨path, data⟩ := by
  unfold Image.load Image.ofBytes
  rw [hread]
  change inContext (.notAnImage path) (do
    let _ ← orFail .malformed (ImageFormat.Headers.read? .wide data)
    pure (⟨path, data⟩ : Image)) = _
  rw [hheaders]
  rfl

/-- An image is loaded from the bytes of its file, if these tell its size. -/
theorem Image.load_of_size {files : FileTree} {path : Path} {data : Bytes} {size : UInt32}
    (hread : files.read? path = some data) (hsize : (⟨path, data⟩ : Image).size = .ok size) :
    Image.load files path = .ok ⟨path, data⟩ := by
  obtain ⟨headers, hheaders, -⟩ := Outcome.bind_eq_ok_iff.mp hsize
  exact Image.load_of_read hread (Outcome.orFail_eq_ok_iff.mp hheaders)

namespace LoadState

variable {p : AttachedProcess}

/-- What working on the process comes to. -/
theorem run_onProcess {α : Type} (act : ProcessM α) (s : LoadState) :
    (onProcess act).run s = ((act.run s.process).1, { s with process := (act.run s.process).2 }) :=
  rfl

/-- Work on the process while loading. -/
theorem triple_onProcess {α : Type} {act : ProcessM α} {pre : AttachedProcess → Prop}
    {post : α → AttachedProcess → Prop} {stop : AttachedProcess → Prop}
    (h : Triple pre act post stop) :
    Triple (fun s ↦ pre s.process) (onProcess act) (fun a s ↦ post a s.process)
      fun s ↦ stop s.process := by
  intro s hs
  have hact := h s.process hs
  rw [run_onProcess]
  generalize act.run s.process = r at hact ⊢
  rcases r with ⟨_ | a, p⟩ <;> exact hact

/-- Work on the image changes nothing in the process. -/
theorem keeps_onImage {α : Type} (act : ImageM α) {inv : AttachedProcess → Prop} :
    Keeps (fun s ↦ inv s.process) (onImage act) :=
  Keeps.of_run fun _ hs ↦ hs

/-- Work on the files changes nothing in the process. -/
theorem keeps_onFiles {α : Type} (act : FilesM α) {inv : AttachedProcess → Prop} :
    Keeps (fun s ↦ inv s.process) (onFiles act) :=
  Keeps.of_run fun _ hs ↦ hs

/-- Placing the image changes nothing in the process. -/
theorem keeps_placeAt (path : Path) (inPlace : Bool) (base : UInt64)
    {inv : AttachedProcess → Prop} : Keeps (fun s ↦ inv s.process) (placeAt path inPlace base) := by
  refine Keeps.get.bind fun s ↦ (Keeps.lift _).bind fun current ↦ ?_
  split
  · exact Keeps.pure _
  · split
    · exact (keeps_onImage _).bind fun _ ↦ Keeps.get.bind fun _ ↦ (keeps_onFiles _).bind fun _ ↦
        Keeps.pure _
    · exact (Keeps.lift _).bind fun _ ↦ (Keeps.lift _).bind fun _ ↦ (keeps_onFiles _).bind fun _ ↦
        Keeps.pure _

/-- Loading a patch into a process either maps it or changes nothing. -/
theorem triple_load (hp : p.agent.IsHonest) (hgate : p.target.gate.IsTolerant) (moduleSize : UInt32)
    (path : Path) (inPlace : Bool) :
    Triple (fun s ↦ p.Within (.at .none) s.process) (load moduleSize path inPlace)
      (fun base s ↦ p.LoadsTo base s.process) fun s ↦ p.Within (.at .none) s.process := by
  have hroom : ∀ size, Keeps (fun s ↦ p.Within (.at .none) s.process)
      (findRoom moduleSize size) := fun size ↦
    Keeps.get.bind fun _ ↦ triple_onProcess (AttachedProcess.keeps_onTarget
      (Target.keeps_suspended hgate
        (Placement.keeps_freeRegionNear Target.keeps_isRangeFree _ _ _)))
  refine Triple.bind Keeps.get fun s ↦ Triple.bind (Keeps.lift _) fun size ↦
    Triple.bind (hroom size) fun room ↦ ?_
  cases room with
  | none => exact Triple.pure fun _ hs ↦ hs
  | some base =>
    refine Triple.bind (keeps_placeAt path inPlace base) fun file ↦ Triple.bind Keeps.get fun s ↦ ?_
    exact triple_onProcess (AttachedProcess.triple_loadPatch hp _ file)

end LoadState

namespace LoadRun

/-- The hosts of a patch that was loaded into processes at bases. -/
def hosts (fleet : Fleet) (bases : List UInt64) : List Host :=
  fleet.zipWith Host.mk bases

/-- Loading a patch into all processes maps it in each and changes nothing else. -/
theorem isLoaded_of_loadEach {moduleSize : UInt32} {path : Path} {isFirst : Bool}
    {files : FileTree} {image : Image} {fleet : Fleet} {r : LoadRun}
    (hfleet : ∀ p ∈ fleet, p.agent.IsHonest ∧ p.target.gate.IsTolerant)
    (hr : loadEach moduleSize path isFirst files image fleet = .ok r) (hc : r.isComplete = true) :
    r.bases.length = fleet.length ∧
      List.Forall₂ (fun h p ↦ h.process.IsLoaded h.base p) (hosts fleet r.bases) r.processes := by
  induction fleet generalizing isFirst files image r with
  | nil =>
    cases hr
    exact ⟨rfl, .nil⟩
  | cons p rest ih =>
    obtain ⟨hagent, hgate⟩ := hfleet p (List.mem_cons_self ..)
    have hload := LoadState.triple_load hagent hgate moduleSize path isFirst
      ⟨files, image, p⟩ (.refl ..)
    unfold loadEach at hr
    generalize (LoadState.load moduleSize path isFirst).run ⟨files, image, p⟩ = loaded at hload hr
    rcases loaded with ⟨(_ | _) | _ | base, s⟩
    · cases hr
      cases hc
    · cases hr
    · cases hr
      cases hc
    · cases hrest : loadEach moduleSize path false s.files s.image rest with
      | error e =>
        simp only [hrest, bind, Except.bind] at hr
        cases hr
      | ok more =>
        simp only [hrest, bind, Except.bind, pure, Except.pure, Except.ok.injEq] at hr
        subst hr
        obtain ⟨hlength, hall⟩ := ih (fun q hq ↦ hfleet q (List.mem_cons_of_mem p hq)) hrest hc
        exact ⟨congrArg Nat.succ hlength, .cons hload hall⟩

/-- Unloading a patch from all processes takes back that it was loaded and all that happened in its
region. -/
theorem isRestored_unloadEach {fleet : Fleet} {bases : List UInt64} (files : FileTree)
    {processes : Fleet} (hlength : bases.length = fleet.length) {allocates : Bool}
    (hhosts : ∀ h ∈ hosts fleet bases,
      h.process.target.memory.isMapped h.base = false ∧ h.process.agent.IsHonest)
    (hloaded : List.Forall₂ (fun h p ↦ ∃ bytes, (h.process.withPatch h.base bytes).Within
      ⟨.region h.base, 0, [], allocates⟩ p) (hosts fleet bases) processes) :
    List.Forall₂ AttachedProcess.IsRestored fleet (unloadEach files bases processes) := by
  induction fleet generalizing bases processes with
  | nil =>
    cases bases with
    | nil =>
      cases hloaded
      exact .nil
    | cons base bases => cases hlength
  | cons p fleet ih =>
    cases bases with
    | nil => cases hlength
    | cons base bases =>
      cases hloaded with
      | cons hhead hrest =>
        obtain ⟨bytes, hhead⟩ := hhead
        obtain ⟨hmapped, hagent⟩ := hhosts _ (List.mem_cons_self ..)
        exact .cons (AttachedProcess.isRestored_unload hmapped hagent hhead files)
          (ih (Nat.succ.inj hlength) (fun h hmem ↦ hhosts h (List.mem_cons_of_mem _ hmem)) hrest)

end LoadRun
end LivePatch
