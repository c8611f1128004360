import LivePatch.Attached.Hooks
import LivePatch.Patch.Steps
import LivePatch.Proofs.Process.Cave

/-!
# Leeway of attached processes

What the steps of an activation may change in a process that a patch was loaded into: nothing but the
room of the patch. Commands other than loading and unloading change nothing at all, and an entry
point that is called from a cave leaves the threads and the memory outside the patch as they were.
-/

namespace LivePatch

/-- An attached process that strayed no further from an earlier state of it than a leeway allows. -/
structure AttachedProcess.Within (l : Leeway) (p p' : AttachedProcess) : Prop where
  target : p.target.Within l p'.target
  reacts : p'.agent.reacts = p.agent.reacts
  commandThread : p'.commandThread = p.commandThread
  moduleBase : p'.moduleBase = p.moduleBase
  redirected : p'.redirected = p.redirected

namespace AttachedProcess

variable {l : Leeway} {p p' : AttachedProcess}

/-- A process strays nowhere from itself. -/
theorem Within.refl (places : Places) (allocates : Bool) (p : AttachedProcess) :
    p.Within ⟨places, 0, [], allocates⟩ p :=
  ⟨.refl .., rfl, rfl, rfl, rfl⟩

/-- A process that strayed twice. -/
theorem Within.trans {p'' : AttachedProcess} {held : Nat} (h : p.Within l p')
    (h' : p'.Within ⟨l.places, held, [], l.allocates⟩ p'') :
    p.Within { l with held := l.held + held } p'' :=
  ⟨h.target.trans h'.target, h'.reacts.trans h.reacts, h'.commandThread.trans h.commandThread,
    h'.moduleBase.trans h.moduleBase, h'.redirected.trans h.redirected⟩

/-- A process within a leeway is within one that lets more places differ. -/
theorem Within.mono_places (h : p.Within l p') (places : Places)
    (hP : ∀ base i, l.places base i → places base i) : p.Within { l with places := places } p' :=
  ⟨h.target.mono_places places hP, h.reacts, h.commandThread, h.moduleBase, h.redirected⟩

/-- What working on the process itself comes to. -/
theorem run_onTarget {α : Type} (act : TargetM α) (p : AttachedProcess) :
    (onTarget act).run p = ((act.run p.target).1, { p with target := (act.run p.target).2 }) := rfl

/-- Work on the process itself that cannot stop short, with what it does to memory. -/
theorem triple_onTarget_memory {α : Type} {act : TargetM α} {l' : Leeway} {Q R : Memory → Prop}
    (h : Triple (fun t ↦ p.target.Within l t ∧ Q t.memory) act
      (fun _ t ↦ p.target.Within l' t ∧ R t.memory) fun _ ↦ False) :
    Triple (fun s ↦ p.Within l s ∧ Q s.target.memory) (onTarget act)
      (fun _ s ↦ p.Within l' s ∧ R s.target.memory) fun _ ↦ False := by
  intro s hs
  obtain ⟨hs, hQ⟩ := hs
  rw [run_onTarget]
  have hact := h s.target ⟨hs.target, hQ⟩
  generalize act.run s.target = r at hact ⊢
  rcases r with ⟨_ | a, t⟩
  · exact hact.elim
  · exact ⟨⟨hact.1, hs.reacts, hs.commandThread, hs.moduleBase, hs.redirected⟩, hact.2⟩

/-- Work on the process itself that strays no further. -/
theorem keeps_onTarget {α : Type} {act : TargetM α} (h : Keeps (p.target.Within l) act) :
    Keeps (p.Within l) (onTarget act) := by
  apply Keeps.of_run
  intro s hs
  exact ⟨h.run hs.target, hs.reacts, hs.commandThread, hs.moduleBase, hs.redirected⟩

/-- A command that neither loads nor unloads an image. -/
def isQuiet : Command → Bool
  | .loadPatch _ | .unloadPatch _ => false
  | _ => true

/-- What serving a command comes to that neither loads nor unloads. -/
theorem serve_of_isQuiet (files : FileTree) {c : Command} (hc : isQuiet c = true) :
    serve files c = pure .ack := by
  cases c <;> first | rfl | cases hc

/-- A command that neither loads nor unloads changes nothing in the process. -/
theorem keeps_exchange (files : FileTree) {c : Command} (hc : isQuiet c = true) :
    Keeps (p.Within l) (exchange files c) := by
  refine Triple.bind_get fun s hs ↦ Triple.bind (R := fun _ ↦ p.Within l)
    (Triple.set fun _ _ ↦ ⟨hs.target, hs.reacts, hs.commandThread, hs.moduleBase, hs.redirected⟩)
    fun _ ↦ ?_
  split
  · exact Keeps.fail _
  · exact Keeps.pure _
  · rw [serve_of_isQuiet files hc]
    exact Keeps.pure _

/-- A command that neither loads nor unloads changes nothing in the process. -/
theorem keeps_tell (files : FileTree) {c : Command} (hc : isQuiet c = true) :
    Keeps (p.Within l) (tell files c) := by
  refine (keeps_exchange files hc).bind fun reply ↦ ?_
  cases reply with
  | ack => exact Keeps.pure _
  | patchLoaded base => exact Keeps.fail _

end AttachedProcess

theorem HookRecord.keeps_callIn {l : Leeway} {p : AttachedProcess} (r : HookRecord)
    (files : FileTree) (base : UInt64) : Keeps (p.Within l) (r.callIn files base) :=
  (Keeps.lift _).bind fun _ ↦ (Keeps.lift _).bind fun _ ↦ AttachedProcess.keeps_tell files rfl

theorem HookRecord.keeps_replay {l : Leeway} {p : AttachedProcess} (r : HookRecord)
    (files : FileTree) (bases : List (Option UInt64)) : Keeps (p.Within l) (r.replay files bases) := by
  unfold HookRecord.replay
  split
  · exact r.keeps_callIn files _
  · exact Keeps.pure _

namespace Cave

/-- An image keeps its room when the page of a cave is opened. -/
theorem isOwned_opened {l : Leeway} {t : Target} {image : Mapping} (c : Cave)
    (himage : image.IsOwned l.places t) :
    image.IsOwned (leewayInside l c).places (opened t c.page) := by
  constructor
  · intro r hr
    rcases List.mem_append.mp hr with hr | hr
    · exact (himage.isFree r (List.mem_filter.mp hr).1).imp_left fun h i ↦ .inl (h i)
    · rcases List.mem_cons.mp hr with rfl | hr
      · exact .inl fun _ ↦ .inr rfl
      · exact (himage.isFree r (List.mem_filter.mp hr).1).imp_left fun h i ↦ .inl (h i)
  · by_cases hpage : image.base = c.page
    · rw [hpage]
      exact isMapped_opened t c.page
    · obtain ⟨r, hr, hb⟩ := List.any_eq_true.mp himage.isMapped
      have hb : r.base = image.base := by simpa using hb
      refine List.any_eq_true.mpr ⟨r, ?_, by simpa using hb⟩
      have hne : r.base.toNat ≠ c.page.toNat := fun h ↦ hpage (hb ▸ UInt64.toNat_inj.mp h)
      rcases Nat.lt_or_gt_of_ne hne with hlt | hgt
      · exact List.mem_append_left _
          (List.mem_filter.mpr ⟨hr, by simpa using UInt64.lt_iff_toNat_lt.mpr hlt⟩)
      · exact List.mem_append_right _ (List.mem_cons_of_mem _
          (List.mem_filter.mpr ⟨hr, by simpa using UInt64.lt_iff_toNat_lt.mpr hgt⟩))

end Cave

namespace SavedEntryPoint

variable {l : Leeway} {p : AttachedProcess}

/-- Calling an uncovered entry point strays no further than replacing its code does. -/
theorem keeps_callUncovered_of_write (saved : SavedEntryPoint) (files : FileTree) {image : Mapping}
    (hcode : Keeps (p.target.Within l) (image.write saved.rva saved.code))
    (hstub : Keeps (p.target.Within l) (image.write saved.rva X86.successStub)) :
    Keeps (p.Within l) (saved.callUncovered files image) :=
  (AttachedProcess.keeps_onTarget hcode).bind fun _ ↦
    (AttachedProcess.keeps_tell files rfl).tried.bind fun _ ↦
      (AttachedProcess.keeps_onTarget hstub).bind fun _ ↦ Keeps.lift _

/-- Calling an uncovered entry point changes nothing outside the patch. -/
theorem keeps_callUncovered (saved : SavedEntryPoint) (files : FileTree) {image : Mapping}
    (himage : image.IsOwned l.places p.target) :
    Keeps (p.Within l) (saved.callUncovered files image) :=
  saved.keeps_callUncovered_of_write files (Mapping.keeps_write himage _ _)
    (Mapping.keeps_write himage _ _)

/-- Calling the entry point from a cave strays no further than calling it there, whatever the call
comes to. -/
theorem triple_callOnce_of_call (saved : SavedEntryPoint) (files : FileTree) {image : Mapping}
    (hp : p.target.gate.IsTolerant)
    (hcall : ∀ c, Keeps (({ p with target := Cave.opened p.target c.page } : AttachedProcess).Within
      (Cave.leewayInside l c)) (saved.callUncovered files image))
    (hpage : p.target.memory.isMapped p.target.nextAllocation = false)
    (hal : l.allocates = false) (hl : l.moved = []) :
    Triple (p.Within l) (saved.callOnce files image)
      (fun _ ↦ p.Within { l with allocates := true }) (p.Within { l with allocates := true }) := by
  refine Triple.bind_get fun s hs ↦ ?_
  have henter := Cave.triple_enter hp hal hl hpage s.commandThread s.target hs.target
  intro s' hs'
  subst hs'
  rw [run_bind, AttachedProcess.run_onTarget]
  generalize (Cave.enter s'.commandThread).run s'.target = entered at henter ⊢
  rcases entered with ⟨_ | c, t⟩
  · exact ⟨henter, hs.reacts, hs.commandThread, hs.moduleBase, hs.redirected⟩
  · obtain ⟨hpage', hrec, hin⟩ := henter
    have hinside : ({ p with target := Cave.opened p.target c.page } : AttachedProcess).Within
        (Cave.leewayInside l c) { s' with target := t } :=
      ⟨hin, hs.reacts, hs.commandThread, hs.moduleBase, hs.redirected⟩
    refine Triple.ensuring (hcall c) (fun _ s hs ↦ ?_) (fun s hs ↦ ?_) _ hinside
    all_goals
      exact ⟨(Cave.triple_leave hp hl (hpage' ▸ hpage) hrec).run_of_ok hs.target, hs.reacts,
        hs.commandThread, hs.moduleBase, hs.redirected⟩

/-- Calling the entry point from a cave leaves the threads and everything outside the patch as they
were, whatever the call comes to. -/
theorem triple_callOnce (saved : SavedEntryPoint) (files : FileTree) {image : Mapping}
    (hp : p.target.gate.IsTolerant) (himage : image.IsOwned l.places p.target)
    (hpage : p.target.memory.isMapped p.target.nextAllocation = false)
    (hal : l.allocates = false) (hl : l.moved = []) :
    Triple (p.Within l) (saved.callOnce files image)
      (fun _ ↦ p.Within { l with allocates := true }) (p.Within { l with allocates := true }) :=
  saved.triple_callOnce_of_call files hp
    (fun c ↦ saved.keeps_callUncovered files (Cave.isOwned_opened c himage)) hpage hal hl

end SavedEntryPoint

/-- The room of an image is owned in a process, if the image is mapped there. -/
def AttachedProcess.Owns (p : AttachedProcess) (registry : Registry) (token : Token)
    (places : Places) : Prop :=
  ∀ image, registry.mapping? p.pid token = some image → image.IsOwned places p.target

namespace PatchSteps

variable {l : Leeway} {p : AttachedProcess} {registry : Registry}

/-- Writing a reference changes nothing outside the patch. -/
theorem keeps_apply {t : Target} {patch : Mapping}
    (hpatch : patch.IsOwned l.places t) (bases : List (Option UInt64))
    (r : ReferenceRedirection) : Keeps (t.Within l) (r.apply patch bases) := by
  unfold ReferenceRedirection.apply
  split
  · exact Keeps.get.bind fun _ ↦ Keeps.fail _
  · exact (Keeps.lift _).bind fun _ ↦ (Keeps.lift _).bind fun _ ↦
      (Mapping.keeps_read _ _).bind fun _ ↦ (Keeps.lift _).bind fun _ ↦
        Mapping.keeps_write hpatch _ _

/-- Where redirecting a reference ends. -/
theorem run_redirectReference (patch : Mapping) (bases : List (Option UInt64))
    (r : ReferenceRedirection) (t : Target) :
    (redirectReference patch bases r).run t = (match ((r.apply patch bases).run t).1 with
      | .ok () => .ok false
      | .error (.error _) => .ok true
      | .error .fault => .error .fault, ((r.apply patch bases).run t).2) := by
  simp only [redirectReference, ExceptT.run, ExceptT.mk, bind, StateT.bind]
  rcases r.apply patch bases t with ⟨(_ | _) | _, t⟩ <;> rfl

/-- Redirecting a reference changes nothing outside the patch. -/
theorem keeps_redirectReference {t : Target} {patch : Mapping}
    (hpatch : patch.IsOwned l.places t) (bases : List (Option UInt64))
    (r : ReferenceRedirection) : Keeps (t.Within l) (redirectReference patch bases r) := by
  apply Keeps.of_run
  intro s hs
  rw [run_redirectReference]
  exact (keeps_apply hpatch bases r).run hs

/-- Redirecting references changes nothing outside the patch. -/
theorem keeps_redirectReferences {token : Token} (hp : p.target.gate.IsTolerant)
    (hown : p.Owns registry token l.places) (records : List ReferenceRedirection) :
    Keeps (p.Within l) (redirectReferences registry token records) := by
  refine Triple.bind_get fun s hs ↦ ?_
  rw [show s.pid = p.pid from hs.target.pid]
  dsimp only
  split
  · exact Triple.pure fun _ h ↦ h ▸ hs
  · next image himage =>
    refine Triple.mono ?_ (fun _ h ↦ h ▸ hs) (fun _ _ h ↦ h) fun _ h ↦ h
    refine AttachedProcess.keeps_onTarget (Target.keeps_suspended hp (Keeps.mapM fun r _ ↦ ?_))
    exact keeps_redirectReference (l := { l with held := l.held + 1 })
      (hown image himage) _ r

/-- Copying the security cookie changes nothing outside the patch. -/
theorem keeps_copyCookie {t : Target} {image : Mapping}
    (himage : image.IsOwned l.places t) (module : Mapping) (cookie : CookieRecord) :
    Keeps (t.Within l) (copyCookie image module cookie) :=
  (Mapping.keeps_readWord _).bind fun _ ↦ Mapping.keeps_writeWord himage _ _

/-- Disabling a library's own entry function changes nothing outside the patch. -/
theorem keeps_disableEntry {t : Target} {image : Mapping} (himage : image.IsOwned l.places t)
    (entry : Option UInt32) :
    Keeps (t.Within l) (match entry with
      | some rva => disableFunction image rva
      | none => pure ()) := by
  split
  · exact Mapping.keeps_write himage _ _
  · exact Keeps.pure _

/-- Preparing the entry point changes nothing outside the patch. -/
theorem keeps_prepareEntry (patch : PatchRecord) (hp : p.target.gate.IsTolerant)
    (hown : p.Owns registry patch.token l.places) :
    Keeps (p.Within l) (prepareEntry registry patch) := by
  refine Triple.bind_get fun s hs ↦ ?_
  rw [show s.pid = p.pid from hs.target.pid]
  dsimp only
  cases himage : registry.mapping? p.pid patch.token with
  | none => exact Triple.pure fun _ h ↦ h ▸ hs
  | some image =>
    have hwrite : image.IsOwned ({ l with held := l.held + 1 } : Leeway).places p.target :=
      hown image himage
    refine Triple.mono (AttachedProcess.keeps_onTarget (Target.keeps_suspended hp ?_))
      (fun _ h ↦ h ▸ hs) (fun _ _ h ↦ h) fun _ h ↦ h
    refine (Keeps.forM fun slot _ ↦ Mapping.keeps_writeWord hwrite slot 0).bind fun _ ↦ ?_
    split
    · exact (keeps_copyCookie hwrite _ _).bind fun _ ↦ keeps_disableEntry hwrite patch.dllMain
    · exact keeps_disableEntry hwrite patch.dllMain

/-- Running the entry point leaves the threads and everything outside the patch as they were. -/
theorem triple_callEntryPoint (files : FileTree) (patch : PatchRecord) (hp : p.target.gate.IsTolerant)
    (hown : p.Owns registry patch.token l.places)
    (hpage : p.target.memory.isMapped p.target.nextAllocation = false)
    (hal : l.allocates = false) (hl : l.moved = []) :
    Triple (p.Within l) (callEntryPoint files registry patch)
      (fun _ ↦ p.Within { l with allocates := true }) (p.Within { l with allocates := true }) := by
  refine Triple.bind_get fun s hs ↦ ?_
  rw [show s.pid = p.pid from hs.target.pid]
  split
  · next saved image _ himage =>
    exact (saved.triple_callOnce files hp (hown image himage) hpage hal hl).mono
      (fun _ h ↦ h ▸ hs) (fun _ _ h ↦ h) fun _ h ↦ h
  · refine Triple.pure fun _ h ↦ ?_
    subst h
    exact ⟨hs.target.allocated, hs.reacts, hs.commandThread, hs.moduleBase, hs.redirected⟩

end PatchSteps

end LivePatch
