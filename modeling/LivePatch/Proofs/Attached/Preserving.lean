import LivePatch.Patch.Steps
import LivePatch.Proofs.Attached.Informing
import LivePatch.Proofs.Process.Stillness
import LivePatch.Session.Replay

/-!
# What caves and the edits of a patch preserve

Threads are moved into a cave and put back, and its page comes and goes. Whatever says nothing of
threads, suspensions and calls, and can do with the page, holds on the way in, inside and on the way
out, also when entering the cave stops halfway.

Before functions are redirected, the edits of a patch reach into the patch alone, and a page is
allocated for the cave in which its entry point runs. What these leave alone is the same afterwards,
whatever the process refuses and whatever its agent answers.
-/

namespace LivePatch

/-! ### Caves -/

namespace Target

/-- What depends neither on calls nor on threads and suspensions. -/
structure IgnoresThreads (inv : Target → Prop) : Prop extends IgnoresCalls inv where
  suspended : ∀ {t : Target} (count : Nat), inv t → inv { t with suspensions := count }
  changed : ∀ {t : Target} (id : UInt32) (f : Thread → Thread), inv t → inv (t.withThread id f)

/-- What holds from the time that a page for a cave is allocated, if something else held before. -/
structure AllowsCaves (before inv : Target → Prop) : Prop extends IgnoresThreads inv where
  opens : Triple before (allocate Cave.spin.size) (fun page t ↦ inv t ∧
    Keeps inv (writeMemory page Cave.spin) ∧ Keeps inv (free page)) inv

/-- What does not depend on the memory either, nor on what was allocated. -/
structure IgnoresMemory (inv : Target → Prop) : Prop extends IgnoresThreads inv where
  remapped : ∀ {t : Target} (memory : Memory) (next : UInt64), inv t →
    inv { t with memory := memory, nextAllocation := next }

/-- Looking for a thread changes nothing. -/
theorem keeps_findThread {inv : Target → Prop} (id : UInt32) : Keeps inv (thread id) :=
  Keeps.get.bind fun _ ↦ Keeps.lift _

namespace IgnoresThreads

variable {inv : Target → Prop} (h : IgnoresThreads inv)

include h

theorem suspend : Keeps inv Target.suspend :=
  (h.pass _).bind fun _ ↦ Keeps.modify fun _ ↦ h.suspended _

theorem resume : Keeps inv Target.resume := by
  refine (h.pass _).bind fun _ ↦ Triple.bind_get fun t ht ↦ ?_
  split
  · exact Triple.fail fun _ heq ↦ heq ▸ ht
  · exact Triple.set fun _ _ ↦ h.suspended _ ht

/-- Work in a suspended process keeps what it keeps otherwise. -/
theorem suspended_act {α : Type} {act : TargetM α} (hact : Keeps inv act) :
    Keeps inv (Target.suspended act) :=
  h.suspend.bind fun _ ↦ hact.ensuring h.resume

/-- A call that changes a thread. -/
theorem setThread (c : Call) (id : UInt32) (f : Thread → Thread) :
    Keeps inv (Target.pass c >>= fun _ ↦ Target.setThread id f) :=
  (h.pass c).bind fun _ ↦ (keeps_findThread id).bind fun _ ↦ Keeps.modify fun _ ↦ h.changed id f

theorem observe (id : UInt32) : Keeps inv (Cave.observe id) :=
  ((h.pass _).bind fun _ ↦ (keeps_findThread id).bind fun _ ↦ Keeps.pure _).bind fun _ ↦
    ((h.pass _).bind fun _ ↦ (keeps_findThread id).bind fun _ ↦ Keeps.pure _).bind fun _ ↦ Keeps.pure _

theorem move (page : UInt64) (id : UInt32) : Keeps inv (Cave.move page id) :=
  (h.setThread _ _ _).bind fun _ ↦ h.setThread _ _ _

theorem release (thread : ParkedThread) : Keeps inv (Cave.release thread) :=
  (h.setThread _ _ _).inContext.bind fun _ ↦ h.setThread _ _ _

/-- Parking threads, however many of them it comes to. -/
theorem parkEach (page : UInt64) (ids : List UInt32) (parked : List ParkedThread) {t : Target}
    (ht : inv t) : inv ((Cave.parkEach page parked ids).run t).2 := by
  induction ids generalizing parked t with
  | nil => exact ht
  | cons id ids ih =>
    have hobserve := (h.observe id).run ht
    rw [Cave.run_parkEach_cons]
    generalize (Cave.observe id).run t = observed at hobserve ⊢
    rcases observed with ⟨_ | thread, s⟩
    · exact hobserve
    · have hmove := (h.move page id).run hobserve
      dsimp only
      generalize (Cave.move page id).run s = moved at hmove ⊢
      rcases moved with ⟨_ | _, s⟩
      · exact hmove
      · exact ih _ hmove

theorem parkAll (page : UInt64) (commandThread : Option UInt32) {t : Target} (ht : inv t) :
    inv ((Cave.parkAll page commandThread).run t).2 := by
  have hsuspend := h.suspend.run ht
  rw [Cave.run_parkAll]
  generalize Target.suspend.run t = suspended at hsuspend ⊢
  rcases suspended with ⟨_ | _, s⟩
  · exact hsuspend
  · have hids := h.threadIds.run hsuspend
    dsimp only
    generalize Target.threadIds.run s = listed at hids ⊢
    rcases listed with ⟨_ | ids, s⟩
    · exact h.resume.run hids
    · exact h.resume.run (h.parkEach page _ [] hids)

/-- Leaving a cave whose page may be freed. -/
theorem leave {c : Cave} (hfree : Keeps inv (free c.page)) : Keeps inv c.leave :=
  (h.suspended_act (Keeps.forM fun thread _ ↦ h.release thread)).bind fun _ ↦ hfree

end IgnoresThreads

/-- Whatever has the writes of another process has them still. -/
theorem edits_ignoresMemory (b : Target) : IgnoresMemory fun t ↦ t.edits = b.edits where
  counted := fun _ ht ↦ ht
  flushed := fun ht ↦ ht
  suspended := fun _ ht ↦ ht
  changed := fun _ _ ht ↦ ht
  remapped := fun _ _ ht ↦ ht

namespace IgnoresMemory

variable {inv : Target → Prop} (h : IgnoresMemory inv)

include h

theorem allocate (size : Nat) : Keeps inv (Target.allocate size) := by
  unfold Target.allocate
  generalize granularity = granularity
  refine (h.pass _).bind fun _ ↦ Triple.bind_get fun t ht ↦ ?_
  have hstop : ∀ s, s = t → inv s := fun _ heq ↦ heq ▸ ht
  refine Triple.bind_lift (fun rounded _ ↦ Triple.bind_lift (fun next _ ↦ ?_) hstop) hstop
  exact Triple.bind (R := fun _ ↦ inv) (Triple.set fun _ _ ↦ h.remapped (t := t) _ _ ht)
    fun _ ↦ Keeps.pure _

theorem free (address : UInt64) : Keeps inv (Target.free address) := by
  refine (h.pass _).bind fun _ ↦ Triple.bind_get fun t ht ↦ ?_
  split
  · exact Triple.set fun _ _ ↦ h.remapped _ t.nextAllocation ht
  · exact Triple.fail fun _ heq ↦ heq ▸ ht

/-- What does not depend on memory lets caves come and go, if it lets them be filled. -/
theorem allowsCaves (hspin : ∀ page, Keeps inv (writeMemory page Cave.spin)) :
    AllowsCaves inv inv where
  toIgnoresThreads := h.toIgnoresThreads
  opens := (h.allocate _).mono (fun _ ht ↦ ht) (fun page _ ht ↦ ⟨ht, hspin page, h.free page⟩)
    fun _ ht ↦ ht

end IgnoresMemory

/-- Entering a cave, which may be left again. -/
theorem AllowsCaves.enter {before inv : Target → Prop} (h : AllowsCaves before inv)
    (commandThread : Option UInt32) :
    Triple before (Cave.enter commandThread) (fun c t ↦ inv t ∧ Keeps inv (free c.page)) inv := by
  refine Triple.bind h.opens fun page t ⟨ht, hwrite, hfree⟩ ↦ ?_
  refine Triple.bind hwrite (fun _ ↦ Triple.bind h.flush fun _ t ht ↦ ?_) t ht
  have hparked := h.parkAll page commandThread ht
  simp only [ExceptT.run, ExceptT.mk, bind, StateT.bind, StateT.run] at hparked ⊢
  generalize Cave.parkAll page commandThread t = parking at hparked ⊢
  rcases parking with ⟨⟨parked, _ | _⟩, s⟩
  · exact (h.leave (c := ⟨page, parked⟩) hfree).run hparked
  · exact ⟨hparked, hfree⟩

end Target

/-! ### Edits of a patch -/

/-- Calling an entry point from a cave, whatever the call comes to. -/
theorem SavedEntryPoint.triple_callOnce_of {before inv : AttachedProcess → Prop} (files : FileTree)
    {saved : SavedEntryPoint} {image : Mapping}
    (henter : ∀ commandThread, Triple before (AttachedProcess.onTarget (Cave.enter commandThread))
      (fun c p ↦ inv p ∧ Keeps inv (AttachedProcess.onTarget c.leave)) inv)
    (huncover : Keeps inv (AttachedProcess.onTarget (image.write saved.rva saved.code)))
    (htell : Keeps inv (AttachedProcess.tell files (.callEntryPoint image.base saved.rva)))
    (hcover : Keeps inv (AttachedProcess.onTarget (disableFunction image saved.rva))) :
    Triple before (saved.callOnce files image) (fun _ ↦ inv) inv := by
  have hcall : Keeps inv (saved.callUncovered files image) :=
    huncover.bind fun _ ↦ htell.tried.bind fun _ ↦ hcover.bind fun _ ↦ Keeps.lift _
  refine Triple.bind (R := fun _ ↦ before) (Triple.get fun _ hp ↦ hp) fun p ↦
    Triple.bind (henter p.commandThread) fun cave q hq ↦ ?_
  exact hcall.ensuring hq.2 q hq.1

variable {inv before : Target → Prop}

namespace AttachedProcess

/-- What work on the target of a process guarantees there. -/
theorem triple_target {α : Type} {act : TargetM α} {pre stop : Target → Prop}
    {post : α → Target → Prop} (h : Triple pre act post stop) :
    Triple (fun p ↦ pre p.target) (onTarget act) (fun a p ↦ post a p.target) fun p ↦ stop p.target := by
  intro p hp
  rw [run_onTarget]
  have hact := h p.target hp
  generalize act.run p.target = r at hact ⊢
  rcases r with ⟨_ | a, t⟩ <;> exact hact

end AttachedProcess

namespace Target.IgnoresMemory

open AttachedProcess

variable (h : IgnoresMemory inv)

include h

/-- Agents map images and unmap them, and do nothing else. -/
theorem serve (files : FileTree) (c : Command) :
    Keeps (fun p : AttachedProcess ↦ inv p.target) (AttachedProcess.serve files c) := by
  cases c with
  | loadPatch path =>
    refine Triple.bind_get fun p hp ↦ ?_
    have hstop : ∀ s : AttachedProcess, s = p → inv s.target := fun _ heq ↦ heq ▸ hp
    split
    · exact Triple.pure hstop
    · refine Triple.bind_lift (fun image _ ↦ ?_) hstop
      have hmap : ∀ base, Triple (· = p) (do
          set ({ p with target := p.target.map base image.data } : AttachedProcess)
          pure (Reply.patchLoaded (some base)) : ProcessM Reply)
          (fun _ s ↦ inv s.target) fun s ↦ inv s.target := fun base ↦
        Triple.bind (R := fun _ (s : AttachedProcess) ↦ inv s.target)
          (Triple.set fun _ _ ↦ h.remapped (t := p.target) _ p.target.nextAllocation hp)
          fun _ ↦ Keeps.pure _
      cases p.agent.loadAt with
      | some base => exact hmap base
      | none => exact Triple.bind_lift (fun base _ ↦ hmap base) hstop
  | unloadPatch base =>
    exact Keeps.of_run fun p hp ↦ h.remapped (t := p.target) _ p.target.nextAllocation hp
  | _ => exact Keeps.pure _

theorem exchange (files : FileTree) (c : Command) :
    Keeps (fun p : AttachedProcess ↦ inv p.target) (AttachedProcess.exchange files c) := by
  refine Triple.bind_get fun p hp ↦ Triple.bind (R := fun _ (s : AttachedProcess) ↦ inv s.target)
    (Triple.set fun _ _ ↦ hp) fun _ ↦ ?_
  split
  · exact Keeps.fail _
  · exact Keeps.pure _
  · exact h.serve files c

theorem tell (files : FileTree) (c : Command) :
    Keeps (fun p : AttachedProcess ↦ inv p.target) (AttachedProcess.tell files c) := by
  refine (h.exchange files c).bind fun reply ↦ ?_
  cases reply with
  | ack => exact Keeps.pure _
  | patchLoaded base => exact Keeps.fail _

theorem loadPatch (files : FileTree) (path : Path) :
    Keeps (fun p : AttachedProcess ↦ inv p.target) (AttachedProcess.loadPatch files path) := by
  refine (h.exchange files _).bind fun reply ↦ ?_
  cases reply with
  | ack => exact Keeps.fail _
  | patchLoaded base => exact Keeps.pure _

end Target.IgnoresMemory

namespace AttachedProcess

/-- A command that neither loads nor unloads an image changes nothing in the process. -/
theorem keeps_tell_target (files : FileTree) {c : Command} (hc : isQuiet c = true) :
    Keeps (fun p : AttachedProcess ↦ inv p.target) (tell files c) := by
  apply Keeps.of_run
  intro p hp
  rw [run_tell_of_isQuiet files hc]
  exact hp

end AttachedProcess

/-- Calling hooks changes nothing in the process. -/
theorem HookRecord.keeps_callIn_target (r : HookRecord) (files : FileTree) (base : UInt64) :
    Keeps (fun p : AttachedProcess ↦ inv p.target) (r.callIn files base) :=
  (Keeps.lift _).bind fun _ ↦ (Keeps.lift _).bind fun _ ↦ AttachedProcess.keeps_tell_target files rfl

/-- Calling recorded hooks keeps what calling hooks in one place keeps. -/
theorem PatchRecord.keeps_callHooks_of {I : AttachedProcess → Prop} {files : FileTree}
    {registry : Registry} (h : ∀ (r : HookRecord) (base : UInt64), Keeps I (r.callIn files base))
    (hooks : Option HookRecord) : Keeps I (callHooks files registry hooks) := by
  unfold callHooks
  split
  · refine Keeps.get.bind fun _ ↦ ?_
    unfold HookRecord.replay
    split
    · exact h _ _
    · exact Keeps.pure _
  · exact Keeps.pure _

/-- What writes into the patch leave alone in a process of an identifier. -/
structure Target.AllowsPatch (pid : UInt32) (registry : Registry) (token : Token)
    (inv : Target → Prop) : Prop extends IgnoresThreads inv where
  owner : ∀ {t}, inv t → t.pid = pid
  write : ∀ {image}, registry.mapping? pid token = some image → ∀ rva bytes,
    Keeps inv (image.write rva bytes)

/-- What writes into the patch leave alone and a cave does, too. -/
structure Target.AllowsEntry (pid : UInt32) (registry : Registry) (token : Token)
    (before inv : Target → Prop) : Prop extends AllowsCaves before inv where
  patchBefore : AllowsPatch pid registry token before
  patch : AllowsPatch pid registry token inv
  later : ∀ {t}, before t → inv t

namespace Target.AllowsPatch

variable {pid : UInt32} {registry : Registry} {token : Token}
  (h : AllowsPatch pid registry token inv)

include h

theorem redirectReference {image : Mapping} (himage : registry.mapping? pid token = some image)
    (bases : List (Option UInt64)) (r : ReferenceRedirection) :
    Keeps inv (PatchSteps.redirectReference image bases r) := by
  have happly : Keeps inv (r.apply image bases) := by
    unfold ReferenceRedirection.apply
    split
    · exact Keeps.get.bind fun _ ↦ Keeps.fail _
    · exact (Keeps.lift _).bind fun _ ↦ (Keeps.lift _).bind fun _ ↦
        (h.read _ _ _).bind fun _ ↦ (Keeps.lift _).bind fun _ ↦ h.write himage _ _
  apply Keeps.of_run
  intro t ht
  rw [PatchSteps.run_redirectReference]
  exact happly.run ht

theorem redirectReferences (records : List ReferenceRedirection) :
    Keeps (fun p : AttachedProcess ↦ inv p.target)
      (PatchSteps.redirectReferences registry token records) := by
  refine Triple.bind_get fun p hp ↦ ?_
  rw [show p.pid = pid from h.owner hp]
  dsimp only
  split
  · exact Triple.pure fun _ heq ↦ heq ▸ hp
  · next image himage =>
    exact (AttachedProcess.triple_target (h.suspended_act (Keeps.mapM fun r _ ↦
      h.redirectReference himage _ r))).mono (fun _ heq ↦ heq ▸ hp) (fun _ _ hq ↦ hq) fun _ hq ↦ hq

/-- Disabling a library's own entry function. -/
theorem disableEntry {image : Mapping} (himage : registry.mapping? pid token = some image)
    (entry : Option UInt32) :
    Keeps inv (match entry with
      | some rva => disableFunction image rva
      | none => pure ()) := by
  split
  · exact h.write himage _ _
  · exact Keeps.pure _

theorem prepareEntry {patch : PatchRecord} (htoken : patch.token = token) :
    Keeps (fun p : AttachedProcess ↦ inv p.target) (PatchSteps.prepareEntry registry patch) := by
  refine Triple.bind_get fun p hp ↦ ?_
  rw [show p.pid = pid from h.owner hp, htoken]
  dsimp only
  cases himage : registry.mapping? pid token with
  | none => exact Triple.pure fun _ heq ↦ heq ▸ hp
  | some image =>
    refine (AttachedProcess.triple_target (h.suspended_act ?_)).mono (fun _ heq ↦ heq ▸ hp)
      (fun _ _ hq ↦ hq) fun _ hq ↦ hq
    refine (Keeps.forM fun slot _ ↦ h.write himage _ _).bind fun _ ↦ ?_
    split
    · exact ((h.readWord _ _).bind fun _ ↦ h.write himage _ _).bind fun _ ↦
        h.disableEntry himage patch.dllMain
    · exact h.disableEntry himage patch.dllMain

end Target.AllowsPatch

namespace Target.AllowsEntry

variable {pid : UInt32} {registry : Registry} {token : Token}
  (h : AllowsEntry pid registry token before inv)

include h

/-- Calling an entry point from a cave, whatever the call comes to. -/
theorem callOnce {image : Mapping} (himage : registry.mapping? pid token = some image)
    (saved : SavedEntryPoint) (files : FileTree) :
    Triple (fun p : AttachedProcess ↦ before p.target) (saved.callOnce files image)
      (fun _ p ↦ inv p.target) fun p ↦ inv p.target := by
  refine SavedEntryPoint.triple_callOnce_of files (fun commandThread ↦ ?_)
    (AttachedProcess.triple_target (h.patch.write himage _ _))
    (AttachedProcess.keeps_tell_target files rfl)
    (AttachedProcess.triple_target (h.patch.write himage _ _))
  exact (AttachedProcess.triple_target (h.enter commandThread)).mono (fun _ hp ↦ hp)
    (fun _ _ hq ↦ ⟨hq.1, AttachedProcess.triple_target (h.leave hq.2)⟩) fun _ hp ↦ hp

theorem callEntryPoint {patch : PatchRecord} (htoken : patch.token = token) (files : FileTree) :
    Triple (fun p : AttachedProcess ↦ before p.target)
      (PatchSteps.callEntryPoint files registry patch) (fun _ p ↦ inv p.target)
      fun p ↦ inv p.target := by
  refine Triple.bind_get fun p hp ↦ ?_
  rw [show p.pid = pid from h.patchBefore.owner hp, htoken]
  split
  · next saved image _ himage =>
    exact (h.callOnce himage saved files).mono (fun _ heq ↦ heq ▸ hp) (fun _ _ hq ↦ hq)
      fun _ hq ↦ hq
  · exact Triple.pure fun _ heq ↦ heq ▸ h.later hp

end Target.AllowsEntry

end LivePatch
