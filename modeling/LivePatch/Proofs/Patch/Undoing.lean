import LivePatch.Proofs.Attached.Leeway

/-!
# Undoing redirections

What is noted while functions are redirected suffices to take the redirections back. The invariant
says so at every moment: putting the noted code back into the memory as it stands would give the
memory as it was, but for the room of the patch, and without the noted marks the marked functions
are those that were marked before. Code is noted before it is replaced, so the invariant survives
an activation that stops anywhere.
-/

namespace LivePatch

/-- Every place. -/
def Places.all : Places := fun _ _ ↦ True

/-- A jump filled up with traps has the size it was asked for. -/
theorem size_of_paddedJump {source target : UInt64} {covered : Nat} {code : Bytes}
    (h : paddedJump source target covered = .ok code) : code.size = covered := by
  unfold paddedJump at h
  cases hj : X86.encodeJump source target with
  | error e =>
    rw [hj] at h
    cases h
  | ok jump =>
    rw [hj] at h
    cases h
    simp only [Bytes.resize, Bytes.fill, Array.size_append, Array.size_extract,
      Array.size_replicate]
    omega

namespace Target

/-- What reading memory comes to. -/
theorem run_readMemory (address : UInt64) (len : Nat) (t : Target) :
    (readMemory address len).run t =
      (if t.gate.refuses ⟨.readMemory, none⟩ (t.gate.count .readMemory)
        then .error (.error (Cause.refused .readMemory).toError) else t.memory.read address len,
      { t with gate := t.gate.counted .readMemory }) := by
  rw [readMemory, run_bind, run_pass]
  cases t.gate.refuses ⟨.readMemory, none⟩ (t.gate.count .readMemory) with
  | true => rfl
  | false => simp only [Bool.false_eq_true, if_false, run_bind, run_get, run_lift]

end Target

namespace Mapping

/-- Bytes that are read from an image stand in memory. -/
theorem triple_read (image : Mapping) (rva : UInt32) (len : Nat) (t : Target) :
    Triple (· = t) (image.read rva len)
      (fun bytes t' ↦ (∃ address, image.address rva = .ok address ∧
        t.memory.read address len = .ok bytes) ∧ t.Within (.at .none) t')
      (t.Within (.at .none)) := by
  have hrefl : ∀ t', t' = t → t.Within (.at .none) t' := by
    rintro _ rfl
    exact .refl ..
  refine Triple.bind_lift (fun _ _ ↦ Triple.bind_lift (fun address ha ↦ ?_) hrefl) hrefl
  refine Triple.inContext fun t' ht' ↦ ?_
  subst ht'
  have hkeeps := (Target.keeps_readMemory (l := .at .none) (t := t') address len).run (hrefl _ rfl)
  rw [Target.run_readMemory] at hkeeps ⊢
  cases t'.gate.refuses ⟨.readMemory, none⟩ (t'.gate.count .readMemory) with
  | true => exact hkeeps
  | false =>
    simp only [Bool.false_eq_true, if_false] at hkeeps ⊢
    cases hread : t'.memory.read address len with
    | error e => exact hkeeps
    | ok bytes => exact ⟨⟨address, ha, hread⟩, hkeeps⟩

end Mapping

namespace FunctionRedirection

/-- Installing a redirection keeps what filling the ranges keeps that it says it replaces. -/
theorem keeps_install_of {inv : Target → Prop} {r : FunctionRedirection} {existing : Mapping}
    (image : Mapping) {ranges : List (UInt32 × Nat)} (hr : r.overwritten = .ok ranges)
    (hwrite : ∀ rva (bytes : Bytes), (rva, bytes.size) ∈ ranges →
      Keeps inv (existing.write rva bytes)) :
    Keeps inv (r.install existing image) := by
  have hfill : ∀ rva len, (rva, len) ∈ ranges → ∀ bytes : Bytes, bytes.size = len →
      Keeps inv (existing.write rva bytes) := fun rva _ hrange bytes hsize ↦
    hwrite rva bytes (hsize ▸ hrange)
  have hjump : ∀ rva, (rva, X86.jumpSize) ∈ ranges → ∀ source target, Keeps inv (do
      let jump ← X86.encodeJump source target
      existing.write rva jump) := fun rva hrva source target ↦
    Triple.bind_lift (fun jump hjump ↦ hfill rva _ hrva jump (X86.size_of_encodeJump hjump))
      fun _ hs ↦ hs
  unfold overwritten at hr
  unfold install
  refine (Keeps.lift _).bind fun target ↦ ?_
  cases htechnique : r.technique with
  | direct covered =>
    rw [htechnique] at hr
    cases hr
    refine Keeps.bind (Keeps.forM fun thunk hthunk ↦ (Keeps.lift _).bind fun source ↦
      hjump thunk (List.mem_append_left _ (List.mem_map.mpr ⟨thunk, hthunk, rfl⟩)) _ _) fun _ ↦ ?_
    refine (Keeps.lift _).bind fun start ↦ Triple.bind_lift (fun code hcode ↦ ?_) fun _ hs ↦ hs
    exact hfill r.existingRva covered (List.mem_append_right _ (List.mem_singleton_self _)) code
      (size_of_paddedJump hcode)
  | indirection =>
    rw [htechnique] at hr
    cases hpadding : r.paddingRva with
    | error e =>
      rw [hpadding] at hr
      cases hr
    | ok padding =>
      rw [hpadding] at hr
      cases hr
      refine Keeps.bind (Keeps.forM fun thunk hthunk ↦ (Keeps.lift _).bind fun source ↦
        hjump thunk (List.mem_append_left _ (List.mem_map.mpr ⟨thunk, hthunk, rfl⟩)) _ _) fun _ ↦ ?_
      refine (Keeps.lift _).bind fun start ↦ Triple.bind_ok rfl ?_
      refine (Keeps.lift _).bind fun source ↦ Triple.bind_lift (fun jump hjump ↦ ?_) fun _ hs ↦ hs
      refine (hfill padding _ (List.mem_append_right _ (List.mem_cons_self ..)) jump
        (X86.size_of_encodeJump hjump)).bind fun _ ↦ ?_
      exact hfill r.existingRva _ (List.mem_append_right _
        (List.mem_cons_of_mem _ (List.mem_singleton_self _))) _ rfl

/-- Installing a redirection changes nothing outside the ranges it says it replaces. -/
theorem keeps_install {l : Leeway} {t : Target} {r : FunctionRedirection}
    {existing : Mapping} (image : Mapping) {ranges : List (UInt32 × Nat)}
    (hr : r.overwritten = .ok ranges)
    (hP : ∀ range ∈ ranges, ∀ address, existing.address range.1 = .ok address →
      ∀ base i, t.memory.Touches address range.2 base i → l.places base i) :
    Keeps (t.Within l) (r.install existing image) :=
  r.keeps_install_of image hr fun rva bytes hrange ↦
    Mapping.keeps_write_of_touches (hP (rva, bytes.size) hrange)

/-- The start of the function is among the ranges that a redirection replaces. -/
theorem overwritten_ne_nil {r : FunctionRedirection} {ranges : List (UInt32 × Nat)}
    (hr : r.overwritten = .ok ranges) : ranges ≠ [] := by
  unfold overwritten at hr
  cases htechnique : r.technique with
  | direct covered =>
    rw [htechnique] at hr
    cases hr
    simp
  | indirection =>
    rw [htechnique] at hr
    cases hpadding : r.paddingRva with
    | error e =>
      rw [hpadding] at hr
      cases hr
    | ok padding =>
      rw [hpadding] at hr
      cases hr
      simp

end FunctionRedirection

namespace Staged

/-- A process in which a patch is being activated, from which what it was can be brought back. -/
structure Undoable (l : Leeway) (p : AttachedProcess) (s : Staged) : Prop where
  strayed : ({ p with redirected := s.process.redirected } : AttachedProcess).Within
    ⟨.all, l.held, [], l.allocates⟩ s.process
  code : ∃ m, Memory.writeAll s.undo.code s.process.target.memory = .ok m ∧
    p.target.memory.AgreesOff l.places m
  marks : s.process.redirected.filter (fun r ↦ !s.undo.marked.contains r) = p.redirected
  noted : s.undo.code = [] → s.undo.marked = []

variable {l : Leeway} {p : AttachedProcess}

/-- A process in which nothing was changed yet. -/
theorem undoable_ofProcess (places : Places) (allocates : Bool) (p : AttachedProcess) :
    Undoable ⟨places, 0, [], allocates⟩ p (.ofProcess p) :=
  ⟨.refl .., ⟨_, rfl, .refl ..⟩, by simp [ofProcess], fun _ ↦ rfl⟩

namespace Undoable

variable {s : Staged}

/-- A process stays undoable when it strays further at places that will be put back or need not
be. -/
theorem stray (h : Undoable l p s) {p' : AttachedProcess}
    (hs : s.process.Within ⟨fun base i ↦ l.places base i ∨
      s.process.target.memory.Covers s.undo.code base i, 0, [], l.allocates⟩ p') :
    Undoable l p { s with process := p' } := by
  obtain ⟨m, hm, hag⟩ := h.code
  obtain ⟨m', hm', hag'⟩ := hs.target.memory.writeAll hm
  refine ⟨?_, ⟨m', hm', hag.trans (hag'.mono fun r _ i hi ↦ hi.1.resolve_right hi.2)⟩, ?_, h.noted⟩
  · have hfurther := hs.mono_places .all fun _ _ _ ↦ trivial
    exact ⟨h.strayed.target.trans hfurther.target, hs.reacts.trans h.strayed.reacts,
      hs.commandThread.trans h.strayed.commandThread, hs.moduleBase.trans h.strayed.moduleBase, rfl⟩
  · rw [show p'.redirected = s.process.redirected from hs.redirected]
    exact h.marks

/-- The room of an image stays owned. -/
theorem owns (h : Undoable l p s) {registry : Registry} {token : Token}
    (hp : p.Owns registry token l.places) : s.process.Owns registry token l.places := by
  intro image himage
  rw [show s.process.pid = p.pid from h.strayed.target.pid] at himage
  have hroom := hp image himage
  exact ⟨h.strayed.target.memory.isFree hroom.isFree,
    h.strayed.target.memory.isMapped image.base ▸ hroom.isMapped⟩

end Undoable

/-- Work on the process that strays no further than the room of the patch keeps the process
undoable. -/
theorem keeps_onProcess {α : Type} {act : ProcessM α}
    (h : ∀ s, Undoable l p s → Keeps (s.process.Within ⟨l.places, 0, [], l.allocates⟩) act) :
    Keeps (Undoable l p) (onProcess act) := by
  apply Keeps.of_run
  intro s hs
  refine hs.stray (((h s hs).run (.refl l.places l.allocates s.process)).mono_places _ ?_)
  exact fun _ _ hi ↦ .inl hi

/-- The bytes of ranges of an image are noted. -/
def Notes (existing : Mapping) (ranges : List (UInt32 × Nat)) (undo : Undo) : Prop :=
  ∀ range ∈ ranges, ∃ saved ∈ undo.code, existing.address range.1 = .ok saved.1 ∧
    saved.2.size = range.2

/-- What working on the target of a process comes to. -/
theorem run_onTarget {α : Type} (act : TargetM α) (s : Staged) :
    (onTarget act).run s = ((act.run s.process.target).1,
      { s with process := { s.process with target := (act.run s.process.target).2 } }) := rfl

/-- What work on the target of a process guarantees there. -/
theorem triple_onTarget {α : Type} {act : TargetM α} {pre stop : Target → Prop}
    {post : α → Target → Prop} (h : Triple pre act post stop) :
    Triple (fun s : Staged ↦ pre s.process.target) (onTarget act)
      (fun a s ↦ post a s.process.target) fun s ↦ stop s.process.target := by
  intro s hs
  rw [run_onTarget]
  have hact := h s.process.target hs
  generalize act.run s.process.target = r at hact ⊢
  rcases r with ⟨_ | a, t⟩ <;> exact hact

/-- Noting bytes that stand in memory keeps a process undoable. -/
theorem Undoable.note {s : Staged} (h : Undoable l p s) {address : UInt64}
    {len : Nat} {bytes : Bytes} (hread : s.process.target.memory.read address len = .ok bytes) :
    Undoable l p { s with undo := { s.undo with code := (address, bytes) :: s.undo.code } } := by
  obtain ⟨m, hm, hag⟩ := h.code
  refine ⟨h.strayed, ⟨m, ?_, hag⟩, h.marks, fun h ↦ by cases h⟩
  exact Memory.writeAll_cons_eq_ok_iff.mpr ⟨_, Memory.write_of_read hread, hm⟩

/-- Noting the bytes of a range changes nothing else. -/
theorem triple_save (existing : Mapping) (rva : UInt32) (len : Nat)
    (ranges : List (UInt32 × Nat)) :
    Triple (fun s ↦ Undoable l p s ∧ Notes existing ranges s.undo) (save existing rva len)
      (fun _ s ↦ Undoable l p s ∧ Notes existing ((rva, len) :: ranges) s.undo) (Undoable l p) := by
  refine Triple.bind_lift (fun address ha ↦ ?_) fun _ hs ↦ hs.1
  intro s hs
  obtain ⟨hs, hnotes⟩ := hs
  have hread := Mapping.triple_read existing rva len s.process.target _ rfl
  rw [run_bind, run_onTarget]
  generalize (existing.read rva len).run s.process.target = r at hread ⊢
  have hstray : ∀ t, s.process.target.Within (.at .none) t →
      Undoable l p { s with process := { s.process with target := t } } := fun t ht ↦
    hs.stray ⟨⟨ht.pid, ht.refuses, ht.threads, ht.suspensions, fun _ ↦ ht.nextAllocation rfl,
      ht.memory.mono fun _ _ _ h ↦ h.elim⟩, rfl, rfl, rfl, rfl⟩
  rcases r with ⟨_ | bytes, t⟩
  · exact hstray t hread
  · obtain ⟨⟨address', ha', hread⟩, ht⟩ := hread
    rw [ha] at ha'
    cases ha'
    have hmemory : t.memory = s.process.target.memory := ht.memory.eq.symm
    refine ⟨(hstray t ht).note (hmemory ▸ hread), ?_⟩
    intro range hrange
    rcases List.mem_cons.mp hrange with rfl | hrange
    · exact ⟨(address, bytes), List.mem_cons_self .., ha, Memory.size_of_read hread⟩
    · obtain ⟨saved, hmem, heq⟩ := hnotes range hrange
      exact ⟨saved, List.mem_cons_of_mem _ hmem, heq⟩

/-- Noting the bytes of ranges, one after another, changes nothing else. -/
theorem triple_saveAll (existing : Mapping) (ranges noted : List (UInt32 × Nat)) :
    Triple (fun s ↦ Undoable l p s ∧ Notes existing noted s.undo)
      (ranges.forM fun (rva, len) ↦ save existing rva len)
      (fun _ s ↦ Undoable l p s ∧ Notes existing (ranges.reverse ++ noted) s.undo) (Undoable l p) := by
  induction ranges generalizing noted with
  | nil => exact Triple.pure fun _ hs ↦ hs
  | cons range ranges ih =>
    refine Triple.bind (triple_save existing range.1 range.2 noted) fun _ ↦ ?_
    refine (ih (range :: noted)).mono (fun _ hs ↦ hs) (fun _ s hs ↦ ?_) fun _ hs ↦ hs
    rwa [List.reverse_cons, List.append_assoc]

/-- Noting a mark keeps a process undoable, once code is noted. -/
theorem Undoable.noteMark {s : Staged} (h : Undoable l p s) (hcode : s.undo.code ≠ [])
    (start : UInt64) (hstart : s.process.isRedirected start = false) :
    Undoable l p { s with undo := { s.undo with marked := start :: s.undo.marked } } := by
  refine ⟨h.strayed, h.code, ?_, fun hnil ↦ absurd hnil hcode⟩
  rw [← h.marks]
  apply List.filter_congr
  intro r hr
  have hne : r ≠ start := by
    rintro rfl
    rw [AttachedProcess.isRedirected, List.contains_eq_mem, decide_eq_false_iff_not] at hstart
    exact hstart hr
  simp [hne]

/-- What noting a mark comes to. -/
theorem run_noteMark (start : UInt64) (s : Staged) :
    (noteMark start).run s = (.ok ⟨⟩, if s.process.isRedirected start then s
      else { s with undo := { s.undo with marked := start :: s.undo.marked } }) := rfl

/-- What setting a mark comes to. -/
theorem run_mark (start : UInt64) (s : Staged) :
    (onProcess (AttachedProcess.mark start)).run s = (.ok ⟨⟩, { s with
      process := if s.process.isRedirected start then s.process
        else { s.process with redirected := start :: s.process.redirected } }) := rfl

/-- Setting a mark that is noted keeps a process undoable. -/
theorem Undoable.mark {s : Staged} (h : Undoable l p s) {start : UInt64}
    (hstart : start ∈ s.undo.marked) :
    Undoable l p { s with process := { s.process with redirected := start :: s.process.redirected } } := by
  refine ⟨⟨h.strayed.target, h.strayed.reacts, h.strayed.commandThread, h.strayed.moduleBase, rfl⟩,
    h.code, ?_, h.noted⟩
  rw [← h.marks]
  simp [hstart]

/-- Once the ranges that a redirection replaces are noted, installing it keeps a process
undoable. -/
theorem keeps_install {r : FunctionRedirection} (existing : Mapping) (image : Mapping)
    {ranges : List (UInt32 × Nat)} (hr : r.overwritten = .ok ranges)
    (Q : List UInt64 → Undo → Prop) (hQ : ∀ redirected undo, Q redirected undo →
      Notes existing ranges undo) :
    Keeps (fun s ↦ Undoable l p s ∧ Q s.process.redirected s.undo)
      (onTarget (r.install existing image)) := by
  apply Keeps.of_run
  intro s hs
  obtain ⟨hs, hnotes⟩ := hs
  have hinstall : Keeps (s.process.target.Within ⟨fun base i ↦ l.places base i ∨
      s.process.target.memory.Covers s.undo.code base i, 0, [], l.allocates⟩)
      (r.install existing image) := by
    refine r.keeps_install image hr fun range hrange address ha base i hi ↦ ?_
    obtain ⟨saved, hmem, ha', hsize⟩ := hQ _ _ hnotes range hrange
    rw [ha] at ha'
    cases ha'
    exact .inr ⟨saved, hmem, hsize ▸ hi⟩
  exact ⟨hs.stray ((AttachedProcess.keeps_onTarget hinstall).run (.refl _ l.allocates s.process)),
    hnotes⟩

end Staged

namespace PatchSteps

variable {l : Leeway} {p : AttachedProcess}

/-- Redirecting a function keeps a process undoable, wherever it stops. -/
theorem keeps_redirectFunction (registry : Registry) (image : Mapping)
    (ips : List UInt64) (checks : Bool) (r : FunctionRedirection) :
    Keeps (Staged.Undoable l p) (redirectFunction registry image ips checks r) := by
  refine Triple.bind_get fun s hs ↦ Triple.mono ?_ (fun _ h ↦ h ▸ hs) (fun _ _ h ↦ h) fun _ h ↦ h
  split
  · exact Keeps.pure _
  · next existing _ =>
    refine Keeps.bind (Keeps.lift _) fun start ↦ Keeps.bind (Keeps.lift _) fun isUnsafe ↦ ?_
    split
    · exact Keeps.pure _
    · refine Triple.bind_lift (fun ranges hranges ↦ ?_) fun _ h ↦ h
      have hsave := (Staged.triple_saveAll (l := l) existing ranges []).mono
        (fun s (hs : Staged.Undoable l p s) ↦ ⟨hs, fun _ h ↦ by cases h⟩) (fun _ _ h ↦ h) fun _ h ↦ h
      refine Triple.bind hsave fun _ ↦ Triple.bind (R := fun _ s ↦ Staged.Undoable l p s ∧
        Staged.Notes existing ranges s.undo ∧
        (start ∈ s.process.redirected ∨ start ∈ s.undo.marked)) (fun s hs ↦ ?_) fun _ ↦ ?_
      · obtain ⟨hs, hnotes⟩ := hs
        rw [List.append_nil] at hnotes
        have hnotes : Staged.Notes existing ranges s.undo := fun range hrange ↦
          hnotes range (List.mem_reverse.mpr hrange)
        have hcode : s.undo.code ≠ [] := by
          obtain ⟨range, hrange⟩ :=
            List.exists_mem_of_ne_nil _ (FunctionRedirection.overwritten_ne_nil hranges)
          obtain ⟨saved, hsaved, -⟩ := hnotes range hrange
          exact List.ne_nil_of_mem hsaved
        cases hstart : s.process.isRedirected start with
        | true =>
          rw [Staged.run_noteMark, hstart]
          exact ⟨hs, hnotes, .inl (by simpa [AttachedProcess.isRedirected] using hstart)⟩
        | false =>
          rw [Staged.run_noteMark, hstart]
          exact ⟨hs.noteMark hcode start hstart, hnotes, .inr (List.mem_cons_self ..)⟩
      · have hinstall := Staged.keeps_install (l := l) (p := p) existing image
          hranges (fun redirected undo ↦ Staged.Notes existing ranges undo ∧
            (start ∈ redirected ∨ start ∈ undo.marked)) fun _ _ h ↦ h.1
        refine Triple.bind (hinstall.mono (fun _ h ↦ h) (fun _ _ h ↦ h) fun _ h ↦ h.1)
          fun _ s hs ↦ ?_
        obtain ⟨hs, -, hmark⟩ := hs
        rw [Staged.run_mark]
        cases hstart : s.process.isRedirected start with
        | true => exact hs
        | false =>
          refine hs.mark (hmark.resolve_left fun hmem ↦ ?_)
          rw [AttachedProcess.isRedirected, List.contains_eq_mem, decide_eq_false_iff_not] at hstart
          exact hstart hmem

/-- Redirecting a library function changes nothing outside the patch. -/
theorem keeps_redirectLibraryFunction {registry : Registry} {image : Mapping}
    (himage : image.IsOwned l.places p.target) (r : LibraryRedirection) :
    Keeps (Staged.Undoable l p) (redirectLibraryFunction registry image r) := by
  refine Triple.bind_get fun s hs ↦ Triple.mono ?_ (fun _ h ↦ h ▸ hs) (fun _ _ h ↦ h) fun _ h ↦ h
  split
  · exact Keeps.pure _
  · refine Staged.keeps_onProcess fun s hs ↦ AttachedProcess.keeps_onTarget ?_
    refine (Keeps.lift _).bind fun _ ↦ (Keeps.lift _).bind fun _ ↦ (Keeps.lift _).bind fun _ ↦ ?_
    have himage' : image.IsOwned l.places s.process.target :=
      ⟨hs.strayed.target.memory.isFree himage.isFree,
        hs.strayed.target.memory.isMapped image.base ▸ himage.isMapped⟩
    exact Mapping.keeps_write (l := ⟨l.places, 0, [], l.allocates⟩) himage' _ _

/-- Redirecting functions keeps a process undoable, at whichever of them it stops. -/
theorem keeps_redirectFunctions {registry : Registry} (patch : PatchRecord)
    (hown : p.Owns registry patch.token l.places) (ips : List UInt64) (checks : Bool) :
    Keeps (Staged.Undoable l p) (redirectFunctions registry patch ips checks) := by
  refine Triple.bind_get fun s hs ↦ Triple.mono ?_ (fun _ h ↦ h ▸ hs) (fun _ _ h ↦ h) fun _ h ↦ h
  rw [show s.process.pid = p.pid from hs.strayed.target.pid]
  cases himage : registry.mapping? p.pid patch.token with
  | none => exact Keeps.pure _
  | some image =>
    exact (Keeps.forM fun r _ ↦ keeps_redirectFunction registry image ips checks r).bind fun _ ↦
      Keeps.forM fun r _ ↦ keeps_redirectLibraryFunction (hown image himage) r

end PatchSteps

namespace Staged

variable {l : Leeway} {p : AttachedProcess}

/-- Putting bytes back always works where they can be put back. -/
theorem triple_putBack {t : Target} (ht : t.gate.IsTolerant) (hl : l.places = .all)
    (saved : UInt64 × Bytes) (m : Memory) :
    Triple (fun s ↦ t.Within l s ∧ s.memory.write saved.1 saved.2 = .ok m) (putBack saved)
      (fun _ s ↦ t.Within l s ∧ s.memory = m) fun _ ↦ False := by
  have hwrite : Triple (fun s ↦ t.Within l s ∧ s.memory.write saved.1 saved.2 = .ok m)
      (Target.writeMemory saved.1 saved.2) (fun _ s ↦ t.Within l s ∧ s.memory = m)
      fun _ ↦ False := by
    refine Triple.bind (Target.triple_pass_memory ht (by simp)
      fun memory ↦ memory.write saved.1 saved.2 = .ok m) fun _ ↦
      Triple.bind_get fun s hs ↦ Triple.bind_ok hs.2 (Triple.set fun _ _ ↦ ⟨?_, rfl⟩)
    obtain ⟨hs, hm⟩ := hs
    refine ⟨hs.pid, hs.refuses, hs.threads, hs.suspensions, hs.nextAllocation, ?_⟩
    rw [hl]
    exact (hl ▸ hs.memory).trans
      ((Memory.agreesOff_write hm).mono fun _ _ _ _ ↦ trivial)
  refine Triple.bind hwrite fun _ ↦ Triple.bind (Target.triple_pass_memory ht (by simp) (· = m))
    fun _ ↦ Triple.modify fun s hs ↦ ?_
  obtain ⟨hs, hm⟩ := hs
  exact ⟨⟨hs.pid, hs.refuses, hs.threads, hs.suspensions, hs.nextAllocation, hs.memory⟩, hm⟩

/-- Putting noted code back always works and gives the memory it would give. -/
theorem triple_putBackCode (hp : p.target.gate.IsTolerant) (hl : l.places = .all)
    (log : List (UInt64 × Bytes)) (m : Memory) :
    Triple (fun s ↦ p.Within l s ∧ Memory.writeAll log s.target.memory = .ok m)
      (log.forM fun saved ↦ AttachedProcess.onTarget (putBack saved))
      (fun _ s ↦ p.Within l s ∧ s.target.memory = m) fun _ ↦ False := by
  induction log with
  | nil =>
    refine Triple.pure fun s hs ↦ ⟨hs.1, ?_⟩
    cases hs.2
    rfl
  | cons saved log ih =>
    refine Triple.of_pre fun s hs ↦ ?_
    obtain ⟨next, hwrite, hrest⟩ := Memory.writeAll_cons_eq_ok_iff.mp hs.2
    have hhead := AttachedProcess.triple_onTarget_memory (p := p)
      (Q := fun memory ↦ memory.write saved.1 saved.2 = .ok next) (R := (· = next))
      (triple_putBack hp hl saved next)
    refine Triple.bind (hhead.mono (fun _ h ↦ h ▸ ⟨hs.1, hwrite⟩) (fun _ _ h ↦ h) fun _ h ↦ h)
      fun _ ↦ ih.mono (fun s h ↦ ⟨h.1, h.2 ▸ hrest⟩) (fun _ _ h ↦ h) fun _ h ↦ h

/-- What taking back marks comes to. -/
theorem run_unmarkAll (marked : List UInt64) (p : AttachedProcess) :
    (marked.forM AttachedProcess.unmark).run p = (.ok ⟨⟩,
      { p with redirected := p.redirected.filter fun r ↦ !marked.contains r }) := by
  induction marked generalizing p with
  | nil => simp [List.forM]
  | cons start marked ih =>
    change (AttachedProcess.unmark start >>= fun _ ↦ marked.forM AttachedProcess.unmark).run p = _
    rw [run_bind, AttachedProcess.unmark, run_modify]
    simp only
    rw [ih, List.filter_filter]
    congr 3
    funext r
    rw [List.contains_cons, Bool.not_or, Bool.and_comm]
    rfl

/-- Putting everything back that was noted leaves a process as it was, but for the room of the
patch. -/
theorem Undoable.within_putBackAll {s : Staged} (h : Undoable l p s) (hp : p.target.gate.IsTolerant) :
    p.Within ⟨l.places, l.held, [], l.allocates⟩ ((putBackAll s.undo).run s.process).2 := by
  obtain ⟨m, hm, hag⟩ := h.code
  -- the redirections on top are taken back last, so they are part of the state to stray from
  let q : AttachedProcess := { p with redirected := s.process.redirected }
  have hq : q.target.gate.IsTolerant := hp
  have hsuspend := AttachedProcess.triple_onTarget_memory (p := q)
    (Q := fun memory ↦ Memory.writeAll s.undo.code memory = .ok m)
    (R := fun memory ↦ Memory.writeAll s.undo.code memory = .ok m)
    (Target.triple_suspend_memory (l := ⟨.all, l.held, [], l.allocates⟩) hq
      fun memory ↦ Memory.writeAll s.undo.code memory = .ok m)
  have hcode := triple_putBackCode (l := ⟨.all, l.held + 1, [], l.allocates⟩) hq rfl s.undo.code m
  have hresume := AttachedProcess.triple_onTarget_memory (p := p) (Q := (· = m)) (R := (· = m))
    (Target.triple_resume_memory (l := ⟨.all, l.held, [], l.allocates⟩) hp (· = m))
  have hall : Triple (fun s' ↦ q.Within ⟨.all, l.held, [], l.allocates⟩ s' ∧
      Memory.writeAll s.undo.code s'.target.memory = .ok m) (putBackAll s.undo)
      (fun _ s' ↦ p.Within ⟨.all, l.held, [], l.allocates⟩ s' ∧ s'.target.memory = m)
      fun _ ↦ False := by
    refine Triple.bind hsuspend fun _ ↦ Triple.ensuring (Triple.bind hcode fun _ s' hs' ↦ ?_)
      (R := fun _ s' ↦ p.Within ⟨.all, l.held + 1, [], l.allocates⟩ s' ∧ s'.target.memory = m)
      (fun _ s' hs' ↦ hresume.run_of_ok hs') fun _ h ↦ h
    rw [run_unmarkAll]
    obtain ⟨hs', hmemory⟩ := hs'
    refine ⟨⟨hs'.target, hs'.reacts, hs'.commandThread, hs'.moduleBase, ?_⟩, hmemory⟩
    rw [show s'.redirected = s.process.redirected from hs'.redirected]
    exact h.marks
  obtain ⟨hend, hmemory⟩ := hall.run_of_ok ⟨h.strayed, hm⟩
  refine ⟨⟨hend.target.pid, hend.target.refuses, hend.target.threads, hend.target.suspensions,
    hend.target.nextAllocation, ?_⟩, hend.reacts, hend.commandThread, hend.moduleBase,
    hend.redirected⟩
  rw [hmemory]
  exact hag

/-- Reverting an activation leaves a process as it was, but for the room of the patch. -/
theorem Undoable.within_revert {s : Staged} (h : Undoable l p s) (hp : p.target.gate.IsTolerant)
    (files : FileTree) : p.Within ⟨l.places, l.held, [], l.allocates⟩ (revert files s) := by
  have hputBack : p.Within ⟨l.places, l.held, [], l.allocates⟩
      (if s.undo.code.isEmpty then s.process else ((putBackAll s.undo).run s.process).2) := by
    split
    · next hempty =>
      obtain ⟨m, hm, hag⟩ := h.code
      have hcode : s.undo.code = [] := by simpa using hempty
      rw [hcode] at hm
      cases hm
      have hmarks := h.marks
      rw [h.noted hcode, List.filter_eq_self.mpr (by simp)] at hmarks
      exact ⟨⟨h.strayed.target.pid, h.strayed.target.refuses, h.strayed.target.threads,
        h.strayed.target.suspensions, h.strayed.target.nextAllocation, hag⟩, h.strayed.reacts,
        h.strayed.commandThread, h.strayed.moduleBase, hmarks⟩
    · exact h.within_putBackAll hp
  unfold revert
  dsimp only
  split
  · exact (AttachedProcess.keeps_tell files rfl).run hputBack
  · exact hputBack

end Staged
end LivePatch
