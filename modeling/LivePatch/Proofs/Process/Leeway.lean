import LivePatch.Process.Mapping
import LivePatch.Proofs.Memory.Agreement
import LivePatch.Proofs.Triple

/-!
# Leeway of a process

How far a process may stray from an earlier state of it: the places of memory that may differ, how
many suspensions are on top, which threads may have been moved and whether an allocation may have
been made. Every call of the engine keeps a process within a leeway, and work done while the process
is suspended needs one suspension more of it.
-/

namespace LivePatch

/-- How far a process may stray from an earlier state of it. -/
structure Leeway where
  places : Places
  held : Nat
  moved : List UInt32
  allocates : Bool

/-- No thread was moved, no suspension is left and nothing was allocated. -/
def Leeway.at (places : Places) : Leeway := ⟨places, 0, [], false⟩

/-- One thread before and after, which may run elsewhere if it was moved. -/
structure Thread.AgreesOff (moved : List UInt32) (th th' : Thread) : Prop where
  id : th.id = th'.id
  same : th.id ∉ moved → th = th'

/-- A process that strayed no further from an earlier state of it than a leeway allows. -/
structure Target.Within (l : Leeway) (t t' : Target) : Prop where
  pid : t'.pid = t.pid
  refuses : t'.gate.refuses = t.gate.refuses
  threads : List.Forall₂ (Thread.AgreesOff l.moved) t.threads t'.threads
  suspensions : t'.suspensions = t.suspensions + l.held
  nextAllocation : l.allocates = false → t'.nextAllocation = t.nextAllocation
  memory : t.memory.AgreesOff l.places t'.memory

/-- A gate that refuses none of the calls that taking back is made of. -/
def Gate.IsTolerant (g : Gate) : Prop :=
  ∀ c n, c.name ∈ [.suspend, .resume, .writeMemory, .flushInstructionCache, .setThreadContext,
    .setThreadPriority, .free] → g.refuses c n = false

namespace Target

variable {l : Leeway} {t t' : Target}

/-- A process strays nowhere from itself. -/
theorem Within.refl (places : Places) (allocates : Bool) (t : Target) :
    t.Within ⟨places, 0, [], allocates⟩ t :=
  ⟨rfl, rfl, List.forall₂_same.mpr fun _ _ ↦ ⟨rfl, fun _ ↦ rfl⟩, rfl, fun _ ↦ rfl, .refl ..⟩

/-- Identifiers of threads never change. -/
theorem Within.threadIds (h : t.Within l t') :
    t.threads.map Thread.id = t'.threads.map Thread.id := by
  rw [← List.forall₂_eq_eq_eq, List.forall₂_map_left_iff, List.forall₂_map_right_iff]
  exact List.Forall₂.imp (fun _ _ hth ↦ hth.id) h.threads

/-- A process whose threads were not moved has the threads it had. -/
theorem Within.threads_eq (h : t.Within l t') (hl : l.moved = []) : t'.threads = t.threads := by
  symm
  refine List.forall₂_eq_eq_eq ▸ List.Forall₂.imp ?_ h.threads
  intro th th' hth
  exact hth.same (by rw [hl]; exact List.not_mem_nil)

/-- A gate is as tolerant as it was. -/
theorem Within.isTolerant (h : t.Within l t') (ht : t.gate.IsTolerant) : t'.gate.IsTolerant := by
  unfold Gate.IsTolerant
  rw [h.refuses]
  exact ht

/-- A process that strayed twice. -/
theorem Within.trans {t'' : Target} {held : Nat} (h : t.Within l t')
    (h' : t'.Within ⟨l.places, held, [], l.allocates⟩ t'') :
    t.Within { l with held := l.held + held } t'' := by
  refine ⟨h'.pid.trans h.pid, h'.refuses.trans h.refuses, ?_, ?_, ?_, h.memory.trans h'.memory⟩
  · rw [h'.threads_eq rfl]
    exact h.threads
  · rw [h'.suspensions, h.suspensions, Nat.add_assoc]
  · exact fun hl ↦ (h'.nextAllocation hl).trans (h.nextAllocation hl)

/-- A process within a leeway is within one that lets more places differ. -/
theorem Within.mono_places (h : t.Within l t') (places : Places)
    (hP : ∀ base i, l.places base i → places base i) :
    t.Within { l with places := places } t' :=
  ⟨h.pid, h.refuses, h.threads, h.suspensions, h.nextAllocation,
    h.memory.mono fun _ _ _ hi ↦ hP _ _ hi⟩

/-- What a call at the gate comes to. -/
theorem run_pass (c : Call) (t : Target) :
    (pass c).run t = (if t.gate.refuses c (t.gate.count c.name)
      then .error (.error (Cause.refused c.name).toError) else .ok (),
      { t with gate := t.gate.counted c.name }) := by
  simp only [pass, run_bind, run_get, run_set]
  split <;> rfl

/-- Passing the gate is no change that a leeway sees. -/
theorem keeps_pass (c : Call) (t : Target) : Keeps (t.Within l) (pass c) := by
  apply Keeps.of_run
  intro s hs
  rw [run_pass]
  exact ⟨hs.pid, hs.refuses, hs.threads, hs.suspensions, hs.nextAllocation, hs.memory⟩

/-- A call that taking back is made of passes the gate and leaves the memory alone. -/
theorem triple_pass_memory {c : Call} (ht : t.gate.IsTolerant)
    (hc : c.name ∈ [CallName.suspend, .resume, .writeMemory, .flushInstructionCache,
      .setThreadContext, .setThreadPriority, .free]) (Q : Memory → Prop) :
    Triple (fun s ↦ t.Within l s ∧ Q s.memory) (pass c) (fun _ s ↦ t.Within l s ∧ Q s.memory)
      fun _ ↦ False := by
  intro s hs
  have hk := (keeps_pass c t).run hs.1
  rw [run_pass] at hk ⊢
  rw [hs.1.refuses, ht c _ hc]
  exact ⟨hk, hs.2⟩

/-- A call that taking back is made of passes the gate. -/
theorem triple_pass {c : Call} (ht : t.gate.IsTolerant)
    (hc : c.name ∈ [CallName.suspend, .resume, .writeMemory, .flushInstructionCache,
      .setThreadContext, .setThreadPriority, .free]) :
    Triple (t.Within l) (pass c) (fun _ ↦ t.Within l) fun _ ↦ False :=
  (triple_pass_memory ht hc fun _ ↦ True).mono (fun _ hs ↦ ⟨hs, trivial⟩) (fun _ _ hs ↦ hs.1)
    fun _ hs ↦ hs

theorem keeps_readMemory (address : UInt64) (len : Nat) :
    Keeps (t.Within l) (readMemory address len) :=
  (keeps_pass _ t).bind fun _ ↦ Keeps.get.bind fun _ ↦ Keeps.lift _

theorem keeps_flush : Keeps (t.Within l) flush :=
  (keeps_pass _ t).bind fun _ ↦ Keeps.modify fun _ hs ↦
    ⟨hs.pid, hs.refuses, hs.threads, hs.suspensions, hs.nextAllocation, hs.memory⟩

/-- The flush of a process whose gate is tolerant always works. -/
theorem triple_flush (ht : t.gate.IsTolerant) :
    Triple (t.Within l) flush (fun _ ↦ t.Within l) fun _ ↦ False :=
  (triple_pass ht (by simp)).bind fun _ ↦ Triple.modify fun _ hs ↦
    ⟨hs.pid, hs.refuses, hs.threads, hs.suspensions, hs.nextAllocation, hs.memory⟩

/-- The identifiers of the threads are those that were there. -/
theorem triple_threadIds :
    Triple (t.Within l) threadIds (fun ids s ↦ ids = t.threads.map Thread.id ∧ t.Within l s)
      (t.Within l) :=
  Triple.bind (keeps_pass _ t) fun _ ↦ Triple.bind_get fun _ hs ↦ Triple.pure fun _ hs' ↦
    ⟨hs.threadIds.symm, hs' ▸ hs⟩

theorem keeps_threadIds : Keeps (t.Within l) threadIds :=
  triple_threadIds.mono (fun _ hs ↦ hs) (fun _ _ hs ↦ hs.2) fun _ hs ↦ hs

theorem keeps_thread (id : UInt32) : Keeps (t.Within l) (thread id) :=
  Keeps.get.bind fun _ ↦ Keeps.lift _

theorem keeps_threadIp (id : UInt32) : Keeps (t.Within l) (threadIp id) :=
  (keeps_pass _ t).bind fun _ ↦ (keeps_thread id).bind fun _ ↦ Keeps.pure _

theorem keeps_isRangeFree (address size : UInt64) :
    Keeps (t.Within l) (isRangeFree address size) :=
  (keeps_pass _ t).bind fun _ ↦ Keeps.get.bind fun _ ↦ Keeps.lift _

theorem keeps_threadIps : Keeps (t.Within l) threadIps :=
  keeps_threadIds.bind fun _ ↦ Keeps.mapM fun id _ ↦ keeps_threadIp id

/-- A write strays no further when its window lies in the places that may differ. -/
theorem keeps_writeMemory {address : UInt64} {bytes : Bytes}
    (hw : ∀ base i, t.memory.Touches address bytes.size base i → l.places base i) :
    Keeps (t.Within l) (writeMemory address bytes) := by
  refine (keeps_pass _ t).bind fun _ ↦ Triple.bind_get fun s hs ↦
    Triple.bind_lift (fun memory hm ↦ Triple.set fun _ _ ↦ ?_) fun _ hs' ↦ hs' ▸ hs
  refine ⟨hs.pid, hs.refuses, hs.threads, hs.suspensions, hs.nextAllocation, ?_⟩
  refine hs.memory.trans (.mono (Memory.agreesOff_write hm) fun r _ i hi ↦ ?_)
  rw [← hs.memory.touches] at hi
  exact hw _ _ hi

/-- Suspending a process whose gate is tolerant always works and leaves the memory alone. -/
theorem triple_suspend_memory (ht : t.gate.IsTolerant) (Q : Memory → Prop) :
    Triple (fun s ↦ t.Within l s ∧ Q s.memory) suspend
      (fun _ s ↦ t.Within { l with held := l.held + 1 } s ∧ Q s.memory) fun _ ↦ False := by
  refine (triple_pass_memory ht (by simp) Q).bind fun _ ↦ Triple.modify fun s ⟨hs, hQ⟩ ↦ ⟨?_, hQ⟩
  exact ⟨hs.pid, hs.refuses, hs.threads, by simp [hs.suspensions, Nat.add_assoc],
    hs.nextAllocation, hs.memory⟩

/-- Suspending a process whose gate is tolerant always works. -/
theorem triple_suspend (ht : t.gate.IsTolerant) :
    Triple (t.Within l) suspend (fun _ ↦ t.Within { l with held := l.held + 1 }) fun _ ↦ False :=
  (triple_suspend_memory ht fun _ ↦ True).mono (fun _ hs ↦ ⟨hs, trivial⟩) (fun _ _ hs ↦ hs.1)
    fun _ hs ↦ hs

/-- Resuming a process that is held and whose gate is tolerant always works and leaves the memory
alone. -/
theorem triple_resume_memory (ht : t.gate.IsTolerant) (Q : Memory → Prop) :
    Triple (fun s ↦ t.Within { l with held := l.held + 1 } s ∧ Q s.memory) resume
      (fun _ s ↦ t.Within l s ∧ Q s.memory) fun _ ↦ False := by
  refine (triple_pass_memory ht (by simp) Q).bind fun _ ↦ Triple.bind_get fun s ⟨hs, hQ⟩ ↦ ?_
  have hheld : s.suspensions = t.suspensions + (l.held + 1) := hs.suspensions
  rw [if_neg (by omega)]
  refine Triple.set fun _ _ ↦
    ⟨⟨hs.pid, hs.refuses, hs.threads, ?_, hs.nextAllocation, hs.memory⟩, hQ⟩
  simp only [hheld]
  omega

/-- Resuming a process that is held and whose gate is tolerant always works. -/
theorem triple_resume (ht : t.gate.IsTolerant) :
    Triple (t.Within { l with held := l.held + 1 }) resume (fun _ ↦ t.Within l) fun _ ↦ False :=
  (triple_resume_memory ht fun _ ↦ True).mono (fun _ hs ↦ ⟨hs, trivial⟩) (fun _ _ hs ↦ hs.1)
    fun _ hs ↦ hs

/-- A suspension less after a resumption, whatever the work before came to. -/
theorem Within.resume {s : Target} (ht : t.gate.IsTolerant)
    (hs : t.Within { l with held := l.held + 1 } s) : t.Within l (Target.resume.run s).2 :=
  (triple_resume ht).run_of_ok hs

/-- Work done while a process is suspended, followed by a resumption. -/
theorem triple_suspended {α : Type} {act : TargetM α} {mid post : α → Target → Prop}
    {midStop stop : Target → Prop} (ht : t.gate.IsTolerant)
    (h : Triple (t.Within { l with held := l.held + 1 }) act mid midStop)
    (hok : ∀ a s, mid a s → post a (Target.resume.run s).2)
    (hstop : ∀ s, midStop s → stop (Target.resume.run s).2) :
    Triple (t.Within l) (suspended act) post stop :=
  ((triple_suspend ht).mono (fun _ hs ↦ hs) (fun _ _ hs ↦ hs) fun _ hs ↦ hs.elim).bind
    fun _ ↦ h.ensuring hok hstop

/-- Work done while a process is suspended strays no further than it does. -/
theorem keeps_suspended {α : Type} {act : TargetM α} (ht : t.gate.IsTolerant)
    (h : Keeps (t.Within { l with held := l.held + 1 }) act) :
    Keeps (t.Within l) (suspended act) :=
  triple_suspended ht h (fun _ _ hs ↦ hs.resume ht) fun _ hs ↦ hs.resume ht

end Target

/-- A mapped image whose room holds no region but those that may differ. -/
structure Mapping.IsOwned (image : Mapping) (places : Places) (t : Target) : Prop where
  isFree : t.memory.IsFree (fun base ↦ ∀ i, places base i) image.base image.size.toNat
  isMapped : t.memory.isMapped image.base = true

namespace Mapping

variable {l : Leeway} {t : Target} {image : Mapping}

/-- An address inside an image lies in its room. -/
theorem address_eq_ok {rva : UInt32} {address : UInt64} (h : image.address rva = .ok address) :
    address.toNat = image.base.toNat + rva.toNat ∧ rva.toNat < image.size.toNat := by
  unfold Mapping.address at h
  split at h
  · next hlt =>
    cases ha : Word.add64? image.base rva.toUInt64 with
    | none =>
      rw [ha] at h
      cases h
    | some a =>
      rw [ha] at h
      cases h
      refine ⟨?_, UInt32.lt_iff_toNat_lt.mp hlt⟩
      rw [Word.toNat_of_add64? ha, UInt32.toNat_toUInt64]
  · cases h

theorem keeps_read (rva : UInt32) (len : Nat) : Keeps (t.Within l) (image.read rva len) :=
  (Keeps.lift _).bind fun _ ↦ (Keeps.lift _).bind fun _ ↦
    (Target.keeps_readMemory _ len).inContext

theorem keeps_readWord (rva : UInt32) : Keeps (t.Within l) (image.readWord rva) :=
  (keeps_read rva 8).bind fun _ ↦ Keeps.pure _

/-- A write into an image strays no further when the places it touches may differ. -/
theorem keeps_write_of_touches {rva : UInt32} {bytes : Bytes}
    (hw : ∀ address, image.address rva = .ok address →
      ∀ base i, t.memory.Touches address bytes.size base i → l.places base i) :
    Keeps (t.Within l) (image.write rva bytes) :=
  (Keeps.lift _).bind fun _ ↦ Triple.bind_lift (fun address ha ↦
    (Target.keeps_writeMemory (hw address ha)).inContext.bind fun _ ↦ Target.keeps_flush)
    fun _ hs ↦ hs

/-- A write into an image whose room is owned changes nothing else. -/
theorem keeps_write (himage : image.IsOwned l.places t) (rva : UInt32)
    (bytes : Bytes) : Keeps (t.Within l) (image.write rva bytes) := by
  refine keeps_write_of_touches fun address ha base i ↦ ?_
  rintro ⟨r, start, hw, rfl, -, -⟩
  obtain ⟨hlo, hhi⟩ := address_eq_ok ha
  exact Memory.own_of_window himage.isFree himage.isMapped (by omega) (by omega) hw i

theorem keeps_writeWord (himage : image.IsOwned l.places t) (rva : UInt32)
    (value : UInt64) : Keeps (t.Within l) (image.writeWord rva value) :=
  keeps_write himage rva _

end Mapping
end LivePatch
