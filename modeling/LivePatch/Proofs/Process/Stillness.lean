import LivePatch.Proofs.Outcome
import LivePatch.Proofs.Process.Cave

/-!
# Still processes

A process is only edited while nothing else runs in it: while it is suspended, or while every thread
but the one that serves commands spins in a cave. The log of its writes tells, since each write is
logged with the suspensions and the threads of its moment. Work that begins in a process leaves it
as it was found, however it ends: no suspension is left and no thread stays in a cave.
-/

namespace LivePatch

/-- A gate that refuses none of the calls by which a process is let run again. -/
def Gate.LetsGo (g : Gate) : Prop :=
  ∀ c n, c.name ∈ [CallName.suspend, .resume, .setThreadContext, .setThreadPriority] →
    g.refuses c n = false

/-- Every thread but the one that serves commands spins in a page. -/
def AreParked (page : UInt64) (command : Option UInt32) (threads : List Thread) : Prop :=
  ∀ th ∈ threads, some th.id ≠ command → th.ip = page ∧ th.priority = Target.lowestPriority

/-- The write that makes a cave of a page which was allocated between two moments. -/
structure Edit.OpensCave (start stop : UInt64) (e : Edit) : Prop where
  bytes : e.bytes = Cave.spin
  start_le : start ≤ e.address
  lt_stop : e.address < stop

/-- Writes since a process was as it is in `b`, all of which were made while nothing else ran: each
was made while the process was held by a suspension more than it was held by in `b`, or while every
thread but the one that serves commands spun in a cave that was opened since. Only the writes that
opened those caves were not, and they went to pages which were allocated since. -/
inductive IsGuarded (b : Target) (command : Option UInt32) (limit : UInt64) : List Edit → Prop where
  | start : IsGuarded b command limit b.edits
  | opens {log : List Edit} {e : Edit} (hlog : IsGuarded b command limit log)
      (he : e.OpensCave b.nextAllocation limit) : IsGuarded b command limit (e :: log)
  | held {log : List Edit} {e : Edit} (hlog : IsGuarded b command limit log)
      (he : b.suspensions < e.suspensions) : IsGuarded b command limit (e :: log)
  | parked {log : List Edit} {e cave : Edit} (hlog : IsGuarded b command limit log)
      (hcave : cave ∈ log) (hopens : cave.OpensCave b.nextAllocation limit)
      (he : AreParked cave.address command e.threads) : IsGuarded b command limit (e :: log)

section Limits

variable {b : Target} {command : Option UInt32} {start limit limit' : UInt64} {log : List Edit}

theorem Edit.OpensCave.mono {e : Edit} (h : e.OpensCave start limit) (hlimit : limit ≤ limit') :
    e.OpensCave start limit' :=
  ⟨h.bytes, h.start_le, UInt64.lt_of_lt_of_le h.lt_stop hlimit⟩

/-- Later allocations take nothing away. -/
theorem IsGuarded.mono (h : IsGuarded b command limit log) (hlimit : limit ≤ limit') :
    IsGuarded b command limit' log := by
  induction h with
  | start => exact .start
  | opens _ he ih => exact ih.opens (he.mono hlimit)
  | held _ he ih => exact ih.held he
  | parked _ hcave hopens he ih => exact ih.parked hcave (hopens.mono hlimit) he

end Limits

/-! ### Work that only looks, and work that also writes -/

namespace Target

/-- What does not depend on which calls were made, nor on how often the cache was flushed. -/
structure IgnoresCalls (inv : Target → Prop) : Prop where
  counted : ∀ {t : Target} (name : CallName), inv t → inv { t with gate := t.gate.counted name }
  flushed : ∀ {t : Target}, inv t → inv { t with flushes := t.flushes + 1 }

/-- What holds behind every write, if it held before. -/
structure AllowsWrites (inv : Target → Prop) : Prop extends IgnoresCalls inv where
  written : ∀ {t : Target} (memory : Memory) (address : UInt64) (bytes : Bytes), inv t →
    inv { t with memory := memory, edits := ⟨address, bytes, t.suspensions, t.threads⟩ :: t.edits }

namespace IgnoresCalls

variable {inv : Target → Prop} (h : IgnoresCalls inv)

include h

theorem pass (c : Call) : Keeps inv (Target.pass c) := by
  apply Keeps.of_run
  intro t ht
  rw [run_pass]
  exact h.counted c.name ht

theorem readMemory (address : UInt64) (len : Nat) : Keeps inv (Target.readMemory address len) :=
  (h.pass _).bind fun _ ↦ Keeps.get.bind fun _ ↦ Keeps.lift _

theorem flush : Keeps inv Target.flush := (h.pass _).bind fun _ ↦ Keeps.modify fun _ ↦ h.flushed

theorem threadIds : Keeps inv Target.threadIds :=
  (h.pass _).bind fun _ ↦ Keeps.get.bind fun _ ↦ Keeps.pure _

theorem threadIps : Keeps inv Target.threadIps :=
  h.threadIds.bind fun _ ↦ Keeps.mapM fun _ _ ↦ (h.pass _).bind fun _ ↦
    Keeps.bind (Keeps.get.bind fun _ ↦ Keeps.lift _) fun _ ↦ Keeps.pure _

theorem isRangeFree (address size : UInt64) : Keeps inv (Target.isRangeFree address size) :=
  (h.pass _).bind fun _ ↦ Keeps.get.bind fun _ ↦ Keeps.lift _

theorem read (image : Mapping) (rva : UInt32) (len : Nat) : Keeps inv (image.read rva len) :=
  (Keeps.lift _).bind fun _ ↦ (Keeps.lift _).bind fun _ ↦ (h.readMemory _ _).inContext

theorem readWord (image : Mapping) (rva : UInt32) : Keeps inv (image.readWord rva) :=
  (h.read image rva 8).bind fun _ ↦ Keeps.pure _

end IgnoresCalls

namespace AllowsWrites

variable {inv : Target → Prop} (h : AllowsWrites inv)

include h

theorem writeMemory (address : UInt64) (bytes : Bytes) :
    Keeps inv (Target.writeMemory address bytes) :=
  (h.pass _).bind fun _ ↦ Triple.bind_get fun _ ht ↦ Triple.bind_lift
    (fun memory _ ↦ Triple.set fun _ _ ↦ h.written memory address bytes ht) fun _ hs ↦ hs ▸ ht

theorem write (image : Mapping) (rva : UInt32) (bytes : Bytes) :
    Keeps inv (image.write rva bytes) :=
  (Keeps.lift _).bind fun _ ↦ (Keeps.lift _).bind fun _ ↦
    (h.writeMemory _ _).inContext.bind fun _ ↦ h.flush

end AllowsWrites

/-! ### Processes whose writes were guarded -/

/-- A process in which work is under way that began in `b`: caves were opened in these pages, it is
held by so many suspensions more, its threads are these, and everything that was written since was
written while nothing else ran. -/
structure UnderWay (b : Target) (command : Option UInt32) (pages : List UInt64) (held : Nat)
    (threads : List Thread) (t : Target) : Prop where
  pid : t.pid = b.pid
  refuses : t.gate.refuses = b.gate.refuses
  suspensions : t.suspensions = b.suspensions + held
  threads : t.threads = threads
  ids : t.threads.map Thread.id = b.threads.map Thread.id
  allocated : b.nextAllocation ≤ t.nextAllocation
  edits : IsGuarded b command t.nextAllocation t.edits
  opened : ∀ page ∈ pages, ∃ cave ∈ t.edits,
    cave.OpensCave b.nextAllocation t.nextAllocation ∧ cave.address = page

variable {b : Target} {command : Option UInt32} {pages : List UInt64} {held : Nat}
  {threads : List Thread}

/-- No work was done yet. -/
theorem UnderWay.refl (b : Target) (command : Option UInt32) :
    UnderWay b command [] 0 b.threads b :=
  ⟨rfl, rfl, rfl, rfl, rfl, UInt64.le_refl _, .start, fun _ h ↦ (List.not_mem_nil h).elim⟩

/-- Of the caves that were opened fewer need to be known. -/
theorem UnderWay.tail {t : Target} {page : UInt64}
    (ht : UnderWay b command (page :: pages) held threads t) :
    UnderWay b command pages held threads t :=
  ⟨ht.pid, ht.refuses, ht.suspensions, ht.threads, ht.ids, ht.allocated, ht.edits,
    fun page hpage ↦ ht.opened page (List.mem_cons_of_mem _ hpage)⟩

theorem underWay_ignoresCalls : IgnoresCalls (UnderWay b command pages held threads) where
  counted := fun _ ht ↦
    ⟨ht.pid, ht.refuses, ht.suspensions, ht.threads, ht.ids, ht.allocated, ht.edits, ht.opened⟩
  flushed := fun ht ↦
    ⟨ht.pid, ht.refuses, ht.suspensions, ht.threads, ht.ids, ht.allocated, ht.edits, ht.opened⟩

/-- A write that is guarded like the others. -/
theorem UnderWay.written {t : Target} (ht : UnderWay b command pages held threads t)
    (memory : Memory) (address : UInt64) (bytes : Bytes)
    (he : IsGuarded b command t.nextAllocation
      (⟨address, bytes, t.suspensions, t.threads⟩ :: t.edits)) :
    UnderWay b command pages held threads { t with
      memory := memory, edits := ⟨address, bytes, t.suspensions, t.threads⟩ :: t.edits } := by
  refine ⟨ht.pid, ht.refuses, ht.suspensions, ht.threads, ht.ids, ht.allocated, he, fun page hpage ↦ ?_⟩
  obtain ⟨cave, hcave, hopens⟩ := ht.opened page hpage
  exact ⟨cave, List.mem_cons_of_mem _ hcave, hopens⟩

/-- While a process is held it may be written to. -/
theorem underWay_allowsWrites : AllowsWrites (UnderWay b command pages (held + 1) threads) where
  toIgnoresCalls := underWay_ignoresCalls
  written := fun {t} _ _ _ ht ↦ ht.written _ _ _ (ht.edits.held (by
    have hheld : t.suspensions = b.suspensions + (held + 1) := ht.suspensions
    simp only [hheld]
    omega))

/-- While the threads of a process are parked in a cave it may be written to. -/
theorem parked_allowsWrites {page : UInt64} (hpage : page ∈ pages)
    (hparked : AreParked page command threads) :
    AllowsWrites (UnderWay b command pages held threads) where
  toIgnoresCalls := underWay_ignoresCalls
  written := fun {t} _ _ _ ht ↦ by
    obtain ⟨cave, hcave, hopens, rfl⟩ := ht.opened page hpage
    exact ht.written _ _ _ (ht.edits.parked hcave hopens (ht.threads ▸ hparked))

/-- Memory may come and go. -/
theorem UnderWay.withMemory {t : Target} (ht : UnderWay b command pages held threads t)
    (memory : Memory) : UnderWay b command pages held threads { t with memory := memory } :=
  ⟨ht.pid, ht.refuses, ht.suspensions, ht.threads, ht.ids, ht.allocated, ht.edits, ht.opened⟩

/-- A call by which a process is let run again passes the gate. -/
theorem triple_pass_of_letsGo (hb : b.gate.LetsGo) {c : Call}
    (hc : c.name ∈ [CallName.suspend, .resume, .setThreadContext, .setThreadPriority]) :
    Triple (UnderWay b command pages held threads) (pass c)
      (fun _ ↦ UnderWay b command pages held threads) fun _ ↦ False := by
  intro t ht
  have hkept := (underWay_ignoresCalls.pass c).run ht
  rw [run_pass] at hkept ⊢
  rw [ht.refuses, hb c _ hc]
  exact hkept

theorem underWay_suspend (hb : b.gate.LetsGo) :
    Triple (UnderWay b command pages held threads) suspend
      (fun _ ↦ UnderWay b command pages (held + 1) threads) fun _ ↦ False :=
  (triple_pass_of_letsGo hb (by simp)).bind fun _ ↦ Triple.modify fun _ ht ↦
    ⟨ht.pid, ht.refuses, congrArg (· + 1) ht.suspensions, ht.threads, ht.ids, ht.allocated,
      ht.edits, ht.opened⟩

theorem underWay_resume (hb : b.gate.LetsGo) :
    Triple (UnderWay b command pages (held + 1) threads) resume
      (fun _ ↦ UnderWay b command pages held threads) fun _ ↦ False := by
  refine (triple_pass_of_letsGo hb (by simp)).bind fun _ ↦ Triple.bind_get fun t ht ↦ ?_
  have hheld : t.suspensions = b.suspensions + (held + 1) := ht.suspensions
  rw [if_neg (by omega)]
  exact Triple.set fun _ _ ↦
    ⟨ht.pid, ht.refuses, by simp only [hheld]; omega, ht.threads, ht.ids, ht.allocated, ht.edits,
      ht.opened⟩

/-- Work in a suspended process, followed by a resumption. -/
theorem underWay_suspended (hb : b.gate.LetsGo) {α : Type} {act : TargetM α}
    {threads' stopped : List Thread}
    (h : Triple (UnderWay b command pages (held + 1) threads) act
      (fun _ ↦ UnderWay b command pages (held + 1) threads') (UnderWay b command pages (held + 1) stopped)) :
    Triple (UnderWay b command pages held threads) (suspended act)
      (fun _ ↦ UnderWay b command pages held threads') (UnderWay b command pages held stopped) :=
  ((underWay_suspend hb).mono (fun _ ht ↦ ht) (fun _ _ ht ↦ ht) fun _ ht ↦ ht.elim).bind fun _ ↦
    h.ensuring (fun _ _ ↦ (underWay_resume hb).run_of_ok) fun _ ↦ (underWay_resume hb).run_of_ok

/-- A call that changes a thread which is there does so. -/
theorem underWay_setThread (hb : b.gate.LetsGo) {c : Call}
    (hc : c.name ∈ [CallName.suspend, .resume, .setThreadContext, .setThreadPriority])
    {id : UInt32} (hid : id ∈ b.threads.map Thread.id) (f : Thread → Thread) :
    Triple (UnderWay b command pages held threads) (pass c >>= fun _ ↦ setThread id f)
      (fun _ ↦ UnderWay b command pages held
        (threads.map fun th ↦ if th.id = id then { f th with id := th.id } else th))
      fun _ ↦ False := by
  refine (triple_pass_of_letsGo hb hc).bind fun _ t ht ↦ ?_
  rw [run_setThread (ht.ids ▸ hid)]
  refine ⟨ht.pid, ht.refuses, ht.suspensions, by simp only [withThread, ht.threads], ?_, ht.allocated,
    ht.edits, ht.opened⟩
  rw [← ht.ids, withThread, List.map_map]
  refine List.map_congr_left fun th _ ↦ ?_
  rw [Function.comp_apply]
  split <;> rfl

end Target

namespace Cave

open Target (UnderWay)

variable {b : Target} {command : Option UInt32} {pages : List UInt64} {held : Nat} {page : UInt64}
  {threads : List Thread}

/-! ### Threads in a cave -/

/-- The threads of a process after some of them were moved into a page. -/
def moved (page : UInt64) (ids : List UInt32) (threads : List Thread) : List Thread :=
  threads.map fun th ↦ if th.id ∈ ids then ⟨th.id, page, Target.lowestPriority⟩ else th

theorem moved_nil (page : UInt64) (threads : List Thread) : moved page [] threads = threads := by
  simp [moved]

/-- A thread that was not moved is where it was. -/
theorem mem_of_mem_moved {ids : List UInt32} {threads : List Thread} {th : Thread}
    (h : th ∈ moved page ids threads) (hid : th.id ∉ ids) : th ∈ threads := by
  obtain ⟨th', hth', rfl⟩ := List.mem_map.mp h
  by_cases hmoved : th'.id ∈ ids
  · rw [if_pos hmoved] at hid
    exact (hid hmoved).elim
  · rwa [if_neg hmoved]

/-- All threads but one were moved. -/
theorem areParked_moved {ids : List UInt32} {threads : List Thread}
    (h : ∀ th ∈ threads, some th.id ≠ command → th.id ∈ ids) :
    AreParked page command (moved page ids threads) := by
  intro th hth hcommand
  obtain ⟨th', hth', rfl⟩ := List.mem_map.mp hth
  split
  · exact ⟨rfl, rfl⟩
  · next hid =>
    rw [if_neg hid] at hcommand
    exact (hid (h th' hth' hcommand)).elim

/-- Moving one thread more. -/
theorem moved_append (page : UInt64) (ids : List UInt32) (id : UInt32) (threads : List Thread) :
    ((moved page ids threads).map fun th ↦
        if th.id = id then { th with ip := page } else th).map
      (fun th ↦ if th.id = id then { th with priority := Target.lowestPriority } else th)
      = moved page (ids ++ [id]) threads := by
  simp only [moved, List.map_map]
  refine List.map_congr_left fun th _ ↦ ?_
  by_cases hid : th.id = id <;> by_cases hmem : th.id ∈ ids <;> simp_all

/-- Putting one thread back. -/
theorem moved_cons {p : ParkedThread} {ids : List UInt32} {threads : List Thread}
    (hnodup : (threads.map Thread.id).Nodup) (hp : ⟨p.id, p.ip, p.priority⟩ ∈ threads)
    (hid : p.id ∉ ids) :
    ((moved page (p.id :: ids) threads).map fun th ↦
        if th.id = p.id then { th with ip := p.ip } else th).map
      (fun th ↦ if th.id = p.id then { th with priority := p.priority } else th)
      = moved page ids threads := by
  simp only [moved, List.map_map]
  refine List.map_congr_left fun th hth ↦ ?_
  by_cases heq : th.id = p.id
  · have hth' : th = ⟨p.id, p.ip, p.priority⟩ := List.inj_on_of_nodup_map hnodup hth hp heq
    subst hth'
    simp [hid]
  · by_cases hmem : th.id ∈ ids <;> simp [heq, hmem]

/-- A thread that was not moved is observed as it was before. -/
theorem underWay_observe {ids : List UInt32} {id : UInt32} (hid : id ∉ ids) :
    Triple (UnderWay b command pages held (moved page ids b.threads)) (observe id)
      (fun p t ↦ UnderWay b command pages held (moved page ids b.threads) t ∧ p.id = id ∧
        (⟨p.id, p.ip, p.priority⟩ : Thread) ∈ b.threads)
      (UnderWay b command pages held (moved page ids b.threads)) := by
  have hthread : Triple (UnderWay b command pages held (moved page ids b.threads)) (Target.thread id)
      (fun th t ↦ (th.id = id ∧ th ∈ b.threads) ∧
        UnderWay b command pages held (moved page ids b.threads) t)
      (UnderWay b command pages held (moved page ids b.threads)) := by
    intro t ht
    rw [Target.run_thread]
    cases hf : t.threads.find? (fun th ↦ th.id == id) with
    | none => exact ht
    | some th =>
      have hth : th.id = id := by simpa using List.find?_some hf
      have hmem := List.mem_of_find?_eq_some hf
      rw [ht.threads] at hmem
      exact ⟨⟨hth, mem_of_mem_moved hmem (hth ▸ hid)⟩, ht⟩
  have hpass : ∀ c, Keeps (UnderWay b command pages held (moved page ids b.threads))
      (Target.pass c) := Target.underWay_ignoresCalls.pass
  have hip : Triple (UnderWay b command pages held (moved page ids b.threads)) (Target.threadIp id)
      (fun ip t ↦ UnderWay b command pages held (moved page ids b.threads) t ∧
        ∃ th ∈ b.threads, th.id = id ∧ th.ip = ip)
      (UnderWay b command pages held (moved page ids b.threads)) :=
    Triple.bind (hpass _) fun _ ↦ Triple.bind hthread fun th ↦ Triple.pure fun _ hth ↦
      ⟨hth.2, th, hth.1.2, hth.1.1, rfl⟩
  have hpriority : Triple (UnderWay b command pages held (moved page ids b.threads))
      (Target.threadPriority id)
      (fun priority t ↦ UnderWay b command pages held (moved page ids b.threads) t ∧
        ∃ th ∈ b.threads, th.id = id ∧ th.priority = priority)
      (UnderWay b command pages held (moved page ids b.threads)) :=
    Triple.bind (hpass _) fun _ ↦ Triple.bind hthread fun th ↦ Triple.pure fun _ hth ↦
      ⟨hth.2, th, hth.1.2, hth.1.1, rfl⟩
  refine Triple.bind hip fun ip ↦ Triple.of_pre ?_
  rintro t ⟨ht, th, hth, rfl, rfl⟩
  refine Triple.bind (hpriority.mono (fun _ h ↦ h ▸ ht) (fun _ _ h ↦ h) fun _ h ↦ h) fun priority ↦
    Triple.pure ?_
  rintro t' ⟨ht', th', hth', heq, rfl⟩
  have heq : th' = th := List.inj_on_of_nodup_map b.distinct hth' hth heq
  subst heq
  exact ⟨ht', rfl, hth⟩

/-- Moving a thread that is there always works. -/
theorem underWay_move (hb : b.gate.LetsGo) {ids : List UInt32} {id : UInt32}
    (hid : id ∈ b.threads.map Thread.id) :
    Triple (UnderWay b command pages held (moved page ids b.threads)) (move page id)
      (fun _ ↦ UnderWay b command pages held (moved page (ids ++ [id]) b.threads)) fun _ ↦ False := by
  rw [← moved_append]
  exact Triple.bind (Target.underWay_setThread hb (by simp) hid _) fun _ ↦
    Target.underWay_setThread hb (by simp) hid _

/-- Where threads are that are being parked: those that are recorded were moved. -/
structure Parks (b : Target) (command : Option UInt32) (pages : List UInt64) (held : Nat)
    (page : UInt64) (parked : List ParkedThread) (t : Target) : Prop where
  underWay : UnderWay b command pages held (moved page (parked.map ParkedThread.id) b.threads) t
  records : Records b parked
  nodup : (parked.map ParkedThread.id).Nodup

/-- While threads are parked a process may be written to. -/
theorem parks_allowsWrites {parked : List ParkedThread} (hpage : page ∈ pages)
    (hparked : AreParked page command (moved page (parked.map ParkedThread.id) b.threads)) :
    Target.AllowsWrites (Parks b command pages held page parked) where
  counted := fun name ht ↦ ⟨Target.underWay_ignoresCalls.counted name ht.underWay, ht.records,
    ht.nodup⟩
  flushed := fun ht ↦ ⟨Target.underWay_ignoresCalls.flushed ht.underWay, ht.records, ht.nodup⟩
  written := fun memory address bytes ht ↦ ⟨(Target.parked_allowsWrites hpage hparked).written
    memory address bytes ht.underWay, ht.records, ht.nodup⟩

/-- Parking threads moves those that it records, and all of them unless it stops short. -/
theorem parks_parkEach (hb : b.gate.LetsGo) (ids : List UInt32) (parked : List ParkedThread)
    {t : Target} (hids : ids.Nodup) (hnew : ∀ id ∈ ids, id ∉ parked.map ParkedThread.id)
    (ht : Parks b command pages held page parked t) :
    Parks b command pages held page ((parkEach page parked ids).run t).1.1
      ((parkEach page parked ids).run t).2 ∧
    (((parkEach page parked ids).run t).1.2 = .ok () →
      ((parkEach page parked ids).run t).1.1.map ParkedThread.id
        = parked.map ParkedThread.id ++ ids) := by
  induction ids generalizing parked t with
  | nil => exact ⟨ht, fun _ ↦ (List.append_nil _).symm⟩
  | cons id ids ih =>
    have hid := hnew id (List.mem_cons_self ..)
    have hobserve := underWay_observe hid t ht.underWay
    rw [run_parkEach_cons]
    generalize (observe id).run t = observed at hobserve ⊢
    rcases observed with ⟨_ | p, t⟩
    · exact ⟨⟨hobserve, ht.records, ht.nodup⟩, nofun⟩
    · obtain ⟨hobserved, rfl, hp⟩ := hobserve
      have hmove := underWay_move hb (List.mem_map.mpr ⟨_, hp, rfl⟩) t hobserved
      dsimp only
      generalize (move page p.id).run t = move at hmove ⊢
      rcases move with ⟨_ | _, t⟩
      · exact hmove.elim
      · obtain ⟨hidnew, hids⟩ := List.nodup_cons.mp hids
        have hparked : Parks b command pages held page (parked ++ [p]) t := by
          refine ⟨by rw [List.map_append]; exact hmove, fun q hq ↦ ?_, ?_⟩
          · rcases List.mem_append.mp hq with hq | hq
            · exact ht.records q hq
            · rw [List.mem_singleton.mp hq]
              exact hp
          · rw [List.map_append, List.nodup_append]
            refine ⟨ht.nodup, List.nodup_singleton _, ?_⟩
            rintro a ha _ hc rfl
            rw [List.map_singleton, List.mem_singleton] at hc
            exact hid (hc ▸ ha)
        have hrest := ih (parked ++ [p]) hids (fun a ha hmem ↦ ?_) hparked
        · rw [List.map_append, List.append_assoc] at hrest
          exact hrest
        · rw [List.map_append, List.map_singleton, List.mem_append, List.mem_singleton] at hmem
          rcases hmem with hmem | rfl
          · exact hnew a (List.mem_cons_of_mem _ ha) hmem
          · exact hidnew ha

/-- Parking all threads moves those that it records, and all but the one that serves commands unless
it stops short. -/
theorem parks_parkAll (hb : b.gate.LetsGo) {t : Target}
    (ht : UnderWay b command pages held b.threads t) :
    Parks b command pages held page ((parkAll page command).run t).1.1
      ((parkAll page command).run t).2 ∧
    (((parkAll page command).run t).1.2 = .ok () → AreParked page command
      (moved page (((parkAll page command).run t).1.1.map ParkedThread.id) b.threads)) := by
  have hnone : ∀ {held : Nat} {t : Target}, UnderWay b command pages held b.threads t →
      Parks b command pages held page [] t := fun h ↦
    ⟨by rwa [List.map_nil, moved_nil], fun _ h ↦ (List.not_mem_nil h).elim, List.nodup_nil⟩
  have hresume : ∀ {parked : List ParkedThread} {t : Target},
      Parks b command pages (held + 1) page parked t →
      Parks b command pages held page parked (Target.resume.run t).2 := fun h ↦
    ⟨(Target.underWay_resume hb).run_of_ok h.underWay, h.records, h.nodup⟩
  have hsuspend := Target.underWay_suspend hb t ht
  rw [run_parkAll]
  generalize Target.suspend.run t = suspended at hsuspend ⊢
  rcases suspended with ⟨_ | _, t⟩
  · exact hsuspend.elim
  · have hids : Triple (UnderWay b command pages (held + 1) b.threads) Target.threadIds
        (fun ids t ↦ ids = b.threads.map Thread.id ∧
          UnderWay b command pages (held + 1) b.threads t)
        (UnderWay b command pages (held + 1) b.threads) :=
      Triple.bind (Target.underWay_ignoresCalls.pass _) fun _ ↦ Triple.bind_get fun t ht ↦
        Triple.pure fun t' ht' ↦ ⟨by rw [ht.threads], ht' ▸ ht⟩
    have hlisted := hids t hsuspend
    dsimp only
    generalize Target.threadIds.run t = listed at hlisted ⊢
    rcases listed with ⟨_ | ids, t⟩
    · exact ⟨hresume (hnone hlisted), nofun⟩
    · obtain ⟨rfl, ht⟩ := hlisted
      obtain ⟨hparks, hall⟩ := parks_parkEach hb
        ((b.threads.map Thread.id).filter fun id ↦ some id != command) []
        (b.distinct.filter _) (fun _ _ ↦ List.not_mem_nil) (hnone ht)
      refine ⟨hresume hparks, fun hok ↦ areParked_moved fun th hth hcommand ↦ ?_⟩
      rw [hall hok, List.map_nil, List.nil_append, List.mem_filter]
      exact ⟨List.mem_map_of_mem hth, by simpa using hcommand⟩

/-- Putting a thread back always works. -/
theorem underWay_release (hb : b.gate.LetsGo) {p : ParkedThread} {ids : List UInt32}
    (hp : (⟨p.id, p.ip, p.priority⟩ : Thread) ∈ b.threads) (hid : p.id ∉ ids) :
    Triple (UnderWay b command pages held (moved page (p.id :: ids) b.threads)) (release p)
      (fun _ ↦ UnderWay b command pages held (moved page ids b.threads)) fun _ ↦ False := by
  have hmem : p.id ∈ b.threads.map Thread.id := List.mem_map.mpr ⟨_, hp, rfl⟩
  rw [← moved_cons b.distinct hp hid]
  exact Triple.bind (Target.underWay_setThread hb (by simp) hmem _).inContext fun _ ↦
    Target.underWay_setThread hb (by simp) hmem _

/-- Leaving a cave puts all threads back, whether or not its page can be freed. -/
theorem underWay_leave (hb : b.gate.LetsGo) {parked : List ParkedThread} {t : Target}
    (ht : Parks b command pages held page parked t) :
    UnderWay b command pages held b.threads ((leave ⟨page, parked⟩).run t).2 := by
  have hrelease : ∀ {held : Nat} {parked : List ParkedThread}, Records b parked →
      (parked.map ParkedThread.id).Nodup →
      Triple (UnderWay b command pages held (moved page (parked.map ParkedThread.id) b.threads))
        (parked.forM release) (fun _ ↦ UnderWay b command pages held b.threads)
        fun _ ↦ False := by
    intro held parked hrecords hnodup
    induction parked with
    | nil => exact Triple.pure fun _ ht ↦ by rwa [List.map_nil, moved_nil] at ht
    | cons p parked ih =>
      obtain ⟨hid, hnodup⟩ := List.nodup_cons.mp hnodup
      exact Triple.bind (underWay_release hb (hrecords p (List.mem_cons_self ..)) hid)
        fun _ ↦ ih (fun q hq ↦ hrecords q (List.mem_cons_of_mem p hq)) hnodup
  have hfree : Keeps (UnderWay b command pages held b.threads) (Target.free page) := by
    refine (Target.underWay_ignoresCalls.pass _).bind fun _ ↦ Triple.bind_get fun t ht ↦ ?_
    split
    · exact Triple.set fun _ _ ↦ ht.withMemory _
    · exact Triple.fail fun _ h ↦ h ▸ ht
  have hleave : Triple
      (UnderWay b command pages held (moved page (parked.map ParkedThread.id) b.threads))
      (leave ⟨page, parked⟩) (fun _ ↦ UnderWay b command pages held b.threads)
      (UnderWay b command pages held b.threads) :=
    (Target.underWay_suspended hb ((hrelease ht.records ht.nodup).mono (fun _ h ↦ h)
      (fun _ _ h ↦ h) fun _ h ↦ h.elim)).bind fun _ ↦ hfree
  have hrun := hleave t ht.underWay
  generalize (leave ⟨page, parked⟩).run t = r at hrun ⊢
  rcases r with ⟨_ | _, t⟩ <;> exact hrun

/-- Room for a cave lies behind everything that was allocated before. -/
theorem underWay_allocate :
    Triple (UnderWay b command pages held threads) (Target.allocate spin.size)
      (fun page t ↦ UnderWay b command pages held threads t ∧
        b.nextAllocation ≤ page ∧ page < t.nextAllocation)
      (UnderWay b command pages held threads) := by
  have hrounded : Word.alignUp? (UInt64.ofNat (max spin.size 1)) Target.granularity
      = some Target.granularity := by decide
  have hpos : 0 < Target.granularity.toNat := by decide
  unfold Target.allocate
  generalize Target.granularity = granularity at hrounded hpos
  refine Triple.bind (Target.underWay_ignoresCalls.pass _) fun _ ↦ Triple.bind_get fun t ht ↦ ?_
  have hstop : ∀ s, s = t → UnderWay b command pages held threads s := fun _ h ↦ h ▸ ht
  refine Triple.bind_lift (fun rounded hr ↦ Triple.bind_lift (fun next hnext ↦ ?_) hstop) hstop
  rw [hrounded] at hr
  cases hr
  have hlt : t.nextAllocation < next := by
    rw [UInt64.lt_iff_toNat_lt, Word.toNat_of_add64? (Outcome.orFault_eq_ok_iff.mp hnext)]
    exact Nat.lt_add_of_pos_right hpos
  have hle := UInt64.le_of_lt hlt
  refine Triple.bind (R := fun _ s ↦ UnderWay b command pages held threads s ∧
    s.nextAllocation = next) (Triple.set fun _ _ ↦ ⟨?_, rfl⟩) fun _ ↦
    Triple.pure fun s hs ↦ ⟨hs.1, ht.allocated, hs.2 ▸ hlt⟩
  refine ⟨ht.pid, ht.refuses, ht.suspensions, ht.threads, ht.ids, UInt64.le_trans ht.allocated hle,
    ht.edits.mono hle, fun page hpage ↦ ?_⟩
  obtain ⟨cave, hcave, hopens, haddress⟩ := ht.opened page hpage
  exact ⟨cave, hcave, hopens.mono hle, haddress⟩

/-- Writing the spinning code opens a cave. -/
theorem underWay_writeSpin (hpage : b.nextAllocation ≤ page) :
    Triple (fun t ↦ UnderWay b command pages held threads t ∧ page < t.nextAllocation)
      (Target.writeMemory page spin)
      (fun _ ↦ UnderWay b command (page :: pages) held threads)
      (UnderWay b command pages held threads) := by
  have hkept : Target.IgnoresCalls fun t ↦
      UnderWay b command pages held threads t ∧ page < t.nextAllocation :=
    ⟨fun name ht ↦ ⟨Target.underWay_ignoresCalls.counted name ht.1, ht.2⟩,
      fun ht ↦ ⟨Target.underWay_ignoresCalls.flushed ht.1, ht.2⟩⟩
  refine Triple.bind ((hkept.pass _).mono (fun _ h ↦ h) (fun _ _ h ↦ h) fun _ h ↦ h.1) fun _ ↦
    Triple.bind_get fun t ⟨ht, hlt⟩ ↦
    Triple.bind_lift (fun memory _ ↦ Triple.set fun _ _ ↦ ?_) fun _ h ↦ h ▸ ht
  have hopens : Edit.OpensCave b.nextAllocation t.nextAllocation
      ⟨page, spin, t.suspensions, t.threads⟩ := ⟨rfl, hpage, hlt⟩
  have hwritten := ht.written memory page spin (ht.edits.opens hopens)
  refine ⟨hwritten.pid, hwritten.refuses, hwritten.suspensions, hwritten.threads, hwritten.ids,
    hwritten.allocated, hwritten.edits, fun page' hpage' ↦ ?_⟩
  rcases List.mem_cons.mp hpage' with rfl | hpage'
  · exact ⟨_, List.mem_cons_self .., hopens, rfl⟩
  · exact hwritten.opened page' hpage'

/-- In a cave all threads but the one that serves commands are parked. A process that could not
enter has its threads where they were. -/
theorem underWay_enter (hb : b.gate.LetsGo) :
    Triple (UnderWay b command pages held b.threads) (enter command)
      (fun c t ↦ Parks b command (c.page :: pages) held c.page c.parked t ∧
        AreParked c.page command (moved c.page (c.parked.map ParkedThread.id) b.threads))
      (UnderWay b command pages held b.threads) := by
  refine Triple.bind underWay_allocate fun page ↦ Triple.of_pre fun t ⟨ht, hle, hlt⟩ ↦ ?_
  refine Triple.bind ((underWay_writeSpin hle).mono (fun _ h ↦ h ▸ ⟨ht, hlt⟩) (fun _ _ h ↦ h)
    fun _ h ↦ h) fun _ ↦ ?_
  refine Triple.bind (Target.underWay_ignoresCalls.flush.mono (fun _ h ↦ h) (fun _ _ h ↦ h)
    fun _ ↦ Target.UnderWay.tail) fun _ t ht ↦ ?_
  obtain ⟨hparks, hall⟩ : Parks b command (page :: pages) held page _ _ ∧ _ :=
    parks_parkAll hb ht
  simp only [ExceptT.run, ExceptT.mk, bind, StateT.bind, StateT.run] at hparks hall ⊢
  generalize parkAll page command t = parking at hparks hall ⊢
  rcases parking with ⟨⟨parked, _ | _⟩, t⟩
  · exact (underWay_leave hb hparks).tail
  · exact ⟨hparks, hall rfl⟩

end Cave
end LivePatch
