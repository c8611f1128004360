import LivePatch.Proofs.Process.Cave

/-!
# Parking threads

What entering a cave and leaving it come to, call by call. The calls on single threads may be
refused, say because a thread has ended meanwhile; what threads are recorded, what they are turned
into and when all of them can be put back is told from the calls that passed.
-/

namespace LivePatch

/-- A context changes nothing about work that answers. -/
theorem run_inContext_eq_ok_iff {σ α : Type} {c : Context} {act : ExceptT Stop (StateM σ) α}
    {s t : σ} {a : α} : (inContext c act).run s = (.ok a, t) ↔ act.run s = (.ok a, t) := by
  rw [run_inContext]
  rcases act.run s with ⟨_ | b, u⟩
  · exact ⟨fun h ↦ (by cases h), fun h ↦ (by cases h)⟩
  · exact Iff.rfl

namespace Gate

/-- A gate that refuses no call but those on single threads. -/
def RefusesThreadsOnly (g : Gate) : Prop := ∀ c n, c.thread = none → g.refuses c n = false

/-- Another call of a name is counted for that name alone. -/
theorem count_counted (g : Gate) (name other : CallName) :
    (g.counted name).count other = g.count other + if other = name then 1 else 0 := by
  unfold count counted
  by_cases heq : other = name
  · subst heq
    simp [count]
  · have hne : (other == name) = false := by simpa using heq
    rw [List.lookup_cons, hne, if_neg heq, Nat.add_zero]
    dsimp only
    congr 1
    generalize g.made = made
    induction made with
    | nil => rfl
    | cons e made ih =>
      by_cases hname : e.1 = name
      · have hother : (other == e.1) = false := by simpa [hname] using heq
        rw [List.filter_cons_of_neg (by simpa using hname), ih, List.lookup_cons, hother]
      · rw [List.filter_cons_of_pos (by simpa using hname), List.lookup_cons, List.lookup_cons, ih]

end Gate

namespace Target

variable {s t t' : Target} {l : Leeway} {id : UInt32}

/-! ### Calls that pass -/

/-- A call that passes the gate is counted there. -/
theorem run_pass_of_passes {c : Call} (h : s.gate.refuses c (s.gate.count c.name) = false) :
    (pass c).run s = (.ok (), { s with gate := s.gate.counted c.name }) := by
  rw [run_pass, h]
  rfl

/-- A process that is suspended once more. -/
def held (s : Target) : Target :=
  { s with gate := s.gate.counted .suspend, suspensions := s.suspensions + 1 }

theorem run_suspend (h : s.gate.RefusesThreadsOnly) : suspend.run s = (.ok ⟨⟩, s.held) := by
  rw [suspend, run_bind, run_pass_of_passes (h ⟨.suspend, none⟩ _ rfl)]
  rfl

theorem run_resume (h : s.gate.RefusesThreadsOnly) (hs : s.suspensions ≠ 0) : resume.run s
    = (.ok ⟨⟩, { s with gate := s.gate.counted .resume, suspensions := s.suspensions - 1 }) := by
  simp only [resume, run_bind, run_pass_of_passes (h ⟨.resume, none⟩ _ rfl), run_get, if_neg hs,
    run_set]

theorem run_threadIds (h : s.gate.RefusesThreadsOnly) : threadIds.run s
    = (.ok (s.threads.map Thread.id), { s with gate := s.gate.counted .threads }) := by
  simp only [threadIds, run_bind, run_pass_of_passes (h ⟨.threads, none⟩ _ rfl), run_get,
    run_pure]

theorem run_free (h : s.gate.RefusesThreadsOnly) {page : UInt64}
    (hpage : s.memory.isMapped page = true) : (free page).run s
      = (.ok ⟨⟩, { s with gate := s.gate.counted .free, memory := s.memory.unmap page }) := by
  simp only [free, run_bind, run_pass_of_passes (h ⟨.free, none⟩ _ rfl), run_get, if_pos hpage,
    run_set]

theorem run_writeMemory (h : s.gate.RefusesThreadsOnly) {address : UInt64} {bytes : Bytes}
    {n : Memory} (hw : s.memory.write address bytes = .ok n) : (writeMemory address bytes).run s
      = (.ok ⟨⟩, { s with
          gate := s.gate.counted .writeMemory, memory := n
          edits := ⟨address, bytes, s.suspensions, s.threads⟩ :: s.edits }) := by
  simp only [writeMemory, run_bind, run_pass_of_passes (h ⟨.writeMemory, none⟩ _ rfl), run_get,
    run_lift, hw, run_set]

theorem run_flush (h : s.gate.RefusesThreadsOnly) : flush.run s = (.ok ⟨⟩,
    { s with gate := s.gate.counted .flushInstructionCache, flushes := s.flushes + 1 }) := by
  rw [flush, run_bind, run_pass_of_passes (h ⟨.flushInstructionCache, none⟩ _ rfl)]
  rfl

/-- Work done under a suspension starts in the process that is held, and the suspension ends where
the work does. -/
theorem run_suspended {α : Type} (act : TargetM α) (h : s.gate.RefusesThreadsOnly) :
    (suspended act).run s = ((act.run s.held).1, (resume.run (act.run s.held).2).2) := by
  rw [suspended, run_bind, run_suspend h]
  rfl

/-- A gate refuses what it refused. -/
theorem Within.refusesThreadsOnly (h : t.Within l t') (ht : t.gate.RefusesThreadsOnly) :
    t'.gate.RefusesThreadsOnly := by
  unfold Gate.RefusesThreadsOnly
  rw [h.refuses]
  exact ht

/-- A suspension more. -/
theorem Within.held (h : t.Within l s) : t.Within { l with held := l.held + 1 } s.held :=
  ⟨h.pid, h.refuses, h.threads, by simp [Target.held, h.suspensions, Nat.add_assoc],
    h.nextAllocation, h.memory⟩

/-- A suspension less. -/
theorem Within.resumed (ht : t.gate.RefusesThreadsOnly)
    (h : t.Within { l with held := l.held + 1 } s) : t.Within l (Target.resume.run s).2 := by
  have hheld : s.suspensions = t.suspensions + (l.held + 1) := h.suspensions
  rw [run_resume (h.refusesThreadsOnly ht) (by omega)]
  refine ⟨h.pid, h.refuses, h.threads, ?_, h.nextAllocation, h.memory⟩
  simp only [hheld]
  omega

/-! ### Calls on single threads -/

/-- Identifiers of threads stay when a thread is changed. -/
@[simp] theorem threadIds_withThread (s : Target) (id : UInt32) (f : Thread → Thread) :
    (s.withThread id f).threads.map Thread.id = s.threads.map Thread.id := by
  rw [withThread, List.map_map]
  refine List.map_congr_left fun th _ ↦ ?_
  rw [Function.comp_apply]
  split <;> rfl

/-- A thread that is there is found by its identifier. -/
theorem exists_find? (hid : id ∈ s.threads.map Thread.id) :
    ∃ th, s.threads.find? (fun th ↦ th.id == id) = some th := by
  obtain ⟨th, hth, heq⟩ := List.mem_map.mp hid
  exact Option.isSome_iff_exists.mp (List.find?_isSome.mpr ⟨th, hth, by simpa using heq⟩)

theorem run_threadIp {th : Thread}
    (hpass : s.gate.refuses ⟨.threadContext, some id⟩ (s.gate.count .threadContext) = false)
    (hth : s.threads.find? (fun th ↦ th.id == id) = some th) :
    (threadIp id).run s = (.ok th.ip, { s with gate := s.gate.counted .threadContext }) := by
  simp only [threadIp, run_bind, run_pass_of_passes hpass, run_thread, hth, orFail, run_pure]

theorem run_threadPriority {th : Thread}
    (hpass : s.gate.refuses ⟨.threadPriority, some id⟩ (s.gate.count .threadPriority) = false)
    (hth : s.threads.find? (fun th ↦ th.id == id) = some th) :
    (threadPriority id).run s = (.ok th.priority, { s with gate := s.gate.counted .threadPriority })
    := by
  simp only [threadPriority, run_bind, run_pass_of_passes hpass, run_thread, hth, orFail, run_pure]

/-- A call passes when the gate does not refuse it. -/
theorem run_pass_eq_ok_iff {c : Call} {a : Unit} : (pass c).run s = (.ok a, t) ↔
    s.gate.refuses c (s.gate.count c.name) = false ∧ t = { s with gate := s.gate.counted c.name } := by
  rw [run_pass]
  cases s.gate.refuses c (s.gate.count c.name) with
  | false => exact ⟨fun h ↦ ⟨rfl, (Prod.mk.inj h).2.symm⟩, fun h ↦ by rw [h.2]; rfl⟩
  | true => exact ⟨fun h ↦ (by cases h), fun h ↦ (by cases h.1)⟩

/-- A thread is changed when it is there. -/
theorem run_setThread_eq_ok_iff {f : Thread → Thread} {a : Unit} :
    (setThread id f).run s = (.ok a, t) ↔
      id ∈ s.threads.map Thread.id ∧ t = s.withThread id f := by
  by_cases hid : id ∈ s.threads.map Thread.id
  · rw [run_setThread hid]
    exact ⟨fun h ↦ ⟨hid, (Prod.mk.inj h).2.symm⟩, fun h ↦ by rw [h.2]⟩
  · have hnone : s.threads.find? (fun th ↦ th.id == id) = none :=
      List.find?_eq_none.mpr fun th hth heq ↦
        hid (List.mem_map.mpr ⟨th, hth, by simpa using heq⟩)
    rw [setThread, run_bind, run_thread, hnone]
    exact ⟨fun h ↦ (by cases h), fun h ↦ absurd h.1 hid⟩

/-- A call changes a thread when it passes and the thread is there. -/
theorem run_changeThread_eq_ok_iff {c : Call} {f : Thread → Thread} {a : Unit} :
    (pass c >>= fun _ ↦ setThread id f).run s = (.ok a, t) ↔
      s.gate.refuses c (s.gate.count c.name) = false ∧ id ∈ s.threads.map Thread.id ∧
        t = { s with gate := s.gate.counted c.name }.withThread id f := by
  rw [run_bind_eq_ok_iff]
  constructor
  · rintro ⟨_, u, hcall, hset⟩
    obtain ⟨hpass, rfl⟩ := run_pass_eq_ok_iff.mp hcall
    exact ⟨hpass, run_setThread_eq_ok_iff.mp hset⟩
  · rintro ⟨hpass, hset⟩
    exact ⟨(), _, run_pass_eq_ok_iff.mpr ⟨hpass, rfl⟩, run_setThread_eq_ok_iff.mpr hset⟩

end Target

namespace Cave

variable {s t u : Target} {l : Leeway} {page : UInt64} {id : UInt32} {parked : List ParkedThread}

/-! ### Parking -/

/-- A thread as it is once certain threads were moved into a page. -/
def settle (page : UInt64) (ids : List UInt32) (th : Thread) : Thread :=
  if th.id ∈ ids then ⟨th.id, page, Target.lowestPriority⟩ else th

theorem settle_settle (page : UInt64) (id : UInt32) (ids : List UInt32) (th : Thread) :
    settle page ids (settle page [id] th) = settle page (id :: ids) th := by
  unfold settle
  by_cases hid : th.id = id
  · simp [hid]
  · simp [hid]

/-- A thread that was moved is in the page, at the lowest priority. -/
theorem threads_of_move {a : Unit} (h : (move page id).run s = (.ok a, t)) :
    t.threads = s.threads.map (settle page [id]) := by
  obtain ⟨_, u, hip, hpriority⟩ := run_bind_eq_ok_iff.mp h
  obtain ⟨-, -, rfl⟩ := Target.run_changeThread_eq_ok_iff.mp hip
  obtain ⟨-, -, rfl⟩ := Target.run_changeThread_eq_ok_iff.mp hpriority
  simp only [Target.withThread, List.map_map]
  refine List.map_congr_left fun th _ ↦ ?_
  by_cases hid : th.id = id
  · simp [settle, hid]
  · simp [settle, hid]

/-- Observing a thread changes none. -/
theorem threads_of_observe {p : ParkedThread} (h : (observe id).run s = (.ok p, t)) :
    t.threads = s.threads ∧ p.id = id := by
  obtain ⟨hwithin, hid, -⟩ :=
    (triple_observe (l := .at .none) (t := s) List.not_mem_nil).ok (.refl ..) h
  exact ⟨hwithin.threads_eq rfl, hid⟩

/-- Which threads are recorded: all that were to be parked, or as many as were seen before one could
not be parked. Once all are parked, each of them is in the page at the lowest priority. -/
theorem parkEach_ids (page : UInt64) (ids : List UInt32) (parked : List ParkedThread) (s : Target) :
    ∃ seen unseen, ids = seen ++ unseen ∧
      ((parkEach page parked ids).run s).1.1.map ParkedThread.id
        = parked.map ParkedThread.id ++ seen ∧
      (((parkEach page parked ids).run s).1.2 = .ok () → unseen = [] ∧
        ((parkEach page parked ids).run s).2.threads = s.threads.map (settle page ids)) := by
  induction ids generalizing parked s with
  | nil =>
    refine ⟨[], [], rfl, (List.append_nil _).symm, fun _ ↦ ⟨rfl, ?_⟩⟩
    exact (List.map_id'' (fun th ↦ if_neg List.not_mem_nil) _).symm
  | cons id ids ih =>
    rw [run_parkEach_cons]
    rcases hobserve : (observe id).run s with ⟨_ | thread, s₁⟩
    · exact ⟨[], id :: ids, rfl, (List.append_nil _).symm, fun h ↦ by cases h⟩
    · obtain ⟨hthreads, hid⟩ := threads_of_observe hobserve
      have hseen : (parked ++ [thread]).map ParkedThread.id = parked.map ParkedThread.id ++ [id] := by
        rw [List.map_append, List.map_singleton, hid]
      dsimp only
      rcases hmove : (move page id).run s₁ with ⟨_ | _, s₂⟩
      · exact ⟨[id], ids, rfl, hseen, fun h ↦ by cases h⟩
      · obtain ⟨seen, unseen, hsplit, hrecorded, hall⟩ := ih (parked ++ [thread]) s₂
        refine ⟨id :: seen, unseen, by rw [hsplit]; rfl, ?_, fun hok ↦ ?_⟩
        · rw [hrecorded, hseen, List.append_assoc]
          rfl
        · obtain ⟨hnil, hsettled⟩ := hall hok
          refine ⟨hnil, ?_⟩
          rw [hsettled, threads_of_move hmove, hthreads, List.map_map]
          exact List.map_congr_left fun th _ ↦ settle_settle page id ids th

/-- Which threads are parked unless parking stops short. -/
def toPark (command : Option UInt32) (t : Target) : List UInt32 :=
  (t.threads.map Thread.id).filter fun id ↦ some id != command

theorem run_parkAll_of (hgate : s.gate.RefusesThreadsOnly) (page : UInt64)
    (command : Option UInt32) : (parkAll page command).run s =
      let r := (parkEach page [] (toPark command s)).run
        { s.held with gate := s.held.gate.counted .threads }
      (r.1, (Target.resume.run r.2).2) := by
  rw [run_parkAll, Target.run_suspend hgate]
  dsimp only
  rw [Target.run_threadIds (by exact hgate)]
  rfl

/-- What parking all threads comes to: nothing changes but the threads that are recorded, and their
records hold what they were. -/
theorem parkAll_within_of (hgate : s.gate.RefusesThreadsOnly) {command : Option UInt32}
    {result : Outcome Unit} (hrun : (parkAll page command).run s = ((parked, result), u)) :
    s.Within (leeway (.at .none) parked) u ∧ Records s parked ∧
      ∃ seen unseen, toPark command s = seen ++ unseen ∧ parked.map ParkedThread.id = seen ∧
        (result = .ok () → unseen = [] ∧ u.threads = s.threads.map (settle page seen)) := by
  rw [run_parkAll_of hgate] at hrun
  generalize hlisted : ({ s.held with gate := _ } : Target) = listed at hrun
  have hin : s.Within { Leeway.at .none with held := 1 } listed := by
    obtain ⟨hpid, hrefuses, hthreads, hheld, hnext, hmemory⟩ :=
      (Target.Within.refl .none false s).held
    exact hlisted ▸ ⟨hpid, hrefuses, hthreads, hheld, hnext, hmemory⟩
  obtain ⟨seen, unseen, hsplit, hseen, hall⟩ := parkEach_ids page (toPark command s) [] listed
  have hwithin := parkEach_within (l := { Leeway.at .none with held := 1 }) page (toPark command s) []
    (s.distinct.filter _) hin fun _ h ↦ by cases h
  rcases hpark : (parkEach page [] (toPark command s)).run listed with ⟨⟨parked', result'⟩, s'⟩
  rw [hpark] at hrun hseen hall hwithin
  cases hrun
  dsimp only at hwithin hseen hall
  have hsuspended : s'.suspensions = s.suspensions + 1 := hwithin.1.suspensions
  have hresumed : s.Within (leeway (.at .none) parked) (Target.resume.run s').2 :=
    Target.Within.resumed hgate hwithin.1
  refine ⟨hresumed, hwithin.2, seen, unseen, hsplit, hseen, fun hok ↦ ?_⟩
  obtain ⟨rfl, hsettled⟩ := hall hok
  refine ⟨rfl, ?_⟩
  rw [Target.run_resume (hwithin.1.refusesThreadsOnly hgate) (by omega)]
  rw [List.append_nil] at hsplit
  rw [← hsplit, ← hin.threads_eq rfl]
  exact hsettled

/-- A thread that is there can be parked where no call is refused. -/
theorem run_park_of_passes (hgate : ∀ c n, s.gate.refuses c n = false)
    (hid : id ∈ s.threads.map Thread.id) (page : UInt64) :
    ∃ p t u, (observe id).run s = (.ok p, t) ∧ (move page id).run t = (.ok ⟨⟩, u) ∧
      u.gate.refuses = s.gate.refuses ∧ u.threads.map Thread.id = s.threads.map Thread.id := by
  obtain ⟨th, hth⟩ := Target.exists_find? hid
  refine ⟨⟨id, th.ip, th.priority⟩, { s with
    gate := (s.gate.counted .threadContext).counted .threadPriority }, _, ?_,
    run_bind_eq_ok_iff.mpr ⟨(), _, Target.run_changeThread_eq_ok_iff.mpr ⟨hgate _ _, hid, rfl⟩,
      Target.run_changeThread_eq_ok_iff.mpr ⟨hgate _ _, ?_, rfl⟩⟩, rfl, ?_⟩
  · rw [observe, run_bind, Target.run_threadIp (hgate _ _) hth]
    dsimp only
    rw [run_bind, Target.run_threadPriority (by exact hgate _ _) (by exact hth)]
    rfl
  · rw [Target.threadIds_withThread]
    exact hid
  · rw [Target.threadIds_withThread]
    exact Target.threadIds_withThread ..

/-- Threads that are there are all parked where no call is refused. -/
theorem parkEach_ok (page : UInt64) {ids : List UInt32} (parked : List ParkedThread)
    (hgate : ∀ c n, s.gate.refuses c n = false) (hids : ∀ id ∈ ids, id ∈ s.threads.map Thread.id) :
    ((parkEach page parked ids).run s).1.2 = .ok () := by
  induction ids generalizing parked s with
  | nil => rfl
  | cons id ids ih =>
    obtain ⟨p, t, u, hobserve, hmove, hrefuses, hsame⟩ :=
      run_park_of_passes hgate (hids id (List.mem_cons_self ..)) page
    rw [run_parkEach_cons, hobserve]
    dsimp only
    rw [hmove]
    refine ih _ (fun c n ↦ hrefuses ▸ hgate c n) fun id' hid' ↦ ?_
    exact hsame ▸ hids id' (List.mem_cons_of_mem _ hid')

/-- All threads are parked where no call is refused. -/
theorem parkAll_ok (page : UInt64) (command : Option UInt32)
    (hgate : ∀ c n, s.gate.refuses c n = false) :
    ((parkAll page command).run s).1.2 = .ok () := by
  rw [run_parkAll_of fun c n _ ↦ hgate c n]
  exact parkEach_ok page [] hgate fun id hid ↦ (List.mem_filter.mp hid).1

/-! ### The page -/

/-- Opens the page of a cave. -/
def opening : TargetM UInt64 := do
  let page ← Target.allocate spin.size
  Target.writeMemory page spin
  Target.flush
  pure page

/-- Entering a cave opens its page and parks the threads, and leaves the cave again when a thread
could not be parked. -/
theorem run_enter (command : Option UInt32) (t : Target) :
    (enter command).run t = match opening.run t with
      | (.error stop, s) => (.error stop, s)
      | (.ok page, s) => match (parkAll page command).run s with
        | ((parked, .ok ()), u) => (.ok ⟨page, parked⟩, u)
        | ((parked, .error stop), u) => (.error stop, ((leave ⟨page, parked⟩).run u).2) := by
  simp only [enter, opening, run_bind]
  rcases (Target.allocate spin.size).run t with ⟨_ | page, s⟩
  · rfl
  · dsimp only
    rcases (Target.writeMemory page spin).run s with ⟨_ | _, s⟩
    · rfl
    · dsimp only
      rcases Target.flush.run s with ⟨_ | _, s⟩
      · rfl
      · dsimp only
        rw [run_pure]
        dsimp only
        rcases hpark : (parkAll page command).run s with ⟨⟨parked, _ | _⟩, u⟩ <;>
          simp only [ExceptT.run, ExceptT.mk, bind, StateT.bind, StateT.run] at hpark ⊢ <;>
          rw [hpark] <;> rfl

/-- The page of a cave is opened where nothing was allocated yet. -/
theorem run_opening (hgate : t.gate.RefusesThreadsOnly)
    (hroom : t.nextAllocation.toNat + Target.granularity.toNat < 0x10000000000000000) :
    ∃ s, opening.run t = (.ok t.nextAllocation, s) ∧
      (opened t t.nextAllocation).Within (leewayInside (.at .none) ⟨t.nextAllocation, []⟩) s ∧
      (opened t t.nextAllocation).memory.write t.nextAllocation spin = .ok s.memory := by
  have hrounded : Word.alignUp? (UInt64.ofNat (max spin.size 1)) Target.granularity
      = some Target.granularity := by decide
  have hnext : Word.add64? t.nextAllocation Target.granularity
      = some (t.nextAllocation + Target.granularity) := if_pos hroom
  have hwindow : (opened t t.nextAllocation).memory.window t.nextAllocation spin.size
      = .ok (⟨t.nextAllocation, Bytes.fill spin.size 0⟩, 0) :=
    Memory.window_map _ _ (by simp [Bytes.fill]) (by simp [Bytes.fill, spin])
  obtain ⟨n, hwrite⟩ : ∃ n, (opened t t.nextAllocation).memory.write t.nextAllocation spin = .ok n :=
    ⟨_, Memory.write_eq_ok_iff.mpr ⟨_, 0, hwindow, rfl⟩⟩
  have hallocate : (Target.allocate spin.size).run t = (.ok t.nextAllocation,
      { opened t t.nextAllocation with
        gate := t.gate.counted .allocate, nextAllocation := t.nextAllocation + Target.granularity })
      := by
    simp only [Target.allocate, run_bind, Target.run_pass_of_passes (hgate ⟨.allocate, none⟩ _ rfl),
      run_get, run_lift, hrounded, hnext, orFault, run_set, run_pure]
    rfl
  rw [opening, run_bind, hallocate]
  dsimp only
  rw [run_bind, Target.run_writeMemory (n := n) (by exact hgate) (by exact hwrite)]
  dsimp only
  rw [run_bind, Target.run_flush (by exact hgate)]
  refine ⟨_, rfl, ⟨rfl, rfl, List.forall₂_same.mpr fun _ _ ↦ ⟨rfl, fun _ ↦ rfl⟩, rfl,
    fun h ↦ Bool.noConfusion h, (Memory.agreesOff_write hwrite).mono fun r _ i hi ↦ ?_⟩, hwrite⟩
  obtain ⟨q, start, hw, hbase, -, -⟩ := hi
  rw [hwindow] at hw
  cases hw
  exact .inr hbase.symm

end Cave
end LivePatch
