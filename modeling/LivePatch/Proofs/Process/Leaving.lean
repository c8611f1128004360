import LivePatch.Proofs.Process.Parking

/-!
# Leaving a cave

Leaving puts the parked threads back one after another. It stops at the first thread that cannot be
put back: the threads behind it stay in the page, and the page stays. So a cave frees every thread
that it can exactly when it can free every thread. The other threads, the one that serves commands
among them, and the suspensions are in every case what they were.
-/

namespace LivePatch

namespace Target

/-- A thread whose state can be set from now on. -/
structure CanPlace (t : Target) (id : UInt32) : Prop where
  isThere : id ∈ t.threads.map Thread.id
  passes : ∀ (c : Call) (n : Nat), c.thread = some id →
    (c.name = .setThreadContext ∨ c.name = .setThreadPriority) → t.gate.count c.name ≤ n →
    t.gate.refuses c n = false

/-- The calls that put a thread back pass when as many threads as are told were put back before. -/
structure LetsRelease (t : Target) (before : Nat) (id : UInt32) : Prop where
  isThere : id ∈ t.threads.map Thread.id
  context : t.gate.refuses ⟨.setThreadContext, some id⟩
    (t.gate.count .setThreadContext + before) = false
  priority : t.gate.refuses ⟨.setThreadPriority, some id⟩
    (t.gate.count .setThreadPriority + before) = false

end Target

namespace Cave

variable {s t u w : Target} {p : ParkedThread} {parked : List ParkedThread}

/-! ### Putting threads back -/

/-- The thread of a record. -/
def recorded (p : ParkedThread) : Thread := ⟨p.id, p.ip, p.priority⟩

/-- A process in which a thread was put back. -/
def released (s : Target) (p : ParkedThread) : Target :=
  let moved := { s with gate := s.gate.counted .setThreadContext }.withThread p.id
    fun th ↦ { th with ip := p.ip }
  { moved with gate := moved.gate.counted .setThreadPriority }.withThread p.id
    fun th ↦ { th with priority := p.priority }

theorem threads_released (s : Target) (p : ParkedThread) :
    (released s p).threads = s.threads.map fun th ↦ if th.id = p.id then recorded p else th := by
  simp only [released, Target.withThread, List.map_map]
  refine List.map_congr_left fun th _ ↦ ?_
  by_cases hid : th.id = p.id
  · simp [recorded, hid]
  · simp [hid]

theorem threadIds_released (s : Target) (p : ParkedThread) :
    (released s p).threads.map Thread.id = s.threads.map Thread.id := by
  rw [released, Target.threadIds_withThread]
  exact Target.threadIds_withThread ..

/-- The calls for a thread pass behind another one as they pass with one more before them. -/
theorem letsRelease_released (s : Target) (p : ParkedThread) (before : Nat) (id : UInt32) :
    (released s p).LetsRelease before id ↔ s.LetsRelease (before + 1) id := by
  have hcontext : (released s p).gate.count .setThreadContext
      = s.gate.count .setThreadContext + 1 := by
    simp [released, Target.withThread, Gate.count_counted]
  have hpriority : (released s p).gate.count .setThreadPriority
      = s.gate.count .setThreadPriority + 1 := by
    simp [released, Target.withThread, Gate.count_counted]
  have hrefuses : (released s p).gate.refuses = s.gate.refuses := rfl
  constructor
  · rintro ⟨hid, hip, hprio⟩
    rw [hrefuses] at hip hprio
    refine ⟨threadIds_released s p ▸ hid, ?_, ?_⟩
    · rwa [hcontext, Nat.add_right_comm, Nat.add_assoc] at hip
    · rwa [hpriority, Nat.add_right_comm, Nat.add_assoc] at hprio
  · rintro ⟨hid, hip, hprio⟩
    refine ⟨(threadIds_released s p).symm ▸ hid, ?_, ?_⟩
    · rwa [hrefuses, hcontext, Nat.add_right_comm, Nat.add_assoc]
    · rwa [hrefuses, hpriority, Nat.add_right_comm, Nat.add_assoc]

/-- Suspending a process counts none of the calls that put threads back. -/
theorem letsRelease_held (w : Target) (before : Nat) (id : UInt32) :
    w.held.LetsRelease before id ↔ w.LetsRelease before id := by
  have hcontext : w.held.gate.count .setThreadContext = w.gate.count .setThreadContext :=
    Gate.count_counted ..
  have hpriority : w.held.gate.count .setThreadPriority = w.gate.count .setThreadPriority :=
    Gate.count_counted ..
  constructor
  · rintro ⟨hid, hip, hprio⟩
    exact ⟨hid, hcontext ▸ hip, hpriority ▸ hprio⟩
  · rintro ⟨hid, hip, hprio⟩
    exact ⟨hid, hcontext.symm ▸ hip, hpriority.symm ▸ hprio⟩

/-- A thread is put back when both calls pass and it is there. -/
theorem run_release_eq_ok_iff {a : Unit} :
    (release p).run s = (.ok a, t) ↔ s.LetsRelease 0 p.id ∧ t = released s p := by
  have hcount := Gate.count_counted s.gate .setThreadContext .setThreadPriority
  unfold release
  rw [run_bind_eq_ok_iff]
  constructor
  · rintro ⟨_, u, hmove, hset⟩
    obtain ⟨hcontext, hid, rfl⟩ :=
      Target.run_changeThread_eq_ok_iff.mp (run_inContext_eq_ok_iff.mp hmove)
    obtain ⟨hpriority, -, rfl⟩ := Target.run_changeThread_eq_ok_iff.mp hset
    exact ⟨⟨hid, hcontext, hcount ▸ hpriority⟩, rfl⟩
  · rintro ⟨⟨hid, hcontext, hpriority⟩, rfl⟩
    refine ⟨(), _, run_inContext_eq_ok_iff.mpr
      (Target.run_changeThread_eq_ok_iff.mpr ⟨hcontext, hid, rfl⟩),
      Target.run_changeThread_eq_ok_iff.mpr ⟨hcount.symm ▸ hpriority, ?_, rfl⟩⟩
    rw [Target.threadIds_withThread]
    exact hid

/-- All threads are put back when each of them lets itself be put back in its turn. -/
theorem exists_run_releaseAll_iff : (∃ t, (parked.forM release).run s = (.ok ⟨⟩, t)) ↔
    ∀ i p, parked[i]? = some p → s.LetsRelease i p.id := by
  induction parked generalizing s with
  | nil => exact ⟨fun _ i p hp ↦ (by cases hp), fun _ ↦ ⟨s, rfl⟩⟩
  | cons p parked ih =>
    have hstep : (∃ t, ((p :: parked).forM release).run s = (.ok ⟨⟩, t)) ↔
        s.LetsRelease 0 p.id ∧ ∃ t, (parked.forM release).run (released s p) = (.ok ⟨⟩, t) := by
      change (∃ t, (release p >>= fun _ ↦ parked.forM release).run s = _) ↔ _
      constructor
      · rintro ⟨t, ht⟩
        obtain ⟨_, u, hp, hrest⟩ := run_bind_eq_ok_iff.mp ht
        obtain ⟨hlets, rfl⟩ := run_release_eq_ok_iff.mp hp
        exact ⟨hlets, t, hrest⟩
      · rintro ⟨hlets, t, hrest⟩
        exact ⟨t, run_bind_eq_ok_iff.mpr ⟨(), _, run_release_eq_ok_iff.mpr ⟨hlets, rfl⟩, hrest⟩⟩
    rw [hstep, ih]
    constructor
    · rintro ⟨hfirst, hrest⟩ (_ | i) q hq
      · cases hq
        exact hfirst
      · exact (letsRelease_released s p i q.id).mp (hrest i q hq)
    · intro hall
      exact ⟨hall 0 p rfl, fun i q hq ↦ (letsRelease_released s p i q.id).mpr (hall (i + 1) q hq)⟩

/-- Threads that were put back are what they were recorded as, and no other thread was changed. -/
theorem threads_of_releaseAll {a : Unit} (hnodup : (parked.map ParkedThread.id).Nodup)
    (h : (parked.forM release).run s = (.ok a, t)) :
    (∀ p ∈ parked, recorded p ∈ t.threads) ∧
      ∀ th ∈ s.threads, th.id ∉ parked.map ParkedThread.id → th ∈ t.threads := by
  induction parked generalizing s with
  | nil =>
    cases h
    exact ⟨fun p hp ↦ (List.not_mem_nil hp).elim, fun th hth _ ↦ hth⟩
  | cons p parked ih =>
    obtain ⟨_, u, hp, hrest⟩ :=
      run_bind_eq_ok_iff.mp (show (release p >>= fun _ ↦ parked.forM release).run s = _ from h)
    obtain ⟨⟨hid, -, -⟩, rfl⟩ := run_release_eq_ok_iff.mp hp
    rw [List.map_cons, List.nodup_cons] at hnodup
    obtain ⟨hback, hothers⟩ := ih hnodup.2 hrest
    rw [threads_released] at hothers
    refine ⟨fun q hq ↦ ?_, fun th hth hnot ↦ ?_⟩
    · rcases List.mem_cons.mp hq with rfl | hq
      · obtain ⟨th, hth, heq⟩ := List.mem_map.mp hid
        exact hothers _ (List.mem_map.mpr ⟨th, hth, if_pos heq⟩) hnodup.1
      · exact hback q hq
    · rw [List.map_cons, List.mem_cons, not_or] at hnot
      exact hothers th (List.mem_map.mpr ⟨th, hth, if_neg hnot.1⟩) hnot.2

/-- Putting a thread back strays no further when it may be moved. -/
theorem keeps_release {l : Leeway} (hp : p.id ∈ l.moved) : Keeps (w.Within l) (release p) :=
  (Target.keeps_setThreadIp hp _).inContext.bind fun _ ↦ Target.keeps_setThreadPriority hp _

theorem keeps_releaseAll {l : Leeway} (hparked : ∀ p ∈ parked, p.id ∈ l.moved) :
    Keeps (w.Within l) (parked.forM release) :=
  Keeps.forM fun p hp ↦ keeps_release (hparked p hp)

/-! ### Leaving -/

variable {c : Cave}

/-- A process that is held may have its parked threads moved. -/
theorem within_held (w : Target) (parked : List ParkedThread) :
    w.Within { leeway (.at .none) parked with held := 1 } w.held :=
  ((Target.Within.refl .none false w).mono_moved fun _ h ↦ (List.not_mem_nil h).elim).held

/-- Leaving frees the page behind the last thread, unless one could not be put back. -/
theorem leave_cases (hgate : w.gate.RefusesThreadsOnly) (hpage : w.memory.isMapped c.page = true) :
    ∃ r s, (c.parked.forM release).run w.held = (r, s) ∧
      ((leave c).run w).2.threads = s.threads ∧
      ((leave c).run w).2.suspensions = w.suspensions ∧
      ((leave c).run w).2.memory = match r with
        | .ok _ => w.memory.unmap c.page
        | .error _ => w.memory := by
  have hwithin := (keeps_releaseAll (l := { leeway (.at .none) c.parked with held := 1 })
    fun p hp ↦ List.mem_map.mpr ⟨p, hp, rfl⟩).run (within_held w c.parked)
  rcases hrun : (c.parked.forM release).run w.held with ⟨r, s⟩
  rw [hrun] at hwithin
  dsimp only at hwithin
  have hsuspended : s.suspensions = w.suspensions + 1 := hwithin.suspensions
  have hmemory : w.memory = s.memory := hwithin.memory.eq
  have hs := hwithin.refusesThreadsOnly hgate
  refine ⟨r, s, rfl, ?_⟩
  rw [leave, run_bind, Target.run_suspended _ hgate, hrun]
  dsimp only
  rw [Target.run_resume hs (by omega)]
  cases r with
  | error stop => exact ⟨rfl, by simp [hsuspended], hmemory.symm⟩
  | ok a =>
    dsimp only
    rw [Target.run_free (by exact hs) (by exact hmemory ▸ hpage)]
    exact ⟨rfl, by simp [hsuspended], congrArg (·.unmap c.page) hmemory.symm⟩

/-- What leaving always does: it gives the first threads their states back, up to one that cannot be
put back, leaves those behind it in the page and changes no other thread. The page is freed when no
thread is left in it. -/
structure Leaves (c : Cave) (w t : Target) : Prop where
  others : ∀ th ∈ w.threads, th.id ∉ c.parked.map ParkedThread.id → th ∈ t.threads
  suspensions : t.suspensions = w.suspensions
  regions : ∀ r, r.base ≠ c.page → (r ∈ t.memory.regions ↔ r ∈ w.memory.regions)
  stops : ∃ freed stuck, c.parked = freed ++ stuck ∧ (∀ p ∈ freed, recorded p ∈ t.threads) ∧
    (∀ p ∈ stuck.tail, ∀ th ∈ w.threads, th.id = p.id → th ∈ t.threads) ∧
    (t.memory.isMapped c.page = false ↔ stuck = [])

/-- A cave that was left freed what it could: every thread whose state could still be set has the
state it had before, and the page is gone. -/
structure Frees (c : Cave) (w t : Target) : Prop where
  threads : ∀ p ∈ c.parked, w.CanPlace p.id → recorded p ∈ t.threads
  page : t.memory.isMapped c.page = false

theorem isMapped_unmap (m : Memory) (base : UInt64) : (m.unmap base).isMapped base = false := by
  refine List.any_eq_false.mpr fun r hr ↦ ?_
  simpa using (List.mem_filter.mp hr).2

theorem mem_unmap {m : Memory} {base : UInt64} {r : Region} (hr : r.base ≠ base) :
    r ∈ (m.unmap base).regions ↔ r ∈ m.regions := by
  rw [Memory.unmap, List.mem_filter]
  simpa using fun _ ↦ hr

/-- Leaving a cave, whatever calls on single threads are refused. -/
theorem leaves_leave (hgate : w.gate.RefusesThreadsOnly) (hpage : w.memory.isMapped c.page = true)
    (hnodup : (c.parked.map ParkedThread.id).Nodup) : c.Leaves w ((leave c).run w).2 := by
  obtain ⟨r, s, hrun, hthreads, hsuspensions, hmemory⟩ := leave_cases hgate hpage
  have hmoved : ∀ p ∈ c.parked, p.id ∈ (leeway (.at .none) c.parked).moved := fun p hp ↦
    List.mem_map.mpr ⟨p, hp, rfl⟩
  have hwithin := (keeps_releaseAll (l := { leeway (.at .none) c.parked with held := 1 })
    hmoved).run (within_held w c.parked)
  rw [hrun] at hwithin
  have hothers : ∀ th ∈ w.threads, th.id ∉ c.parked.map ParkedThread.id → th ∈ s.threads := by
    intro th hth hnot
    obtain ⟨th', hth', hag⟩ := Pointwise.exists_right hwithin.threads hth
    exact hag.same hnot ▸ hth'
  have hregions : ∀ r, r.base ≠ c.page →
      (r ∈ ((leave c).run w).2.memory.regions ↔ r ∈ w.memory.regions) := by
    intro q hq
    rw [hmemory]
    cases r with
    | ok _ => exact mem_unmap hq
    | error _ => exact Iff.rfl
  refine ⟨by rwa [hthreads], hsuspensions, hregions, ?_⟩
  rw [hthreads, hmemory]
  cases r with
  | ok a =>
    refine ⟨c.parked, [], (List.append_nil _).symm, (threads_of_releaseAll hnodup hrun).1,
      fun p hp ↦ (List.not_mem_nil hp).elim, ?_⟩
    simp only [isMapped_unmap]
  | error stop =>
    obtain ⟨freed, p, after, v, hsplit, hfreed, hstop⟩ := run_forM_eq_error_iff.mp hrun
    rw [hsplit, List.map_append, List.map_cons, List.nodup_append, List.nodup_cons] at hnodup
    obtain ⟨hnodupFreed, ⟨hp, -⟩, hapart⟩ := hnodup
    obtain ⟨hback, hkept⟩ := threads_of_releaseAll hnodupFreed hfreed
    -- the thread that could not be put back is the only one that the last call may have changed
    have hlast : ∀ th ∈ v.threads, th.id ≠ p.id → th ∈ s.threads := by
      intro th hth hne
      have hmoved : v.Within { Leeway.at .none with moved := [p.id] } v :=
        (Target.Within.refl .none false v).mono_moved fun _ h ↦ (List.not_mem_nil h).elim
      have hstill := (keeps_release (List.mem_singleton_self p.id)).run hmoved
      rw [hstop] at hstill
      obtain ⟨th', hth', hag⟩ := Pointwise.exists_right hstill.threads hth
      exact hag.same (by simpa using hne) ▸ hth'
    refine ⟨freed, p :: after, hsplit, fun q hq ↦ hlast _ (hback q hq) ?_, ?_, ?_⟩
    · exact hapart q.id (List.mem_map.mpr ⟨q, hq, rfl⟩) p.id (List.mem_cons_self ..)
    · intro q hq th hth heq
      have hqid : q.id ∈ after.map ParkedThread.id := List.mem_map.mpr ⟨q, hq, rfl⟩
      refine hlast th (hkept th hth fun hmem ↦ ?_) fun hpid ↦ hp (hpid ▸ heq ▸ hqid)
      exact hapart th.id hmem q.id (List.mem_cons_of_mem _ hqid) heq
    · simp only [hpage, Bool.true_eq_false, List.cons_ne_nil]

/-- A cave frees what it can exactly when all of its threads can be put back in their turn. -/
theorem frees_leave_iff (hgate : w.gate.RefusesThreadsOnly)
    (hpage : w.memory.isMapped c.page = true) (hnodup : (c.parked.map ParkedThread.id).Nodup) :
    c.Frees w ((leave c).run w).2 ↔ ∀ i p, c.parked[i]? = some p → w.LetsRelease i p.id := by
  obtain ⟨r, s, hrun, hthreads, -, hmemory⟩ := leave_cases hgate hpage
  have hlets : (∀ i p, c.parked[i]? = some p → w.held.LetsRelease i p.id) ↔
      ∀ i p, c.parked[i]? = some p → w.LetsRelease i p.id := by simp only [letsRelease_held]
  rw [← hlets, ← exists_run_releaseAll_iff]
  constructor
  · rintro ⟨-, hfreed⟩
    rw [hmemory] at hfreed
    cases r with
    | ok a => exact ⟨s, hrun⟩
    | error stop =>
      rw [hpage] at hfreed
      cases hfreed
  · rintro ⟨t, hok⟩
    rw [hrun] at hok
    cases hok
    refine ⟨fun p hp _ ↦ ?_, ?_⟩
    · rw [hthreads]
      exact (threads_of_releaseAll hnodup hrun).1 p hp
    · rw [hmemory]
      exact isMapped_unmap ..

/-- What parking threads in a cave leaves of a process, also when it stopped short: the threads that
may have been moved are the recorded ones, among which is not the one that serves commands, and the
records hold what they were. -/
structure HasParked (c : Cave) (command : Option UInt32) (t u : Target) : Prop where
  records : Records t c.parked
  distinct : (c.parked.map ParkedThread.id).Nodup
  command : ∀ p ∈ c.parked, some p.id ≠ command
  others : ∀ th ∈ t.threads, th.id ∉ c.parked.map ParkedThread.id → th ∈ u.threads
  suspensions : u.suspensions = t.suspensions
  page : u.memory.isMapped c.page = true
  refuses : u.gate.refuses = t.gate.refuses

/-- The gate of a process with parked threads is what it was. -/
theorem HasParked.gate {command : Option UInt32} (h : c.HasParked command t u)
    (hgate : t.gate.RefusesThreadsOnly) : u.gate.RefusesThreadsOnly := by
  unfold Gate.RefusesThreadsOnly
  rw [h.refuses]
  exact hgate

theorem hasParked_parkAll {v : Target} {page : UInt64} {command : Option UInt32} {result : Outcome Unit}
    (hgate : t.gate.RefusesThreadsOnly)
    (hopened : (opened t page).Within (leewayInside (.at .none) ⟨page, []⟩) v)
    (hrun : (parkAll page command).run v = ((parked, result), u)) :
    HasParked ⟨page, parked⟩ command t u ∧
      (result = .ok () → parked.map ParkedThread.id = toPark command t) := by
  have hthreads : v.threads = t.threads := hopened.threads_eq rfl
  have hv : v.gate.RefusesThreadsOnly := hopened.refusesThreadsOnly hgate
  obtain ⟨hwithin, hrecords, seen, unseen, hsplit, rfl, hall⟩ := parkAll_within_of hv hrun
  have hmem : ∀ p ∈ parked, p.id ∈ toPark command v := fun p hp ↦
    hsplit ▸ List.mem_append_left _ (List.mem_map.mpr ⟨p, hp, rfl⟩)
  have hnodup : (parked.map ParkedThread.id ++ unseen).Nodup := hsplit ▸ v.distinct.filter _
  refine ⟨⟨fun p hp ↦ hthreads ▸ hrecords p hp, (List.nodup_append.mp hnodup).1,
    fun p hp ↦ by simpa using (List.mem_filter.mp (hmem p hp)).2, fun th hth hnot ↦ ?_, ?_, ?_,
    hwithin.refuses.trans hopened.refuses⟩, fun hok ↦ ?_⟩
  · obtain ⟨th', hth', hag⟩ := Pointwise.exists_right hwithin.threads (hthreads ▸ hth)
    exact hag.same hnot ▸ hth'
  · exact hwithin.suspensions.trans hopened.suspensions
  · rw [← hwithin.memory.isMapped, ← hopened.memory.isMapped]
    exact isMapped_opened t page
  · rw [(hall hok).1, List.append_nil] at hsplit
    rw [← hsplit, toPark, hthreads]
    rfl

/-- Entering a cave parks every thread but the one that serves commands, or stops short at one that
cannot be parked and leaves the cave again. -/
theorem enter_cases (hgate : t.gate.RefusesThreadsOnly)
    (hroom : t.nextAllocation.toNat + Target.granularity.toNat < 0x10000000000000000)
    (command : Option UInt32) :
    ∃ (c : Cave) (r : Outcome Unit) (s u : Target), opening.run t = (.ok c.page, s) ∧
      (parkAll c.page command).run s = ((c.parked, r), u) ∧ c.HasParked command t u ∧
      (enter command).run t = (match r with
        | .ok _ => (.ok c, u)
        | .error stop => (.error stop, (c.leave.run u).2)) ∧
      (r = .ok () → c.parked.map ParkedThread.id = toPark command t) := by
  obtain ⟨s, hopen, hopened, -⟩ := run_opening hgate hroom
  rcases hpark : (parkAll t.nextAllocation command).run s with ⟨⟨parked, r⟩, u⟩
  obtain ⟨hparks, hall⟩ := hasParked_parkAll hgate hopened hpark
  refine ⟨⟨t.nextAllocation, parked⟩, r, s, u, hopen, hpark, hparks, ?_, hall⟩
  rw [run_enter, hopen]
  dsimp only
  rw [hpark]
  cases r <;> rfl

/-! ### What a cave frees -/

/-- A cave frees every thread that it can, and its page, exactly when it can free all of them in
their turn. That holds when the cave is left after work in it as well as when entering it failed
midway; in either case the process loses the suspension again and the thread that serves commands is
never touched. A thread that cannot be put back keeps those behind it in the page. -/
theorem frees_threads_iff_each_can_be_put_back (hgate : t.gate.RefusesThreadsOnly)
    (hroom : t.nextAllocation.toNat + Target.granularity.toNat < 0x10000000000000000)
    (command : Option UInt32) :
    (∀ c u, (enter command).run t = (.ok c, u) →
      c.HasParked command t u ∧ c.parked.map ParkedThread.id = toPark command t ∧
        ∀ w : Target, w.gate.RefusesThreadsOnly → w.memory.isMapped c.page = true →
          c.Leaves w (c.leave.run w).2 ∧ (c.Frees w (c.leave.run w).2 ↔
            ∀ i p, c.parked[i]? = some p → w.LetsRelease i p.id)) ∧
    ∀ stop t', (enter command).run t = (.error stop, t') →
      ∃ (c : Cave) (s u : Target), opening.run t = (.ok c.page, s) ∧
        (parkAll c.page command).run s = ((c.parked, .error stop), u) ∧
        c.HasParked command t u ∧ c.Leaves u t' ∧
        (c.Frees u t' ↔ ∀ i p, c.parked[i]? = some p → u.LetsRelease i p.id) := by
  obtain ⟨c, r, s, u, hopen, hpark, hparks, hrun, hall⟩ := enter_cases hgate hroom command
  have hleft : ∀ w : Target, w.gate.RefusesThreadsOnly → w.memory.isMapped c.page = true →
      c.Leaves w (c.leave.run w).2 ∧ (c.Frees w (c.leave.run w).2 ↔
        ∀ i p, c.parked[i]? = some p → w.LetsRelease i p.id) := fun w hw hpage ↦
    ⟨leaves_leave hw hpage hparks.distinct, frees_leave_iff hw hpage hparks.distinct⟩
  rw [hrun]
  cases r with
  | ok a =>
    refine ⟨fun c' u' h ↦ ?_, fun stop t' h ↦ (by cases h)⟩
    cases h
    exact ⟨hparks, hall rfl, hleft⟩
  | error stop =>
    refine ⟨fun c' u' h ↦ (by cases h), fun stop' t' h ↦ ?_⟩
    cases h
    exact ⟨c, s, u, hopen, hpark, hparks, hleft u (hparks.gate hgate) hparks.page⟩

namespace EndedThread

/-- A process of two threads and one that serves commands, the first of which ends once both are
parked: its context can be set no more. -/
def process : Target :=
  { (((Target.ofPid 7).spawn 0x1000).spawn 0x2000).spawn 0x3000 with
    gate := ⟨fun c n ↦ c.name == .setThreadContext && c.thread == some 1 && decide (2 ≤ n), []⟩ }

/-- The process with its threads parked. -/
def inside : Target := ((enter (some 3)).run process).2

/-- The cave in which they are. -/
def cave : Cave := ⟨Target.allocationStart, [⟨1, 0x1000, 0⟩, ⟨2, 0x2000, 0⟩]⟩

theorem process_refusesThreadsOnly : process.gate.RefusesThreadsOnly := by
  intro c n hc
  simp [process, hc]

theorem run_enter_process : (enter (some 3)).run process = (.ok cave, inside) :=
  run_eq_of_result (by decide +kernel)

theorem inside_canPlace : inside.CanPlace 2 := by
  obtain ⟨c, r, s, u, -, -, hparks, hrun, -⟩ :=
    enter_cases process_refusesThreadsOnly (by decide) (some 3)
  rw [run_enter_process] at hrun
  cases r with
  | error stop => cases hrun
  | ok a =>
    have hrefuses : inside.gate.refuses = process.gate.refuses :=
      (congrArg (fun t ↦ t.gate.refuses) (Prod.mk.inj hrun).2).trans hparks.refuses
    refine ⟨by decide +kernel, fun c n hc _ _ ↦ ?_⟩
    rw [hrefuses]
    simp [process, hc]

/-- The cave of a process of which a parked thread ended does not free the other thread, though its
state could be set, and the page stays. -/
theorem ended_thread_keeps_another_parked :
    process.gate.RefusesThreadsOnly ∧
      process.nextAllocation.toNat + Target.granularity.toNat < 0x10000000000000000 ∧
      (enter (some 3)).run process = (.ok cave, inside) ∧ ⟨2, 0x2000, 0⟩ ∈ cave.parked ∧
      inside.CanPlace 2 ∧
      ⟨2, cave.page, Target.lowestPriority⟩ ∈ (cave.leave.run inside).2.threads ∧
      (cave.leave.run inside).2.memory.isMapped cave.page = true ∧
      ¬cave.Frees inside (cave.leave.run inside).2 := by
  have hmapped : (cave.leave.run inside).2.memory.isMapped cave.page = true := by decide +kernel
  refine ⟨process_refusesThreadsOnly, by decide, run_enter_process, by decide, inside_canPlace,
    by decide +kernel, hmapped, fun hfrees ↦ ?_⟩
  rw [hfrees.page] at hmapped
  cases hmapped

/-- What comes of a cave with an ended thread in it: the thread that serves commands is what it was,
the process is resumed, and nothing is freed because the first thread does not let itself be put back. -/
theorem ended_thread_keeps_cave :
    process.gate.RefusesThreadsOnly ∧
      process.nextAllocation.toNat + Target.granularity.toNat < 0x10000000000000000 ∧
      (cave.HasParked (some 3) process inside ∧ cave.Leaves inside (cave.leave.run inside).2) ∧
      (cave.Frees inside (cave.leave.run inside).2 ↔
        ∀ i p, cave.parked[i]? = some p → inside.LetsRelease i p.id) ∧
      ¬inside.LetsRelease 0 1 := by
  have hroom : process.nextAllocation.toNat + Target.granularity.toNat < 0x10000000000000000 := by
    decide
  obtain ⟨hparks, -, hleft⟩ := (frees_threads_iff_each_can_be_put_back process_refusesThreadsOnly
    hroom (some 3)).1 cave inside run_enter_process
  obtain ⟨hleaves, hiff⟩ := hleft inside (hparks.gate process_refusesThreadsOnly) hparks.page
  refine ⟨process_refusesThreadsOnly, hroom, ⟨hparks, hleaves⟩, hiff, fun hlets ↦ ?_⟩
  have hrefused : inside.gate.refuses ⟨.setThreadContext, some 1⟩
      (inside.gate.count .setThreadContext + 0) = true := by decide +kernel
  rw [hlets.context] at hrefused
  cases hrefused

end EndedThread
end Cave
end LivePatch
