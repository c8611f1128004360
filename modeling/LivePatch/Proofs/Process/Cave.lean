import LivePatch.Process.Cave
import LivePatch.Proofs.Pointwise
import LivePatch.Proofs.Process.Leeway

/-!
# Entering and leaving a cave

A process that entered a cave and left it has the threads and the memory it had before, and so has a
process that could not enter. The invariant in between: a thread that is not recorded as parked is
where it was, and a record holds what its thread was.
-/

namespace LivePatch

namespace Memory

/-- An access to the start of bytes that were just mapped. -/
theorem window_map (m : Memory) (base : UInt64) {bytes : Bytes} {len : Nat}
    (hlen : len ≤ bytes.size) (hsize : bytes.size < 0x10000000000000000) :
    (m.map base bytes).window base len = .ok (⟨base, bytes⟩, 0) := by
  rw [window_eq_ok_iff]
  refine ⟨?_, by simp, by omega, by simpa using hlen⟩
  have hlow : (m.regions.filter fun r ↦ r.base < base).filter (fun r ↦ r.base ≤ base)
      = m.regions.filter fun r ↦ r.base < base := by
    refine List.filter_eq_self.mpr fun r hr ↦ ?_
    have : r.base < base := by simpa using (List.mem_filter.mp hr).2
    simpa using UInt64.le_of_lt this
  have hhigh : (m.regions.filter fun r ↦ base < r.base).filter (fun r ↦ r.base ≤ base) = [] := by
    refine List.filter_eq_nil_iff.mpr fun r hr ↦ ?_
    have : base < r.base := by simpa using (List.mem_filter.mp hr).2
    simpa using this
  unfold candidate? map
  rw [List.filter_append, List.filter_cons_of_pos (by simp), hlow, hhigh]
  simp

end Memory

namespace Target

variable {l : Leeway} {t t' : Target}

/-- A process within a leeway is within one that lets more threads be moved. -/
theorem Within.mono_moved (h : t.Within l t') {moved : List UInt32}
    (hm : ∀ id ∈ l.moved, id ∈ moved) : t.Within { l with moved := moved } t' := by
  refine ⟨h.pid, h.refuses, ?_, h.suspensions, h.nextAllocation, h.memory⟩
  exact List.Forall₂.imp (fun _ _ hth ↦ ⟨hth.id, fun hid ↦ hth.same fun hid' ↦ hid (hm _ hid')⟩)
    h.threads

/-- A process within a leeway is within one that lets allocations be made. -/
theorem Within.allocated (h : t.Within l t') : t.Within { l with allocates := true } t' :=
  ⟨h.pid, h.refuses, h.threads, h.suspensions, fun hl ↦ Bool.noConfusion hl, h.memory⟩

/-- Asking for a thread changes nothing. -/
theorem run_thread (id : UInt32) (s : Target) :
    (thread id).run s
      = (orFail (.noThread id s.pid) (s.threads.find? fun th ↦ th.id == id), s) := by
  simp only [thread, run_bind, run_get, run_lift]

/-- The thread of an identifier is there, and is the one that was there if it was not moved. -/
theorem triple_thread (id : UInt32) :
    Triple (t.Within l) (thread id)
      (fun th s ↦ t.Within l s ∧ th.id = id ∧ (id ∉ l.moved → th ∈ t.threads)) (t.Within l) := by
  intro s hs
  rw [run_thread]
  cases hf : s.threads.find? (fun th ↦ th.id == id) with
  | none => exact hs
  | some th =>
    have hid : th.id = id := by simpa using List.find?_some hf
    refine ⟨hs, hid, fun hmoved ↦ ?_⟩
    obtain ⟨th', hmem, hag⟩ := Pointwise.exists_left hs.threads (List.mem_of_find?_eq_some hf)
    rwa [← hag.same (by rwa [hag.id, hid])]

/-- What changing a thread that is there comes to. -/
theorem run_setThread {id : UInt32} {s : Target} (hid : id ∈ s.threads.map Thread.id)
    (f : Thread → Thread) : (setThread id f).run s = (.ok ⟨⟩, s.withThread id f) := by
  have hsome : (s.threads.find? fun th ↦ th.id == id).isSome := by
    rw [List.find?_isSome]
    obtain ⟨th, hth, heq⟩ := List.mem_map.mp hid
    exact ⟨th, hth, by simpa using heq⟩
  obtain ⟨th, hth⟩ := Option.isSome_iff_exists.mp hsome
  simp only [setThread, run_bind, run_thread, hth, orFail, run_modify]

/-- Changing a thread that may have been moved strays no further. -/
theorem Within.withThread (h : t.Within l t') {id : UInt32} (hid : id ∈ l.moved)
    (f : Thread → Thread) : t.Within l (t'.withThread id f) := by
  refine ⟨h.pid, h.refuses, ?_, h.suspensions, h.nextAllocation, h.memory⟩
  unfold Target.withThread
  rw [List.forall₂_map_right_iff]
  refine List.Forall₂.imp (fun th th' hth ↦ ?_) h.threads
  split
  · next heq =>
    refine ⟨hth.id, fun hmoved ↦ absurd hid ?_⟩
    rwa [← heq, ← hth.id]
  · exact hth

theorem keeps_setThread {id : UInt32} (hid : id ∈ l.moved) (f : Thread → Thread) :
    Keeps (t.Within l) (setThread id f) :=
  (keeps_thread id).bind fun _ ↦ Keeps.modify fun _ hs ↦ hs.withThread hid f

/-- A call that changes a thread and passes the gate brings its thread where the change leads. -/
theorem triple_setThread {c : Call} {id : UInt32} {f : Thread → Thread} {Q R : Thread → Prop}
    (ht : t.gate.IsTolerant) (hc : c.name ∈ [CallName.suspend, .resume, .writeMemory,
      .flushInstructionCache, .setThreadContext, .setThreadPriority, .free])
    (hid : id ∈ t.threads.map Thread.id) (hmoved : id ∈ l.moved)
    (hQ : ∀ th, Q th → R { f th with id := th.id }) :
    Triple (fun s ↦ t.Within l s ∧ ∀ th ∈ s.threads, th.id = id → Q th)
      (pass c >>= fun _ ↦ setThread id f)
      (fun _ s ↦ t.Within l s ∧ ∀ th ∈ s.threads, th.id = id → R th) fun _ ↦ False := by
  intro s hs
  obtain ⟨hs, hall⟩ := hs
  have hpass := triple_pass ht hc s hs
  rw [run_pass] at hpass
  rw [run_bind, run_pass]
  rw [hs.refuses, ht c _ hc] at hpass ⊢
  have hid' : id ∈ s.threads.map Thread.id := hs.threadIds ▸ hid
  simp only [Bool.false_eq_true, if_false]
  rw [run_setThread (s := { s with gate := s.gate.counted c.name }) hid' f]
  refine ⟨hpass.withThread hmoved f, fun th hth heq ↦ ?_⟩
  obtain ⟨th', hth', rfl⟩ := List.mem_map.mp hth
  split at heq
  · next heq' =>
    rw [if_pos heq']
    exact hQ th' (hall th' hth' heq')
  · next hne => exact absurd heq hne

theorem keeps_setThreadIp {id : UInt32} (hid : id ∈ l.moved) (ip : UInt64) :
    Keeps (t.Within l) (setThreadIp id ip) :=
  (keeps_pass _ t).bind fun _ ↦ keeps_setThread hid _

theorem keeps_setThreadPriority {id : UInt32} (hid : id ∈ l.moved) (priority : Int) :
    Keeps (t.Within l) (setThreadPriority id priority) :=
  (keeps_pass _ t).bind fun _ ↦ keeps_setThread hid _

end Target

namespace Cave

variable {l : Leeway} {t : Target}

/-- The records of parked threads hold what the threads were. -/
def Records (t : Target) (parked : List ParkedThread) : Prop :=
  ∀ p ∈ parked, (⟨p.id, p.ip, p.priority⟩ : Thread) ∈ t.threads

/-- The leeway of a process in which threads are parked. -/
def leeway (l : Leeway) (parked : List ParkedThread) : Leeway :=
  { l with moved := parked.map ParkedThread.id }

/-- A thread that was not moved is observed as it was. -/
theorem triple_observe {id : UInt32} (hid : id ∉ l.moved) :
    Triple (t.Within l) (observe id)
      (fun p s ↦ t.Within l s ∧ p.id = id ∧ (⟨p.id, p.ip, p.priority⟩ : Thread) ∈ t.threads)
      (t.Within l) := by
  have hip : Triple (t.Within l) (Target.threadIp id) (fun ip s ↦ t.Within l s ∧
      ∃ th ∈ t.threads, th.id = id ∧ ip = th.ip) (t.Within l) :=
    Triple.bind (Target.keeps_pass _ t) fun _ ↦ Triple.bind (Target.triple_thread id) fun th ↦
      Triple.pure fun s hth ↦ ⟨hth.1, th, hth.2.2 hid, hth.2.1, rfl⟩
  have hpriority : Triple (t.Within l) (Target.threadPriority id) (fun p s ↦ t.Within l s ∧
      ∃ th ∈ t.threads, th.id = id ∧ p = th.priority) (t.Within l) :=
    Triple.bind (Target.keeps_pass _ t) fun _ ↦ Triple.bind (Target.triple_thread id) fun th ↦
      Triple.pure fun s hth ↦ ⟨hth.1, th, hth.2.2 hid, hth.2.1, rfl⟩
  refine Triple.bind hip fun ip ↦ Triple.of_pre fun s hs ↦ ?_
  obtain ⟨hs, th, hth, hthid, rfl⟩ := hs
  refine Triple.bind (hpriority.mono (fun _ h ↦ h ▸ hs) (fun _ _ h ↦ h) fun _ h ↦ h) fun p ↦
    Triple.pure fun s' hs' ↦ ?_
  obtain ⟨hs', th', hth', hthid', rfl⟩ := hs'
  have heq : th' = th := List.inj_on_of_nodup_map t.distinct hth' hth (hthid'.trans hthid.symm)
  subst heq
  subst hthid
  exact ⟨hs', rfl, hth⟩

/-- Moving a thread strays no further when it may be moved. -/
theorem keeps_move (page : UInt64) {id : UInt32} (hid : id ∈ l.moved) :
    Keeps (t.Within l) (move page id) :=
  (Target.keeps_setThreadIp hid page).bind fun _ ↦ Target.keeps_setThreadPriority hid _

theorem run_parkEach_cons (page : UInt64) (parked : List ParkedThread) (id : UInt32)
    (ids : List UInt32) (s : Target) :
    (parkEach page parked (id :: ids)).run s = match (observe id).run s with
      | (.error stop, s) => ((parked, .error stop), s)
      | (.ok thread, s) => match (move page id).run s with
        | (.error stop, s) => ((parked ++ [thread], .error stop), s)
        | (.ok (), s) => (parkEach page (parked ++ [thread]) ids).run s := by
  simp only [parkEach, bind, StateT.bind, StateT.run]
  rcases (observe id).run s with ⟨_ | thread, s⟩
  · rfl
  · simp only [bind, StateT.bind]
    rcases (move page id).run s with ⟨_ | _, s⟩ <;> rfl

/-- Parking threads moves none that is not recorded. -/
theorem parkEach_within (page : UInt64) (ids : List UInt32)
    (parked : List ParkedThread) {s : Target}
    (hnodup : (parked.map ParkedThread.id ++ ids).Nodup) (hs : t.Within (leeway l parked) s)
    (hrec : Records t parked) :
    t.Within (leeway l ((parkEach page parked ids).run s).1.1) ((parkEach page parked ids).run s).2
      ∧ Records t ((parkEach page parked ids).run s).1.1 := by
  induction ids generalizing parked s with
  | nil => exact ⟨hs, hrec⟩
  | cons id ids ih =>
    have hid : id ∉ parked.map ParkedThread.id := fun h ↦
      (List.nodup_append.mp hnodup).2.2 id h id (List.mem_cons_self ..) rfl
    have hobserve := triple_observe (l := leeway l parked) hid s hs
    rw [run_parkEach_cons]
    generalize (observe id).run s = observed at hobserve ⊢
    rcases observed with ⟨_ | thread, s⟩
    · exact ⟨hobserve, hrec⟩
    · obtain ⟨hs, hthread, hmem⟩ := hobserve
      subst hthread
      have hs : t.Within (leeway l (parked ++ [thread])) s :=
        hs.mono_moved fun id hid ↦ by
          rw [List.map_append]
          exact List.mem_append_left _ hid
      have hmoved : thread.id ∈ (leeway l (parked ++ [thread])).moved := by
        simp [leeway]
      have hmove := (keeps_move (t := t) page hmoved).run hs
      have hrec : Records t (parked ++ [thread]) := by
        intro p hp
        rcases List.mem_append.mp hp with hp | hp
        · exact hrec p hp
        · rw [List.mem_singleton.mp hp]
          exact hmem
      dsimp only
      generalize (move page thread.id).run s = moved at hmove ⊢
      rcases moved with ⟨_ | _, s⟩
      · exact ⟨hmove, hrec⟩
      · refine ih _ ?_ hmove hrec
        rw [List.map_append, List.append_assoc]
        exact hnodup

/-- Putting a thread back leaves it as it was. -/
theorem triple_release (ht : t.gate.IsTolerant) {p : ParkedThread} {moved : List UInt32}
    (hp : (⟨p.id, p.ip, p.priority⟩ : Thread) ∈ t.threads) :
    Triple (t.Within { l with moved := p.id :: moved }) (release p)
      (fun _ ↦ t.Within { l with moved := moved }) fun _ ↦ False := by
  have hid : p.id ∈ t.threads.map Thread.id := List.mem_map.mpr ⟨_, hp, rfl⟩
  have hip := Target.triple_setThread (l := { l with moved := p.id :: moved })
    (c := ⟨.setThreadContext, some p.id⟩) (f := fun th ↦ { th with ip := p.ip })
    (Q := fun _ ↦ True) (R := fun th ↦ th.ip = p.ip) ht (by simp) hid
    (List.mem_cons_self ..) fun _ _ ↦ rfl
  have hpriority := Target.triple_setThread (l := { l with moved := p.id :: moved })
    (c := ⟨.setThreadPriority, some p.id⟩) (f := fun th ↦ { th with priority := p.priority })
    (Q := fun th ↦ th.ip = p.ip) (R := fun th ↦ th.ip = p.ip ∧ th.priority = p.priority) ht
    (by simp) hid (List.mem_cons_self ..) fun _ h ↦ ⟨h, rfl⟩
  refine Triple.bind ((hip.mono (fun _ hs ↦ ⟨hs, fun _ _ _ ↦ trivial⟩) (fun _ _ hs ↦ hs)
    fun _ hs ↦ hs).inContext) fun _ ↦ hpriority.mono (fun _ hs ↦ hs) (fun _ s hs ↦ ?_) fun _ hs ↦ hs
  -- the thread has the recorded state again, so it is no longer one of the moved
  obtain ⟨hs, hput⟩ := hs
  refine ⟨hs.pid, hs.refuses, ?_, hs.suspensions, hs.nextAllocation, hs.memory⟩
  refine Pointwise.imp_of_mem hs.threads fun th hth th' hth' hag ↦ ⟨hag.id, fun hmoved ↦ ?_⟩
  by_cases heq : th.id = p.id
  · have hrecord : th = ⟨p.id, p.ip, p.priority⟩ :=
      List.inj_on_of_nodup_map t.distinct hth hp heq
    obtain ⟨hip, hpriority⟩ := hput th' hth' (hag.id ▸ heq)
    have hid' := hag.id
    cases th'
    simp_all
  · exact hag.same (by simp [heq, hmoved])

/-- Putting all parked threads back leaves them as they were. -/
theorem triple_releaseAll (ht : t.gate.IsTolerant) {parked : List ParkedThread} (hrec : Records t parked) :
    Triple (t.Within (leeway l parked)) (parked.forM release)
      (fun _ ↦ t.Within (leeway l [])) fun _ ↦ False := by
  induction parked with
  | nil => exact Triple.pure fun _ hs ↦ hs
  | cons p parked ih =>
    exact Triple.bind (triple_release ht (hrec p (List.mem_cons_self ..)))
      fun _ ↦ ih fun q hq ↦ hrec q (List.mem_cons_of_mem p hq)

/-- A process with the page of a cave, before anything is written there. -/
def opened (t : Target) (page : UInt64) : Target := t.map page (Bytes.fill spin.size 0)

/-- The leeway of a process that is in a cave. -/
def leewayInside (l : Leeway) (c : Cave) : Leeway :=
  ⟨fun base i ↦ l.places base i ∨ base = c.page, l.held, c.parked.map ParkedThread.id, true⟩

theorem isMapped_opened (t : Target) (page : UInt64) :
    (opened t page).memory.isMapped page = true :=
  List.any_eq_true.mpr ⟨⟨page, _⟩, List.mem_append_right _ (List.mem_cons_self ..), by simp⟩

/-- Leaving a cave always works, puts every thread back and frees the page. -/
theorem triple_leave (ht : t.gate.IsTolerant) {c : Cave} (hl : l.moved = [])
    (hpage : t.memory.isMapped c.page = false) (hrec : Records t c.parked) :
    Triple ((opened t c.page).Within (leewayInside l c)) c.leave
      (fun _ ↦ t.Within { l with allocates := true }) fun _ ↦ False := by
  have ht' : (opened t c.page).gate.IsTolerant := ht
  have hreleased : Triple ((opened t c.page).Within (leewayInside l c))
      (Target.suspended (c.parked.forM release))
      (fun _ ↦ (opened t c.page).Within { leewayInside l c with moved := [] }) fun _ ↦ False :=
    Target.triple_suspended ht'
      (triple_releaseAll (l := { leewayInside l c with held := l.held + 1 }) ht' hrec)
      (fun _ _ hs ↦ hs.resume ht') fun _ hs ↦ hs
  refine Triple.bind hreleased fun _ ↦ Triple.bind (Target.triple_pass ht' (by simp))
    fun _ ↦ Triple.bind_get fun s hs ↦ ?_
  have hmapped : s.memory.isMapped c.page = true :=
    hs.memory.isMapped c.page ▸ isMapped_opened t c.page
  rw [if_pos hmapped]
  refine Triple.set fun _ _ ↦ ⟨hs.pid, hs.refuses, hl ▸ hs.threads, hs.suspensions,
    fun h ↦ Bool.noConfusion h, ?_⟩
  have hfreed := hs.memory.unmap c.page
  rw [opened, Target.map, Memory.unmap_map hpage] at hfreed
  exact hfreed.mono fun r _ i hP ↦ hP.1.resolve_right hP.2

/-- An allocation, if it is made, maps zeros where nothing was allocated yet. -/
theorem triple_allocate (size : Nat) (hal : l.allocates = false) (hl : l.moved = []) :
    Triple (t.Within l) (Target.allocate size)
      (fun page s ↦ page = t.nextAllocation ∧
        (t.map page (Bytes.fill size 0)).Within (leewayInside l ⟨page, []⟩) s)
      (t.Within { l with allocates := true }) := by
  have hstop : ∀ s, t.Within l s → t.Within { l with allocates := true } s :=
    fun _ hs ↦ hs.allocated
  unfold Target.allocate
  generalize Target.granularity = granularity
  refine Triple.bind ((Target.keeps_pass _ t).mono (fun _ hs ↦ hs) (fun _ _ hs ↦ hs) hstop)
    fun _ ↦ Triple.bind_get fun s hs ↦ ?_
  have hstop' : ∀ s', s' = s → t.Within { l with allocates := true } s' := by
    rintro _ rfl
    exact hstop _ hs
  refine Triple.bind_lift (fun rounded _ ↦ ?_) hstop'
  refine Triple.bind_lift (fun next _ ↦ ?_) hstop'
  refine Triple.bind (R := fun _ ↦ (t.map s.nextAllocation (Bytes.fill size 0)).Within
    (leewayInside l ⟨s.nextAllocation, []⟩)) (Triple.set fun _ _ ↦ ?_)
    fun _ ↦ Triple.pure fun _ hs' ↦ ⟨hs.nextAllocation hal, hs'⟩
  refine ⟨hs.pid, hs.refuses, ?_, hs.suspensions, fun h ↦ Bool.noConfusion h,
    (hs.memory.map _ _).mono fun _ _ _ hP ↦ .inl hP⟩
  have hthreads := hs.threads
  rw [hl] at hthreads
  exact hthreads

/-- Writing the spinning code into a new page always works. -/
theorem triple_writeSpin (ht : t.gate.IsTolerant) (page : UInt64) :
    Triple ((opened t page).Within (leewayInside l ⟨page, []⟩)) (Target.writeMemory page spin)
      (fun _ ↦ (opened t page).Within (leewayInside l ⟨page, []⟩)) fun _ ↦ False := by
  have ht' : (opened t page).gate.IsTolerant := ht
  have hwindow : (opened t page).memory.window page spin.size
      = .ok (⟨page, Bytes.fill spin.size 0⟩, 0) :=
    Memory.window_map _ _ (by simp [Bytes.fill]) (by simp [Bytes.fill, spin])
  refine Triple.bind (Target.triple_pass ht' (by simp)) fun _ ↦ Triple.bind_get fun s hs ↦ ?_
  obtain ⟨r, hwindow', hr⟩ := hs.memory.window hwindow
  have hwrite := Memory.write_eq_ok_iff.mpr ⟨r, 0, hwindow', rfl⟩
  refine Triple.bind_ok hwrite (Triple.set fun _ _ ↦ ?_)
  refine ⟨hs.pid, hs.refuses, hs.threads, hs.suspensions, hs.nextAllocation, ?_⟩
  refine hs.memory.trans
    (.mono (Memory.agreesOff_write hwrite) fun q _ i hi ↦ ?_)
  obtain ⟨r', start, hw, hb, -, -⟩ := hi
  rw [hwindow'] at hw
  cases hw
  exact .inr (hb ▸ hr.base.symm)

theorem run_parkAll (page : UInt64) (commandThread : Option UInt32) (s : Target) :
    (parkAll page commandThread).run s = match Target.suspend.run s with
      | (.error stop, s) => (([], .error stop), s)
      | (.ok (), s) => match Target.threadIds.run s with
        | (.error stop, s) => (([], .error stop), (Target.resume.run s).2)
        | (.ok ids, s) =>
          let r := (parkEach page [] (ids.filter fun id ↦ some id != commandThread)).run s
          (r.1, (Target.resume.run r.2).2) := by
  simp only [parkAll, bind, StateT.bind, StateT.run]
  rcases Target.suspend.run s with ⟨_ | _, s⟩
  · rfl
  · simp only [bind, StateT.bind]
    rcases Target.threadIds.run s with ⟨_ | ids, s⟩ <;> rfl

/-- Parking all threads moves none that is not recorded. -/
theorem parkAll_within (ht : t.gate.IsTolerant) (page : UInt64) (commandThread : Option UInt32) {s : Target}
    (hl : l.moved = []) (hs : t.Within l s) :
    t.Within (leeway l ((parkAll page commandThread).run s).1.1)
      ((parkAll page commandThread).run s).2 ∧
      Records t ((parkAll page commandThread).run s).1.1 := by
  have hnone : leeway l [] = l := by
    rw [leeway, List.map_nil, ← hl]
  have hsuspend := Target.triple_suspend (l := l) ht s hs
  rw [run_parkAll]
  generalize Target.suspend.run s = suspended at hsuspend ⊢
  rcases suspended with ⟨_ | _, s⟩
  · exact hsuspend.elim
  · have hids := Target.triple_threadIds (t := t) s hsuspend
    dsimp only
    generalize Target.threadIds.run s = listed at hids ⊢
    rcases listed with ⟨_ | ids, s⟩
    · refine ⟨?_, fun _ h ↦ by cases h⟩
      rw [show leeway l _ = l from hnone]
      exact Target.Within.resume ht hids
    · obtain ⟨rfl, hs⟩ := hids
      dsimp only
      have heach := parkEach_within (l := { l with held := l.held + 1 }) (s := s) page
        ((t.threads.map Thread.id).filter fun id ↦ some id != commandThread) []
        (t.distinct.filter _) (by rw [leeway, List.map_nil, ← hl]; exact hs) fun _ h ↦ by cases h
      exact ⟨Target.Within.resume ht heach.1, heach.2⟩

/-- Entering a cave leaves every thread that is not recorded as parked where it was. A process that
could not enter is as it was before. -/
theorem triple_enter (ht : t.gate.IsTolerant) (hal : l.allocates = false) (hl : l.moved = [])
    (hpage : t.memory.isMapped t.nextAllocation = false) (commandThread : Option UInt32) :
    Triple (t.Within l) (enter commandThread)
      (fun c s ↦ c.page = t.nextAllocation ∧ Records t c.parked ∧
        (opened t c.page).Within (leewayInside l c) s)
      (t.Within { l with allocates := true }) := by
  refine Triple.bind (triple_allocate _ hal hl) fun page ↦ Triple.of_pre fun s hs ↦ ?_
  obtain ⟨rfl, hs⟩ := hs
  have ht' : (opened t t.nextAllocation).gate.IsTolerant := ht
  have hwrite := triple_writeSpin (l := l) ht t.nextAllocation
  have hflush := Target.triple_flush (l := leewayInside l ⟨t.nextAllocation, []⟩) ht'
  refine Triple.bind (Triple.mono hwrite (fun _ h ↦ h ▸ hs) (fun _ _ h ↦ h) fun _ h ↦ h.elim)
    fun _ ↦ Triple.bind (Triple.mono hflush (fun _ h ↦ h) (fun _ _ h ↦ h) fun _ h ↦ h.elim)
    fun _ s hs ↦ ?_
  obtain ⟨hin, hrec⟩ := parkAll_within ht' t.nextAllocation commandThread rfl hs
  simp only [ExceptT.run, ExceptT.mk, bind, StateT.bind, StateT.run] at hin hrec ⊢
  generalize parkAll t.nextAllocation commandThread s = parking at hin hrec ⊢
  rcases parking with ⟨⟨parked, _ | _⟩, s⟩
  · have := (triple_leave (c := ⟨t.nextAllocation, parked⟩) ht hl hpage hrec).run_of_ok hin
    exact this
  · exact ⟨rfl, hrec, hin⟩

end Cave
end LivePatch
