import LivePatch.Proofs.Attached.Informing
import LivePatch.Proofs.Attached.Leeway
import LivePatch.Proofs.Memory.Staying
import LivePatch.Proofs.Patch.Loading
import LivePatch.Proofs.Process.Leaving

/-!
# Calling an entry point

While the entry point of a patch is called, its own code is back and every thread but the one that
serves commands spins in a cave. Behind the call nothing of that is left: memory, threads and
suspensions are what they were before, and the result is that of the call.
-/

namespace LivePatch

namespace Target

variable {s : Target}

/-- A process behind a write of code. -/
def written (s : Target) (address : UInt64) (bytes : Bytes) (memory : Memory) : Target :=
  { s with
    gate := (s.gate.counted .writeMemory).counted .flushInstructionCache, memory := memory
    edits := ⟨address, bytes, s.suspensions, s.threads⟩ :: s.edits, flushes := s.flushes + 1 }

end Target

/-- What a write into an image comes to that nothing refuses. -/
theorem Mapping.run_write {image : Mapping} {s : Target} (hgate : s.gate.RefusesThreadsOnly)
    {rva : UInt32} {bytes : Bytes} {address : UInt64} {n : Memory}
    (hinside : rva.toNat + bytes.size ≤ image.size.toNat) (haddress : image.address rva = .ok address)
    (hw : s.memory.write address bytes = .ok n) :
    (image.write rva bytes).run s = (.ok ⟨⟩, s.written address bytes n) := by
  have hcheck : image.check rva bytes.size = .ok () := if_pos hinside
  simp only [Mapping.write, hcheck, haddress, run_bind, run_lift, run_inContext,
    Target.run_writeMemory hgate hw]
  rw [Target.run_flush (by exact hgate)]
  rfl

namespace Memory

variable {m n : Memory} {address page : UInt64} {code stub bytes : Bytes}

/-- What is read elsewhere stays when bytes are mapped at a clear address and written over. -/
theorem read_of_map_write (hclear : m.IsClear page) {zeros : Bytes}
    (hw : (m.map page zeros).write page bytes = .ok n) {len : Nat} (hlen : 0 < len)
    (hr : m.read address len = .ok code) : n.read address len = .ok code :=
  (((StaysIn.refl m).map hclear zeros).write hclear hw).read hlen hr

/-- What is read lies apart from a free range. -/
theorem IsFree.apart_of_read {base : UInt64} {size len : Nat}
    (hfree : m.IsFree (fun _ ↦ False) base size)
    (hr : m.read address len = .ok code) :
    base.toNat + size ≤ address.toNat ∨ address.toNat + len ≤ base.toNat := by
  obtain ⟨r, start, hw, -⟩ := read_eq_ok_iff.mp hr
  obtain ⟨hc, hstart, -, hle⟩ := window_eq_ok_iff.mp hw
  obtain ⟨hmem, hbase⟩ := mem_of_candidate? hc
  have hoffset := UInt64.toNat_sub_of_le _ _ hbase
  rw [UInt64.le_iff_toNat_le] at hbase
  have := (hfree r hmem).resolve_left id
  omega

/-- Writing other bytes and then those that were there changes nothing. -/
theorem write_back {m' : Memory} (hr : m.read address stub.size = .ok stub)
    (hsize : code.size = stub.size) (hw : m.write address code = .ok m') :
    m'.write address stub = .ok m := by
  have hagree := agreesOff_write hw
  obtain ⟨m'', hback, hsame⟩ := hagree.write (write_of_read hr)
  rw [hsize] at hsame
  have heq : m = m'' := AgreesOff.eq (hsame.mono fun r _ i hi ↦ hi.2 hi.1)
  rw [hback, ← heq]

/-- Where bytes are read, as many can be written. -/
theorem exists_write (hr : m.read address stub.size = .ok stub) (hsize : code.size = stub.size) :
    ∃ m', m.write address code = .ok m' := by
  obtain ⟨r, start, hw, -⟩ := read_eq_ok_iff.mp hr
  exact ⟨_, write_eq_ok_iff.mpr ⟨r, start, hsize ▸ hw, rfl⟩⟩

end Memory

/-- Whether an agent acknowledges a command that it has nothing to load or unload for. -/
def Agent.Acknowledges (a : Agent) (c : Command) : Prop :=
  a.reacts c (a.count c.name) = .serves ∨ a.reacts c (a.count c.name) = .answers .ack

instance (a : Agent) (c : Command) : Decidable (a.Acknowledges c) :=
  inferInstanceAs (Decidable (_ ∨ _))

/-- Telling an agent something that neither loads nor unloads fails unless it is acknowledged. -/
theorem AttachedProcess.tell_eq_ok_iff (files : FileTree) {c : Command} (hc : isQuiet c = true)
    (p : AttachedProcess) : ((tell files c).run p).1 = .ok () ↔ p.agent.Acknowledges c := by
  unfold Agent.Acknowledges
  simp only [tell, exchange, serve_of_isQuiet files hc, run_bind, run_get, run_set]
  cases p.agent.reacts c (p.agent.count c.name) with
  | serves => simp
  | breaks => simp
  | answers reply => cases reply <;> simp

namespace Cave

variable {t : Target}

/-- A thread of a process in a cave. -/
def placed (page : UInt64) (command : Option UInt32) (th : Thread) : Thread :=
  if some th.id = command then th else ⟨th.id, page, Target.lowestPriority⟩

theorem map_settle_toPark (page : UInt64) (command : Option UInt32) (t : Target) :
    t.threads.map (settle page (toPark command t)) = t.threads.map (placed page command) := by
  refine List.map_congr_left fun th hth ↦ ?_
  have hid : th.id ∈ t.threads.map Thread.id := List.mem_map.mpr ⟨th, hth, rfl⟩
  by_cases heq : some th.id = command
  · simp [settle, placed, toPark, heq]
  · simp [settle, placed, toPark, heq, hid]

/-- A process that refuses nothing enters a cave: its page holds the spinning code, every thread but
the one that serves commands is there, and the rest of the memory is as it was. -/
theorem run_enter_of_passes (hgate : ∀ c n, t.gate.refuses c n = false)
    (hroom : t.nextAllocation.toNat + Target.granularity.toNat < 0x10000000000000000)
    (command : Option UInt32) :
    ∃ c u, (enter command).run t = (.ok c, u) ∧ c.page = t.nextAllocation ∧
      u.threads = t.threads.map (placed c.page command) ∧
      (opened t c.page).memory.write c.page spin = .ok u.memory ∧
      u.gate.refuses = t.gate.refuses := by
  have hthreadsOnly : t.gate.RefusesThreadsOnly := fun c n _ ↦ hgate c n
  obtain ⟨s, hopen, hopened, hwrite⟩ := run_opening hthreadsOnly hroom
  have hs : ∀ c n, s.gate.refuses c n = false := fun c n ↦ hopened.refuses ▸ hgate c n
  have hok := parkAll_ok t.nextAllocation command hs
  rcases hpark : (parkAll t.nextAllocation command).run s with ⟨⟨parked, r⟩, u⟩
  rw [hpark] at hok
  cases hok
  obtain ⟨hwithin, -, seen, unseen, hsplit, -, hall⟩ :=
    parkAll_within_of (fun c n _ ↦ hs c n) hpark
  obtain ⟨rfl, hsettled⟩ := hall rfl
  have hthreads : s.threads = t.threads := hopened.threads_eq rfl
  refine ⟨⟨t.nextAllocation, parked⟩, u, ?_, rfl, ?_, ?_, hwithin.refuses.trans hopened.refuses⟩
  · rw [run_enter, hopen]
    dsimp only
    rw [hpark]
  · rw [List.append_nil] at hsplit
    rw [hsettled, ← hsplit, map_settle_toPark, hthreads]
  · rw [hwrite, hwithin.memory.eq]

end Cave

namespace SavedEntryPoint

/-- Brings a process to the call of an entry point: the threads are parked, and the code of the entry
point is back. -/
def approach (saved : SavedEntryPoint) (image : Mapping) : ProcessM Cave := do
  let p ← get
  let cave ← AttachedProcess.onTarget (Cave.enter p.commandThread)
  AttachedProcess.onTarget (image.write saved.rva saved.code)
  pure cave

/-- The entry point is called where the process was brought to, and disabled before the cave is left,
whatever the call comes to. -/
theorem run_callOnce (saved : SavedEntryPoint) (files : FileTree) (image : Mapping)
    {p u : AttachedProcess} {c : Cave} (h : (saved.approach image).run p = (.ok c, u)) :
    (saved.callOnce files image).run p =
      let tell := AttachedProcess.tell files (.callEntryPoint image.base saved.rva)
      let disabled := (disableFunction image saved.rva).run (tell.run u).2.target
      (match disabled.1 with
        | .ok _ => (tell.run u).1
        | .error stop => .error stop,
        { (tell.run u).2 with target := (c.leave.run disabled.2).2 }) := by
  obtain ⟨p', p₀, hget, hentered⟩ := run_bind_eq_ok_iff.mp h
  cases hget
  obtain ⟨c', v, henter, hwritten⟩ := run_bind_eq_ok_iff.mp hentered
  obtain ⟨_, u', hwrite, hpure⟩ := run_bind_eq_ok_iff.mp hwritten
  cases hpure
  rw [callOnce, run_bind, run_get]
  dsimp only
  rw [run_bind, henter]
  dsimp only
  rw [run_ensuring, callUncovered, run_bind, hwrite]
  dsimp only
  rw [run_bind, run_tried]
  dsimp only
  rw [run_bind, AttachedProcess.run_onTarget, AttachedProcess.run_onTarget]
  rcases (disableFunction image saved.rva).run _ with ⟨_ | _, t⟩
  · rfl
  · rcases ((AttachedProcess.tell files _).run u).1 with _ | _ <;> rfl

/-- The entry point of a mapped image is disabled: at its address, inside the image, is the code that
returns success, and as much of its own code was saved. -/
structure IsDisabled (saved : SavedEntryPoint) (image : Mapping) (address : UInt64) (m : Memory) :
    Prop where
  size : saved.code.size = X86.successStub.size
  inside : saved.rva.toNat + X86.successStub.size ≤ image.size.toNat
  located : image.address saved.rva = .ok address
  stub : m.read address X86.successStub.size = .ok X86.successStub

variable {p : AttachedProcess}

/-- A process that refuses nothing is brought to the call of an entry point. -/
theorem run_approach {saved : SavedEntryPoint} {image : Mapping} {address : UInt64}
    (hgate : ∀ c n, p.target.gate.refuses c n = false)
    (hroom : p.target.nextAllocation.toNat + Target.granularity.toNat < 0x10000000000000000)
    (hfree : p.target.memory.IsFree (fun _ ↦ False) p.target.nextAllocation Cave.spin.size)
    (hdisabled : saved.IsDisabled image address p.target.memory) :
    ∃ c s memory, (Cave.enter p.commandThread).run p.target = (.ok c, s) ∧
      (saved.approach image).run p
        = (.ok c, { p with target := s.written address saved.code memory }) ∧
      s.threads = p.target.threads.map (Cave.placed c.page p.commandThread) ∧
      memory.read address saved.code.size = .ok saved.code ∧
      memory.read c.page Cave.spin.size = .ok Cave.spin ∧
      memory.write address X86.successStub = .ok s.memory := by
  have hstubSize : 0 < X86.successStub.size := by decide
  have hclear : p.target.memory.IsClear p.target.nextAllocation :=
    hfree.isClear (Nat.le_refl _) (by simp [Cave.spin])
  obtain ⟨c, s, henter, hpage, hthreads, hspin, hrefuses⟩ :=
    Cave.run_enter_of_passes hgate hroom p.commandThread
  have hs : s.gate.RefusesThreadsOnly := fun c n _ ↦ hrefuses ▸ hgate c n
  rw [← hpage] at hclear hfree
  have hstub := Memory.read_of_map_write hclear hspin hstubSize hdisabled.stub
  obtain ⟨memory, hwrite⟩ := Memory.exists_write hstub hdisabled.size
  have hinside : saved.rva.toNat + saved.code.size ≤ image.size.toNat :=
    hdisabled.size ▸ hdisabled.inside
  refine ⟨c, s, memory, henter, ?_, hthreads, ?_, ?_,
    Memory.write_back hstub hdisabled.size hwrite⟩
  · simp only [approach, run_bind, run_get, AttachedProcess.run_onTarget, henter,
      Mapping.run_write hs hinside hdisabled.located hwrite, run_pure]
  · have hhas : memory.Has (address, saved.code) := Memory.has_of_write hwrite
    exact hhas
  · have hhas : s.memory.Has (c.page, Cave.spin) := Memory.has_of_write hspin
    have hapart : Memory.Apart (c.page, Cave.spin) (address, saved.code) := by
      have := hfree.apart_of_read hdisabled.stub
      rwa [← hdisabled.size] at this
    exact hhas.write hapart hwrite

/-- Calling an entry point leaves no trace in a process that refuses nothing, whatever the agent
answers. When the agent is told, the entry point holds its own code, and every thread but the one
that serves commands spins in the cave at the lowest priority. Behind the call the memory, the
threads and the suspensions are what they were, and the call failed exactly if the agent did not
acknowledge it. -/
theorem calling_entry_point_leaves_no_trace (files : FileTree) {saved : SavedEntryPoint}
    {image : Mapping} {address : UInt64}
    (hgate : ∀ c n, p.target.gate.refuses c n = false)
    (hroom : p.target.nextAllocation.toNat + Target.granularity.toNat < 0x10000000000000000)
    (hfree : p.target.memory.IsFree (fun _ ↦ False) p.target.nextAllocation Cave.spin.size)
    (hdisabled : saved.IsDisabled image address p.target.memory) :
    let call : Command := .callEntryPoint image.base saved.rva
    ∃ (c : Cave) (u : AttachedProcess) (t : Target),
      ((saved.approach image).run p = (.ok c, u) ∧
        u.target.memory.read address saved.code.size = .ok saved.code ∧
        u.target.memory.read c.page Cave.spin.size = .ok Cave.spin ∧
        u.target.threads = p.target.threads.map (Cave.placed c.page p.commandThread)) ∧
      (saved.callOnce files image).run p = (((AttachedProcess.tell files call).run u).1,
        { p with target := t, agent := p.agent.noted u.target call }) ∧
      t.memory = p.target.memory ∧ t.threads = p.target.threads ∧
      t.suspensions = p.target.suspensions ∧
      (((AttachedProcess.tell files call).run u).1 = .ok () ↔ p.agent.Acknowledges call) := by
  intro call
  obtain ⟨c, s, memory, henter, happroach, hthreads, hcode, hspin, hback⟩ :=
    run_approach hgate hroom hfree hdisabled
  have htolerant : p.target.gate.IsTolerant := fun c n _ ↦ hgate c n
  have hmapped := hfree.isMapped (by decide)
  obtain ⟨hpage, hrecords, hinside⟩ := (Cave.triple_enter (l := .at .none) htolerant rfl rfl hmapped
    p.commandThread).ok (.refl ..) henter
  have hs : s.gate.RefusesThreadsOnly := fun c n _ ↦ hinside.refuses ▸ hgate c n
  let u : AttachedProcess := { p with target := s.written address saved.code memory }
  have htold := AttachedProcess.run_tell_of_isQuiet files (c := call) rfl u
  have hdisable : (disableFunction image saved.rva).run u.target
      = (.ok ⟨⟩, u.target.written address X86.successStub s.memory) :=
    Mapping.run_write (by exact hs) hdisabled.inside hdisabled.located hback
  -- the memory is that of the cave again, so leaving the cave brings everything back
  have hlast : (Cave.opened p.target c.page).Within (Cave.leewayInside (.at .none) c)
      (u.target.written address X86.successStub s.memory) :=
    ⟨hinside.pid, hinside.refuses, hinside.threads, hinside.suspensions, hinside.nextAllocation,
      hinside.memory⟩
  have hleft := (Cave.triple_leave (l := .at .none) htolerant rfl (hpage ▸ hmapped)
    hrecords).run_of_ok hlast
  refine ⟨c, u, _, ⟨happroach, hcode, hspin, hthreads⟩, ?_, hleft.memory.eq.symm,
    hleft.threads_eq rfl, hleft.suspensions, AttachedProcess.tell_eq_ok_iff files rfl u⟩
  rw [run_callOnce saved files image happroach]
  dsimp only
  rw [htold, hdisable]

namespace BrokenPipe

/-- A patch of which the entry point is disabled, sixteen bytes behind its base. -/
def image : Mapping := ⟨0x180000000, 0x20⟩

/-- The code that its entry point had. -/
def saved : SavedEntryPoint := ⟨0x10, #[0x48, 0x83, 0xec, 0x28, 0xe8, 0x00]⟩

/-- A process that the patch is mapped into, with three threads, the second of which serves commands.
Its agent is gone. -/
def process : AttachedProcess :=
  ⟨((((Target.ofPid 7).map 0x180000000
      (Bytes.fill 0x10 0xcc ++ X86.successStub ++ Bytes.fill 0xa 0xcc)).spawn 0x1000).spawn
      0x2000).spawn 0x3000, { Agent.willing with reacts := fun _ _ ↦ .breaks }, some 2, 0x140000000, []⟩

/-- The call fails, and nothing is left of it. -/
theorem broken_call_leaves_no_trace :
    (∀ c n, process.target.gate.refuses c n = false) ∧
      process.target.nextAllocation.toNat + Target.granularity.toNat < 0x10000000000000000 ∧
      process.target.memory.IsFree (fun _ ↦ False) process.target.nextAllocation Cave.spin.size ∧
      saved.IsDisabled image 0x180000010 process.target.memory ∧
      ∃ (c : Cave) (u : AttachedProcess) (t : Target),
        (saved.approach image).run process = (.ok c, u) ∧
        u.target.memory.read 0x180000010 6 = .ok saved.code ∧
        u.target.threads = [⟨1, c.page, -15⟩, ⟨2, 0x2000, 0⟩, ⟨3, c.page, -15⟩] ∧
        ((saved.callOnce .empty image).run process).1 ≠ .ok () ∧
        ((saved.callOnce .empty image).run process).2.target = t ∧
        t.memory = process.target.memory ∧ t.threads = process.target.threads ∧
        t.suspensions = 0 := by
  have hgate : ∀ c n, process.target.gate.refuses c n = false := fun _ _ ↦ rfl
  have hroom : process.target.nextAllocation.toNat + Target.granularity.toNat
      < 0x10000000000000000 := by decide
  have hfree : process.target.memory.IsFree (fun _ ↦ False) process.target.nextAllocation
      Cave.spin.size := by decide +kernel
  have hdisabled : saved.IsDisabled image 0x180000010 process.target.memory :=
    ⟨by decide, by decide, by decide +kernel, by decide +kernel⟩
  obtain ⟨c, u, t, ⟨happroach, hcode, -, hthreads⟩, hcall, hmemory, hthreads', hheld, hiff⟩ :=
    calling_entry_point_leaves_no_trace .empty hgate hroom hfree hdisabled
  refine ⟨hgate, hroom, hfree, hdisabled, c, u, t, happroach, hcode, hthreads, ?_, ?_, hmemory,
    hthreads', hheld⟩
  · rw [hcall]
    exact fun hok ↦ absurd (hiff.mp hok) (by decide)
  · rw [hcall]

end BrokenPipe
end SavedEntryPoint
end LivePatch
