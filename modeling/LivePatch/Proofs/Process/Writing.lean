import LivePatch.Patch.Rollback
import LivePatch.Proofs.Memory.Writes
import LivePatch.Proofs.Process.Leeway

/-!
# Writes of work on a process

Work on a process is told by the writes it makes: which bytes, where and in which order. Work that
only looks at a process makes none. What stopped short may have made some of its writes.
-/

namespace LivePatch

/-- Writes into memory, in their order, if they can be made up. -/
abbrev Writing := Outcome (List (UInt64 × Bytes))

/-- Writes before further writes. -/
def Writing.followedBy (first second : Writing) : Writing := do return (← first) ++ (← second)

/-- A process as far as writes into it are concerned: who it is, and its memory. -/
def Target.sight (t : Target) : UInt32 × Memory := (t.pid, t.memory)

variable {σ τ α β : Type}

/-- Work that changes nothing that is seen of the state. -/
def Quiet (sight : σ → UInt32 × Memory) (act : ExceptT Stop (StateM σ) α) : Prop :=
  ∀ seen, Keeps (sight · = seen) act

/-- Work in one process that makes certain writes and no others, unless it stops short. -/
def Writes (sight : σ → UInt32 × Memory) (pid : UInt32) (act : ExceptT Stop (StateM σ) α)
    (writing : Writing) : Prop :=
  ∀ m, Triple (sight · = (pid, m)) act
    (fun _ s ↦ ∃ log m', writing = .ok log ∧ Memory.writeAll log m = .ok m' ∧ sight s = (pid, m'))
    fun _ ↦ True

namespace Quiet

variable {sight : σ → UInt32 × Memory} {act : ExceptT Stop (StateM σ) α}

theorem bind {f : α → ExceptT Stop (StateM σ) β} (h : Quiet sight act)
    (hf : ∀ a, Quiet sight (f a)) : Quiet sight (act >>= f) :=
  fun seen ↦ (h seen).bind fun a ↦ hf a seen

theorem pure (a : α) : Quiet sight (pure a : ExceptT Stop (StateM σ) α) := fun _ ↦ Keeps.pure a

theorem get : Quiet sight (get : ExceptT Stop (StateM σ) σ) := fun _ ↦ Keeps.get

theorem lift (r : Outcome α) : Quiet sight (liftM r : ExceptT Stop (StateM σ) α) :=
  fun _ ↦ Keeps.lift r

theorem modify {f : σ → σ} (h : ∀ s, sight (f s) = sight s) :
    Quiet sight (modify f : ExceptT Stop (StateM σ) PUnit) :=
  fun _ ↦ Keeps.modify fun s hs ↦ (h s).trans hs

theorem inContext {c : Context} (h : Quiet sight act) : Quiet sight (inContext c act) :=
  fun seen ↦ (h seen).inContext

theorem forM {f : τ → ExceptT Stop (StateM σ) PUnit} {items : List τ}
    (h : ∀ i ∈ items, Quiet sight (f i)) : Quiet sight (items.forM f) :=
  fun seen ↦ Keeps.forM fun i hi ↦ h i hi seen

theorem mapM {f : τ → ExceptT Stop (StateM σ) α} {items : List τ}
    (h : ∀ i ∈ items, Quiet sight (f i)) : Quiet sight (items.mapM f) :=
  fun seen ↦ Keeps.mapM fun i hi ↦ h i hi seen

/-- Work that changes nothing makes no writes. -/
theorem writes (h : Quiet sight act) (pid : UInt32) : Writes sight pid act (.ok []) :=
  fun m ↦ (h (pid, m)).mono (fun _ hs ↦ hs) (fun _ _ hs ↦ ⟨[], m, rfl, rfl, hs⟩) fun _ _ ↦ trivial

/-- Work that changes nothing that is seen keeps whatever is said of it. -/
theorem keeps (h : Quiet sight act) (P : UInt32 × Memory → Prop) :
    Keeps (fun s ↦ P (sight s)) act := by
  apply Keeps.of_run
  intro s hs
  rwa [(h (sight s)).run rfl]

end Quiet

namespace Writes

variable {sight : σ → UInt32 × Memory} {pid : UInt32} {act : ExceptT Stop (StateM σ) α}

/-- Work after work makes the writes of both. -/
theorem bind {first second : Writing} {f : α → ExceptT Stop (StateM σ) β}
    (h : Writes sight pid act first) (hf : ∀ a, Writes sight pid (f a) second) :
    Writes sight pid (act >>= f) (first.followedBy second) := by
  intro m
  refine Triple.bind (h m) fun a s ⟨log, m', hlog, hm', hs⟩ ↦ ?_
  refine (hf a m').mono (fun _ hs ↦ hs) ?_ (fun _ hs ↦ hs) s hs
  rintro b t ⟨log', n, hlog', hn, ht⟩
  refine ⟨log ++ log', n, ?_, Memory.writeAll_append_eq_ok_iff.mpr ⟨m', hm', hn⟩, ht⟩
  rw [hlog, hlog']
  rfl

/-- Work behind work that changes nothing. -/
theorem after {writing : Writing} {f : α → ExceptT Stop (StateM σ) β} (h : Quiet sight act)
    (hf : ∀ a, Writes sight pid (f a) writing) : Writes sight pid (act >>= f) writing :=
  fun m ↦ Triple.bind ((h (pid, m)).mono (fun _ hs ↦ hs) (fun _ _ hs ↦ hs) fun _ _ ↦ trivial)
    fun a ↦ hf a m

/-- Work in front of work that changes nothing. -/
theorem before {writing : Writing} {f : α → ExceptT Stop (StateM σ) β}
    (h : Writes sight pid act writing) (hf : ∀ a, Quiet sight (f a)) :
    Writes sight pid (act >>= f) writing := by
  intro m
  refine Triple.bind (h m) fun a s ⟨log, m', hlog, hm', hs⟩ ↦ ?_
  exact (hf a (pid, m')).mono (fun _ hs ↦ hs) (fun _ _ ht ↦ ⟨log, m', hlog, hm', ht⟩)
    (fun _ _ ↦ trivial) s hs

/-- Work that starts with a result that needs no state. -/
theorem bind_lift {r : Outcome α} {writing : Writing} {f : α → ExceptT Stop (StateM σ) β}
    (hf : ∀ a, r = .ok a → Writes sight pid (f a) writing) :
    Writes sight pid (liftM r >>= f) writing :=
  fun m ↦ Triple.bind_lift (fun a ha ↦ hf a ha m) fun _ _ ↦ trivial

/-- Work that starts with a look at the state. -/
theorem bind_get {writing : Writing} {f : σ → ExceptT Stop (StateM σ) β}
    (hf : ∀ s, (sight s).1 = pid → Writes sight pid (f s) writing) :
    Writes sight pid (MonadState.get >>= f) writing :=
  fun m ↦ Triple.bind_get fun s hs ↦ (hf s (congrArg Prod.fst hs) m).mono (fun _ h ↦ h ▸ hs)
    (fun _ _ h ↦ h) fun _ h ↦ h

/-- Work on every entry of a list makes the writes of all. -/
theorem forM {f : τ → ExceptT Stop (StateM σ) PUnit} {writing : τ → Writing} {items : List τ}
    (h : ∀ i ∈ items, Writes sight pid (f i) (writing i)) :
    Writes sight pid (items.forM f) (do return (← items.mapM writing).flatten) := by
  induction items with
  | nil => exact (Quiet.pure PUnit.unit).writes pid
  | cons i items ih =>
    have hrest := (h i (List.mem_cons_self ..)).bind fun _ ↦
      ih fun j hj ↦ h j (List.mem_cons_of_mem i hj)
    have heq : Writing.followedBy (writing i) (do return (← items.mapM writing).flatten)
        = do return (← (i :: items).mapM writing).flatten := by
      unfold Writing.followedBy
      rw [List.mapM_cons]
      cases writing i with
      | error stop => rfl
      | ok log =>
        cases items.mapM writing with
        | error stop => rfl
        | ok logs => rfl
    exact heq ▸ hrest

end Writes

namespace Target

theorem quiet_pass (c : Call) : Quiet sight (pass c) := by
  refine fun seen ↦ Keeps.of_run fun t ht ↦ ?_
  rw [run_pass]
  exact ht

theorem quiet_suspend : Quiet sight suspend :=
  (quiet_pass _).bind fun _ ↦ Quiet.modify fun _ ↦ rfl

theorem quiet_resume : Quiet sight resume := by
  refine (quiet_pass _).bind fun _ ↦ fun seen ↦ Triple.bind_get fun t ht ↦ ?_
  split
  · exact Triple.fail fun _ h ↦ h ▸ ht
  · exact Triple.set fun _ _ ↦ ht

theorem quiet_readMemory (address : UInt64) (len : Nat) : Quiet sight (readMemory address len) :=
  (quiet_pass _).bind fun _ ↦ Quiet.get.bind fun _ ↦ Quiet.lift _

theorem quiet_flush : Quiet sight flush :=
  (quiet_pass _).bind fun _ ↦ Quiet.modify fun _ ↦ rfl

theorem quiet_threadIps : Quiet sight threadIps := by
  have hthread : ∀ id, Quiet sight (thread id) := fun id ↦ Quiet.get.bind fun _ ↦ Quiet.lift _
  have hip : ∀ id, Quiet sight (threadIp id) := fun id ↦
    (quiet_pass _).bind fun _ ↦ (hthread id).bind fun _ ↦ Quiet.pure _
  have hids : Quiet sight threadIds :=
    (quiet_pass _).bind fun _ ↦ Quiet.get.bind fun _ ↦ Quiet.pure _
  exact hids.bind fun _ ↦ Quiet.mapM fun id _ ↦ hip id

/-- Replacing the bytes at an address is one write. -/
theorem writes_writeMemory (pid : UInt32) (address : UInt64) (bytes : Bytes) :
    Writes sight pid (writeMemory address bytes) (.ok [(address, bytes)]) := by
  refine Writes.after (quiet_pass _) fun _ m ↦ Triple.bind_get fun t ht ↦ ?_
  obtain ⟨hpid, hm⟩ := Prod.mk.inj ht
  refine Triple.bind_lift (fun m' hm' ↦ Triple.set fun _ _ ↦ ?_) fun _ _ ↦ trivial
  refine ⟨_, m', rfl, ?_, congrArg (·, m') hpid⟩
  exact Memory.writeAll_cons_eq_ok_iff.mpr ⟨m', hm ▸ hm', rfl⟩

end Target

namespace Mapping

variable (image : Mapping)

theorem quiet_read (rva : UInt32) (len : Nat) : Quiet Target.sight (image.read rva len) :=
  (Quiet.lift _).bind fun _ ↦ (Quiet.lift _).bind fun _ ↦ (Target.quiet_readMemory _ _).inContext

/-- Replacing bytes of an image is one write. -/
theorem writes_write {pid : UInt32} {rva : UInt32} {bytes : Bytes} {address : UInt64}
    (ha : image.address rva = .ok address) :
    Writes Target.sight pid (image.write rva bytes) (.ok [(address, bytes)]) := by
  refine Writes.bind_lift fun _ _ ↦ Writes.bind_lift fun address' ha' ↦ ?_
  rw [ha] at ha'
  cases ha'
  refine Writes.before (fun m ↦ Triple.inContext ?_) fun _ ↦ Target.quiet_flush
  exact Target.writes_writeMemory pid address bytes m

/-- Replacing bytes of an image turns what holds of the process into what holds behind the write;
when it stops short, one of both holds. -/
theorem triple_write {P Q : UInt32 × Memory → Prop} {rva : UInt32} {bytes : Bytes}
    (h : ∀ address pid m m', image.address rva = .ok address → P (pid, m) →
      m.write address bytes = .ok m' → Q (pid, m')) :
    Triple (fun t ↦ P t.sight) (image.write rva bytes) (fun _ t ↦ Q t.sight)
      fun t ↦ P t.sight ∨ Q t.sight := by
  have hP : ∀ t : Target, P t.sight → P t.sight ∨ Q t.sight := fun _ ↦ Or.inl
  refine Triple.bind_lift (fun _ _ ↦ Triple.bind_lift (fun address ha ↦ ?_) hP) hP
  refine Triple.bind (R := fun _ t ↦ Q t.sight) (Triple.inContext ?_) fun _ ↦ ?_
  · refine Triple.bind (((Target.quiet_pass _).keeps P).mono (fun _ h ↦ h) (fun _ _ h ↦ h) hP)
      fun _ ↦ Triple.bind_get fun t ht ↦ Triple.bind_lift (fun m' hm' ↦ ?_) fun _ hs ↦ hP _ (hs ▸ ht)
    exact Triple.set fun _ _ ↦ h address t.pid t.memory m' ha ht hm'
  · exact (Target.quiet_flush.keeps Q).mono (fun _ h ↦ h) (fun _ _ h ↦ h) fun _ ↦ Or.inr

/-- Replacing bytes of an image keeps what holds behind the write. -/
theorem keeps_write_sight {P : UInt32 × Memory → Prop} {rva : UInt32} {bytes : Bytes}
    (h : ∀ address pid m m', image.address rva = .ok address → P (pid, m) →
      m.write address bytes = .ok m' → P (pid, m')) :
    Keeps (fun t : Target ↦ P t.sight) (image.write rva bytes) :=
  (image.triple_write h).mono (fun _ h ↦ h) (fun _ _ h ↦ h) fun _ h ↦ h.elim id id

end Mapping

end LivePatch
