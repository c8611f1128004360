import LivePatch.Proofs.Memory.Writes
import LivePatch.Proofs.Patch.Undoing
import LivePatch.Proofs.Relocation.Field

/-!
# Redirecting references again

What a record writes into its field depends on the record and on where images are mapped, and
whether the field can be written depends on what is mapped where. Neither depends on what the memory
holds. So redirecting a list of references comes down to a list of writes and a list of failures
that are the same every time, and writes that are made a second time change nothing, however they
overlap: at every place stands the byte of the last of them already.
-/

namespace LivePatch

/-- Whether a call is refused does not depend on the calls before it. -/
def Gate.IsSteady (g : Gate) : Prop := ∀ c n n', g.refuses c n = g.refuses c n'

namespace Memory

variable {m m' n : Memory} {address : UInt64}

/-- Writes that were made change nothing when they are made again. -/
theorem writeAll_again {log : List (UInt64 × Bytes)} (h : writeAll log m = .ok n) :
    writeAll log n = .ok n := by
  obtain ⟨n', hagain, hagrees⟩ := (agreesOff_writeAll h).writeAll h
  rwa [← (hagrees.mono fun _ _ _ hi ↦ hi.2 hi.1).eq] at hagain

/-- An access is refused in memories that agree alike. -/
theorem AgreesOff.window_error {P : Places} (h : m.AgreesOff P m') {len : Nat} {stop : Stop}
    (hw : m.window address len = .error stop) : m'.window address len = .error stop := by
  unfold Memory.window at hw ⊢
  cases hc : m.candidate? address with
  | none =>
    cases hc' : m'.candidate? address with
    | none => rwa [hc] at hw
    | some r' =>
      obtain ⟨r, hr, -⟩ := h.symm.candidate? hc'
      rw [hc] at hr
      cases hr
  | some r =>
    obtain ⟨r', hc', hr⟩ := h.candidate? hc
    rw [hc] at hw
    rw [hc']
    dsimp only at hw ⊢
    rw [← hr.base, ← hr.size]
    -- only the answer of an access that is let through depends on the bytes of the region
    cases hstop : orFault (Word.addSize? (address - r.base).toNat len) with
    | error e => rwa [hstop] at hw
    | ok stop' =>
      rw [hstop] at hw
      simp only [bind, Except.bind] at hw ⊢
      split at hw
      · cases hw
      · next hnot => rwa [if_neg hnot]

/-- A read that is refused is refused for its window. -/
theorem read_eq_error_iff {len : Nat} {stop : Stop} :
    m.read address len = .error stop ↔ m.window address len = .error stop := by
  unfold read
  cases m.window address len <;> simp [bind, Except.bind, pure, Except.pure]

/-- A write that is refused is refused for its window. -/
theorem write_eq_error_iff {bytes : Bytes} {stop : Stop} :
    m.write address bytes = .error stop ↔ m.window address bytes.size = .error stop := by
  unfold write
  cases m.window address bytes.size <;> simp [bind, Except.bind, pure, Except.pure]

end Memory

namespace Target

/-- A process of the same identifier, with the same gate and the same regions of memory. What the
regions hold may differ. -/
structure IsLike (t t' : Target) : Prop where
  pid : t'.pid = t.pid
  refuses : t'.gate.refuses = t.gate.refuses
  memory : t.memory.AgreesOff .all t'.memory

/-- Work that makes certain writes and comes to a certain result in every process that is like this
one, whatever the memory of that process holds. -/
def Repeats {α : Type} (t : Target) (act : TargetM α) : Prop :=
  ∃ log result, ∀ t', t.IsLike t' → ∃ t'', act.run t' = (result, t'') ∧ t.IsLike t'' ∧
    Memory.writeAll log t'.memory = .ok t''.memory

variable {α β τ : Type} {t t' : Target}

theorem IsLike.refl (t : Target) : t.IsLike t := ⟨rfl, rfl, .refl ..⟩

theorem Repeats.pid_run {act : TargetM α} (h : t.Repeats act) : (act.run t).2.pid = t.pid := by
  obtain ⟨log, result, h⟩ := h
  obtain ⟨t', hrun, hlike, -⟩ := h t (.refl t)
  rw [hrun]
  exact hlike.pid

/-- Work that is done a second time, behind itself, comes to the same and changes no memory. -/
theorem Repeats.run_again {act : TargetM α} (h : t.Repeats act) :
    (act.run (act.run t).2).1 = (act.run t).1 ∧
      (act.run (act.run t).2).2.memory = (act.run t).2.memory := by
  obtain ⟨log, result, h⟩ := h
  obtain ⟨once, honce, hlike, hwrites⟩ := h t (.refl t)
  obtain ⟨twice, htwice, -, hagain⟩ := h once hlike
  rw [honce, htwice]
  exact ⟨rfl, Except.ok.inj (hagain.symm.trans (Memory.writeAll_again hwrites))⟩

namespace Repeats

theorem pure (a : α) : t.Repeats (pure a) :=
  ⟨[], .ok a, fun t' ht' ↦ ⟨t', rfl, ht', rfl⟩⟩

theorem lift (r : Outcome α) : t.Repeats (liftM r) :=
  ⟨[], r, fun t' ht' ↦ ⟨t', run_lift r t', ht', rfl⟩⟩

/-- Work after work that makes its writes behind it. -/
theorem bind {act : TargetM α} {f : α → TargetM β} (h : t.Repeats act)
    (hf : ∀ a, t.Repeats (f a)) : t.Repeats (act >>= f) := by
  obtain ⟨log, result | a, h⟩ := h
  · refine ⟨log, .error result, fun t' ht' ↦ ?_⟩
    obtain ⟨t'', hrun, hlike, hwrites⟩ := h t' ht'
    exact ⟨t'', by rw [run_bind, hrun], hlike, hwrites⟩
  · obtain ⟨log', result', h'⟩ := hf a
    refine ⟨log ++ log', result', fun t' ht' ↦ ?_⟩
    obtain ⟨u, hrun, hlike, hwrites⟩ := h t' ht'
    obtain ⟨v, hrun', hlike', hwrites'⟩ := h' u hlike
    refine ⟨v, ?_, hlike', Memory.writeAll_append_eq_ok_iff.mpr ⟨_, hwrites, hwrites'⟩⟩
    rw [run_bind, hrun]
    exact hrun'

/-- Work that differs from other work in its result alone. -/
theorem of_run {act : TargetM α} {act' : TargetM β} (h : t.Repeats act)
    (g : Outcome α → Outcome β) (hrun : ∀ t', act'.run t' = (g (act.run t').1, (act.run t').2)) :
    t.Repeats act' := by
  obtain ⟨log, result, h⟩ := h
  refine ⟨log, g result, fun t' ht' ↦ ?_⟩
  obtain ⟨t'', hact, hlike, hwrites⟩ := h t' ht'
  exact ⟨t'', by rw [hrun, hact], hlike, hwrites⟩

theorem inContext {act : TargetM α} (c : Context) (h : t.Repeats act) :
    t.Repeats (inContext c act) :=
  h.of_run (Except.mapError (Stop.within c)) fun t' ↦ by
    rw [run_inContext]
    rcases act.run t' with ⟨_ | _, t''⟩ <;> rfl

theorem mapM {f : τ → TargetM α} {items : List τ} (h : ∀ i ∈ items, t.Repeats (f i)) :
    t.Repeats (items.mapM f) := by
  induction items with
  | nil => exact pure []
  | cons i items ih =>
    rw [List.mapM_cons]
    exact (h i (List.mem_cons_self ..)).bind fun a ↦
      (ih fun j hj ↦ h j (List.mem_cons_of_mem i hj)).bind fun as ↦ pure (a :: as)

/-- A change that no process like this one can be told from. -/
theorem modify {f : Target → Target} (h : ∀ t', t.IsLike t' → t.IsLike (f t') ∧
    (f t').memory = t'.memory) : t.Repeats (modify f) :=
  ⟨[], .ok ⟨⟩, fun t' ht' ↦ ⟨f t', rfl, (h t' ht').1, by rw [(h t' ht').2]; rfl⟩⟩

/-- A release whose result goes unnoticed needs only to leave the memory alone. -/
theorem ensuring {act : TargetM α} {release : TargetM Unit} (h : t.Repeats act)
    (hr : ∀ t', t.IsLike t' → t.IsLike (release.run t').2 ∧
      (release.run t').2.memory = t'.memory) : t.Repeats (ensuring act release) := by
  obtain ⟨log, result, h⟩ := h
  refine ⟨log, result, fun t' ht' ↦ ?_⟩
  obtain ⟨t'', hrun, hlike, hwrites⟩ := h t' ht'
  refine ⟨(release.run t'').2, by rw [run_ensuring, hrun], (hr t'' hlike).1, ?_⟩
  rw [hwrites, (hr t'' hlike).2]

end Repeats

/-- A process is like the same process with another call counted. -/
theorem IsLike.counted (h : t.IsLike t') (name : CallName) :
    t.IsLike { t' with gate := t'.gate.counted name } := ⟨h.pid, h.refuses, h.memory⟩

/-- The number of calls before it does not matter to a call at a steady gate. -/
theorem IsLike.refuses_eq (hsteady : t.gate.IsSteady) (h : t.IsLike t') (c : Call) (n : Nat) :
    t'.gate.refuses c n = t.gate.refuses c 0 := by
  rw [h.refuses]
  exact hsteady c n 0

theorem repeats_pass (hsteady : t.gate.IsSteady) (c : Call) : t.Repeats (pass c) := by
  refine ⟨[], if t.gate.refuses c 0 then .error (.error (Cause.refused c.name).toError) else .ok (),
    fun t' ht' ↦ ⟨_, ?_, ht'.counted c.name, rfl⟩⟩
  rw [run_pass, ht'.refuses_eq hsteady]

theorem repeats_flush (hsteady : t.gate.IsSteady) : t.Repeats flush :=
  (repeats_pass hsteady _).bind fun _ ↦ .modify fun _ ht' ↦ ⟨⟨ht'.pid, ht'.refuses, ht'.memory⟩, rfl⟩

theorem repeats_suspend (hsteady : t.gate.IsSteady) : t.Repeats suspend :=
  (repeats_pass hsteady _).bind fun _ ↦ .modify fun _ ht' ↦ ⟨⟨ht'.pid, ht'.refuses, ht'.memory⟩, rfl⟩

/-- Resuming a process leaves its memory alone, whatever it comes to. -/
theorem IsLike.resume (h : t.IsLike t') :
    t.IsLike (resume.run t').2 ∧ (resume.run t').2.memory = t'.memory := by
  have hkeeps : Keeps (fun s : Target ↦ t.IsLike s ∧ s.memory = t'.memory) Target.resume := by
    refine Keeps.bind (Keeps.of_run fun s hs ↦ ?_) fun _ ↦ Triple.bind_get fun s hs ↦ ?_
    · rw [run_pass]
      exact ⟨hs.1.counted _, hs.2⟩
    · split
      · exact Triple.fail fun _ h ↦ h ▸ hs
      · exact Triple.set fun _ _ ↦ ⟨⟨hs.1.pid, hs.1.refuses, hs.1.memory⟩, hs.2⟩
  exact hkeeps.run ⟨h, rfl⟩

/-- Work that repeats does so while the process is suspended. -/
theorem repeats_suspended (hsteady : t.gate.IsSteady) {act : TargetM α} (h : t.Repeats act) :
    t.Repeats (suspended act) :=
  (repeats_suspend hsteady).bind fun _ ↦ h.ensuring fun _ ht' ↦ ht'.resume

/-- The write of given bytes repeats. -/
theorem repeats_writeMemory (hsteady : t.gate.IsSteady) (address : UInt64) (bytes : Bytes) :
    t.Repeats (writeMemory address bytes) := by
  refine (repeats_pass hsteady _).bind fun _ ↦ ?_
  cases hw : t.memory.window address bytes.size with
  | error stop =>
    refine ⟨[], .error stop, fun t' ht' ↦ ⟨t', ?_, ht', rfl⟩⟩
    rw [run_bind, run_get]
    dsimp only
    rw [run_bind, run_lift, Memory.write_eq_error_iff.mpr (ht'.memory.window_error hw)]
  | ok w =>
    refine ⟨[(address, bytes)], .ok ⟨⟩, fun t' ht' ↦ ?_⟩
    obtain ⟨r, hw', -⟩ := ht'.memory.window hw
    have hwrite := Memory.write_eq_ok_iff.mpr ⟨r, w.2, hw', rfl⟩
    have hlike := ht'.memory.trans ((Memory.agreesOff_write hwrite).mono fun _ _ _ _ ↦ trivial)
    refine ⟨{ t' with
      memory := t'.memory.modifyAt r.base fun old ↦ old.overwrite w.2 bytes
      edits := ⟨address, bytes, t'.suspensions, t'.threads⟩ :: t'.edits },
      ?_, ⟨ht'.pid, ht'.refuses, hlike⟩,
      Memory.writeAll_cons_eq_ok_iff.mpr ⟨_, hwrite, rfl⟩⟩
    rw [run_bind, run_get]
    dsimp only
    rw [run_bind, run_lift, hwrite]
    rfl

/-- Work that leaves the memory alone and, in every process that is like this one, stops short for
the same reason or answers something that is so in the memory of that process. -/
def Answers {α : Type} (t : Target) (act : TargetM α) (Q : α → Memory → Prop) : Prop :=
  ∃ stop : Option Stop, ∀ t', t.IsLike t' → ∃ t'', t.IsLike t'' ∧ t''.memory = t'.memory ∧
    match stop with
    | some stop => act.run t' = (.error stop, t'')
    | none => ∃ a, act.run t' = (.ok a, t'') ∧ Q a t'.memory

namespace Answers

variable {Q : α → Memory → Prop}

/-- Reading memory answers what stands there, or is refused everywhere alike. -/
theorem readMemory (hsteady : t.gate.IsSteady) (address : UInt64) (len : Nat) :
    t.Answers (readMemory address len) fun bytes m ↦ m.read address len = .ok bytes := by
  by_cases hrefused : t.gate.refuses ⟨.readMemory, none⟩ 0 = true
  · refine ⟨some (.error (Cause.refused .readMemory).toError), fun t' ht' ↦
      ⟨_, ht'.counted .readMemory, rfl, ?_⟩⟩
    rw [run_readMemory, ht'.refuses_eq hsteady, if_pos hrefused]
  · have hrun : ∀ t', t.IsLike t' → (Target.readMemory address len).run t'
        = (t'.memory.read address len, { t' with gate := t'.gate.counted .readMemory }) := by
      intro t' ht'
      rw [run_readMemory, ht'.refuses_eq hsteady, if_neg hrefused]
    cases hw : t.memory.window address len with
    | error stop =>
      refine ⟨some stop, fun t' ht' ↦ ⟨_, ht'.counted .readMemory, rfl, ?_⟩⟩
      have hread := Memory.read_eq_error_iff.mpr (ht'.memory.window_error hw)
      exact (hrun t' ht').trans (Prod.ext hread rfl)
    | ok w =>
      refine ⟨none, fun t' ht' ↦ ⟨_, ht'.counted .readMemory, rfl, ?_⟩⟩
      obtain ⟨r, hw', -⟩ := ht'.memory.window hw
      have hread := Memory.read_eq_ok_iff.mpr ⟨r, w.2, hw', rfl⟩
      exact ⟨_, (hrun t' ht').trans (Prod.ext hread rfl), hread⟩

theorem inContext {act : TargetM α} (c : Context) (h : t.Answers act Q) :
    t.Answers (inContext c act) Q := by
  obtain ⟨stop, h⟩ := h
  refine ⟨stop.map (Stop.within c), fun t' ht' ↦ ?_⟩
  obtain ⟨t'', hlike, hmemory, hrun⟩ := h t' ht'
  refine ⟨t'', hlike, hmemory, ?_⟩
  cases stop with
  | some stop => exact (run_inContext ..).trans (by rw [hrun])
  | none =>
    obtain ⟨a, hrun, hQ⟩ := hrun
    exact ⟨a, (run_inContext ..).trans (by rw [hrun]), hQ⟩

theorem mono {act : TargetM α} {R : α → Memory → Prop} (h : t.Answers act Q)
    (hQR : ∀ a m, Q a m → R a m) : t.Answers act R := by
  obtain ⟨stop, h⟩ := h
  refine ⟨stop, fun t' ht' ↦ ?_⟩
  obtain ⟨t'', hlike, hmemory, hrun⟩ := h t' ht'
  refine ⟨t'', hlike, hmemory, ?_⟩
  cases stop with
  | some stop => exact hrun
  | none =>
    obtain ⟨a, hrun, hQ⟩ := hrun
    exact ⟨a, hrun, hQR _ _ hQ⟩

/-- A result that is needed before. -/
theorem lift_bind {r : Outcome β} {f : β → TargetM α} (h : ∀ b, r = .ok b → t.Answers (f b) Q) :
    t.Answers (liftM r >>= f) Q := by
  cases r with
  | error stop =>
    exact ⟨some stop, fun t' ht' ↦ ⟨t', ht', rfl, by rw [run_bind, run_lift]⟩⟩
  | ok b => exact h b rfl

/-- Work that repeats for whatever is answered before. -/
theorem bind {act : TargetM α} {f : α → TargetM β} (h : t.Answers act Q)
    (hf : ∃ log result, ∀ a t', Q a t'.memory → t.IsLike t' → ∃ t'', (f a).run t' = (result, t'') ∧
      t.IsLike t'' ∧ Memory.writeAll log t'.memory = .ok t''.memory) : t.Repeats (act >>= f) := by
  obtain ⟨stop | _, h⟩ := h
  · obtain ⟨log, result, hf⟩ := hf
    refine ⟨log, result, fun t' ht' ↦ ?_⟩
    obtain ⟨u, hlike, hmemory, a, hrun, hQ⟩ := h t' ht'
    obtain ⟨t'', hrun', hlike', hwrites⟩ := hf a u (hmemory ▸ hQ) hlike
    exact ⟨t'', by rw [run_bind, hrun]; exact hrun', hlike', hmemory ▸ hwrites⟩
  · next stop =>
    refine ⟨[], .error stop, fun t' ht' ↦ ?_⟩
    obtain ⟨t'', hlike, hmemory, hrun⟩ := h t' ht'
    exact ⟨t'', by rw [run_bind, hrun], hlike, by rw [hmemory]; rfl⟩

/-- Work that does not depend on what is answered before, as far as that may be. -/
theorem bind_const {act : TargetM α} {f : α → TargetM β} {g : TargetM β} (h : t.Answers act Q)
    (hg : t.Repeats g) (hf : ∀ a m, Q a m → f a = g) : t.Repeats (act >>= f) := by
  obtain ⟨log, result, hg⟩ := hg
  exact h.bind ⟨log, result, fun a t' hQ ht' ↦ hf a _ hQ ▸ hg t' ht'⟩

end Answers

/-- Writing what stands in memory changes nothing there, and is refused everywhere alike. -/
theorem run_writeMemory_same (hsteady : t.gate.IsSteady) {address : UInt64} {bytes : Bytes}
    (ht' : t.IsLike t') (hread : t'.memory.read address bytes.size = .ok bytes) :
    ∃ t'', t.IsLike t'' ∧ t''.memory = t'.memory ∧ (writeMemory address bytes).run t' =
      (if t.gate.refuses ⟨.writeMemory, none⟩ 0 then
        .error (.error (Cause.refused .writeMemory).toError) else .ok (), t'') := by
  rw [writeMemory, run_bind, run_pass, ht'.refuses_eq hsteady]
  cases t.gate.refuses ⟨.writeMemory, none⟩ 0 with
  | true => exact ⟨_, ht'.counted _, rfl, rfl⟩
  | false =>
    have hwrite := Memory.write_of_read hread
    refine ⟨{ t' with
      gate := t'.gate.counted .writeMemory
      edits := ⟨address, bytes, t'.suspensions, t'.threads⟩ :: t'.edits },
      ⟨ht'.pid, ht'.refuses, ht'.memory⟩, rfl, ?_⟩
    simp only [Bool.false_eq_true, if_false, run_bind, run_get, run_lift, hwrite, run_set]

/-- Flushing changes no memory, and is refused everywhere alike. -/
theorem run_flush_like (hsteady : t.gate.IsSteady) (ht' : t.IsLike t') :
    ∃ t'', t.IsLike t'' ∧ t''.memory = t'.memory ∧ flush.run t' =
      (if t.gate.refuses ⟨.flushInstructionCache, none⟩ 0 then
        .error (.error (Cause.refused .flushInstructionCache).toError) else .ok (), t'') := by
  rw [flush, run_bind, run_pass, ht'.refuses_eq hsteady]
  cases t.gate.refuses ⟨.flushInstructionCache, none⟩ 0 with
  | true => exact ⟨_, ht'.counted _, rfl, rfl⟩
  | false =>
    exact ⟨{ t' with
      gate := t'.gate.counted .flushInstructionCache
      flushes := t'.flushes + 1 }, ⟨ht'.pid, ht'.refuses, ht'.memory⟩, rfl, rfl⟩

end Target

namespace Mapping

variable {t : Target} {image : Mapping} {rva : UInt32} {len : Nat}

/-- What stands in a field of an image. -/
def HasField (image : Mapping) (rva : UInt32) (len : Nat) (field : Bytes) (m : Memory) : Prop :=
  field.size = len ∧ image.check rva len = .ok () ∧
    ∃ address, image.address rva = .ok address ∧ m.read address len = .ok field

/-- Reading an image answers what stands in the field, or is refused everywhere alike. -/
theorem answers_read (hsteady : t.gate.IsSteady) (image : Mapping) (rva : UInt32) (len : Nat) :
    t.Answers (image.read rva len) (image.HasField rva len) := by
  refine .lift_bind fun _ hcheck ↦ .lift_bind fun address ha ↦ ?_
  refine .mono (.inContext _ (.readMemory hsteady address len)) fun field m hread ↦ ?_
  exact ⟨Memory.size_of_read hread, hcheck, address, ha, hread⟩

theorem repeats_write (hsteady : t.gate.IsSteady) (image : Mapping) (rva : UInt32) (bytes : Bytes) :
    t.Repeats (image.write rva bytes) :=
  (Target.Repeats.lift _).bind fun _ ↦ (Target.Repeats.lift _).bind fun _ ↦
    ((Target.repeats_writeMemory hsteady _ _).inContext _).bind fun _ ↦ Target.repeats_flush hsteady

/-- Writing back what was read repeats. -/
theorem repeats_write_back (hsteady : t.gate.IsSteady) (image : Mapping) (rva : UInt32)
    (len : Nat) : t.Repeats (image.read rva len >>= image.write rva) := by
  refine (answers_read hsteady image rva len).bind ⟨[],
    if t.gate.refuses ⟨.writeMemory, none⟩ 0 then
      .error ((Stop.error (Cause.refused .writeMemory).toError).within (.writingMemory len rva))
    else if t.gate.refuses ⟨.flushInstructionCache, none⟩ 0 then
      .error (.error (Cause.refused .flushInstructionCache).toError) else .ok (), ?_⟩
  rintro field t' ⟨rfl, hcheck, address, ha, hread⟩ ht'
  obtain ⟨u, hu, hmemory, hwrite⟩ := Target.run_writeMemory_same hsteady ht' hread
  obtain ⟨v, hv, hmemory', hflush⟩ := Target.run_flush_like hsteady hu
  rw [write, hcheck, ha]
  simp only [run_bind, run_lift, run_inContext, hwrite]
  cases t.gate.refuses ⟨.writeMemory, none⟩ 0 with
  | true => exact ⟨u, rfl, hu, by rw [hmemory]; rfl⟩
  | false => exact ⟨v, hflush, hv, by rw [hmemory', hmemory]; rfl⟩

end Mapping

namespace PatchSteps

variable {t : Target} {patch : Mapping} {bases : List (Option UInt64)}

/-- Redirecting a reference makes the same write, if any, and fails or not, whatever the memory
holds. -/
theorem repeats_apply (hsteady : t.gate.IsSteady) (patch : Mapping) (bases : List (Option UInt64))
    (r : ReferenceRedirection) : t.Repeats (r.apply patch bases) := by
  unfold ReferenceRedirection.apply
  cases Registry.baseOf? bases r.target with
  | none =>
    refine ⟨[], .error (.error (Cause.notLoaded r.target.index t.pid).toError), fun t' ht' ↦
      ⟨t', ?_, ht', rfl⟩⟩
    rw [run_bind, run_get, ← ht'.pid]
    rfl
  | some base =>
    refine (Target.Repeats.lift _).bind fun p ↦ (Target.Repeats.lift _).bind fun s ↦ ?_
    have hread := Mapping.answers_read hsteady patch r.patchRva r.kind.size
    unfold Field.relocate
    cases hvalue : Field.value? r.kind p s r.addend patch.base with
    | error stop => exact hread.bind_const (.lift (.error stop)) fun _ _ _ ↦ rfl
    | ok written =>
      cases written with
      | none => exact Mapping.repeats_write_back hsteady patch r.patchRva r.kind.size
      | some bytes =>
        -- of the field that was read only the size matters, which is the kind's
        refine hread.bind_const (Mapping.repeats_write hsteady patch r.patchRva bytes) ?_
        rintro field m ⟨hsize, -⟩
        have hfits : field.size = bytes.size := hsize.trans (Field.size_of_value? hvalue).symm
        simp only [bind, Except.bind, hfits, if_true]
        rfl

/-- Redirecting a reference repeats, with its failure as the answer. -/
theorem repeats_redirectReference (hsteady : t.gate.IsSteady) (patch : Mapping)
    (bases : List (Option UInt64)) (r : ReferenceRedirection) :
    t.Repeats (redirectReference patch bases r) :=
  (repeats_apply hsteady patch bases r).of_run
    (fun | .ok () => .ok false | .error (.error _) => .ok true | .error .fault => .error .fault)
    (run_redirectReference patch bases r)

/-- What redirecting references comes to where the patch is mapped. -/
theorem run_redirectReferences {registry : Registry} {token : Token} {p : AttachedProcess}
    (hmapping : registry.mapping? p.pid token = some patch) (records : List ReferenceRedirection) :
    (redirectReferences registry token records).run p =
      (AttachedProcess.onTarget (Target.suspended
        (records.mapM (redirectReference patch (registry.bases p.pid))))).run p := by
  unfold redirectReferences
  rw [run_bind, run_get]
  dsimp only
  rw [hmapping]

/-- Redirecting a list of references a second time fails for the same references as the first time
and leaves the memory as the first time left it. So it does for records of any kinds, in any order,
whose fields may overlap, whose images may not be loaded and whose values may not fit. -/
theorem redirecting_references_again_changes_nothing (registry : Registry) (token : Token)
    (records : List ReferenceRedirection) (p : AttachedProcess)
    (hsteady : p.target.gate.IsSteady) :
    ((redirectReferences registry token records).run
        ((redirectReferences registry token records).run p).2).1
      = ((redirectReferences registry token records).run p).1 ∧
    ((redirectReferences registry token records).run
        ((redirectReferences registry token records).run p).2).2.target.memory
      = ((redirectReferences registry token records).run p).2.target.memory := by
  cases hmapping : registry.mapping? p.pid token with
  | none =>
    have hrun : (redirectReferences registry token records).run p
        = (.ok (records.map fun _ ↦ false), p) := by
      unfold redirectReferences
      rw [run_bind, run_get]
      dsimp only
      rw [hmapping]
      rfl
    rw [hrun, hrun]
    exact ⟨rfl, rfl⟩
  | some patch =>
    have hrepeats := Target.repeats_suspended hsteady (Target.Repeats.mapM fun r (_ : r ∈ records) ↦
      repeats_redirectReference hsteady patch (registry.bases p.pid) r)
    have hpid : ((redirectReferences registry token records).run p).2.pid = p.pid := by
      rw [run_redirectReferences hmapping]
      exact hrepeats.pid_run
    rw [run_redirectReferences (hpid.symm ▸ hmapping), hpid, run_redirectReferences hmapping]
    exact hrepeats.run_again

namespace Overlap

/-- A module, a patch that is mapped above it, and an image that is mapped nowhere. -/
def registry : Registry :=
  ⟨[⟨⟨"app.dll"⟩, .empty, 0x100, [⟨7, 0x1000⟩]⟩, ⟨⟨"app.patch_0.dll"⟩, .empty, 0x20, [⟨7, 0x2000⟩]⟩,
    ⟨⟨"app.patch_1.dll"⟩, .empty, 0x20, []⟩]⟩

/-- The process that they are mapped into. -/
def process : AttachedProcess :=
  ⟨((Target.ofPid 7).map 0x1000 (Bytes.fill 0x100 0)).map 0x2000 (Bytes.fill 0x20 0xaa), .willing,
    none, 0x1000, []⟩

/-- References whose fields overlap, among them one of a kind that nothing is written for, one whose
value does not fit and one to the image that is mapped nowhere. -/
def records : List ReferenceRedirection :=
  [⟨.wideVa, 2, ⟨0⟩, 0x10, 0⟩, ⟨.unknown 12, 4, ⟨0⟩, 0x10, 0⟩, ⟨.relative 0, 0, ⟨0⟩, 0x20, -1⟩,
    ⟨.narrowRva, 8, ⟨0⟩, 0x30, 0⟩, ⟨.wideVa, 16, ⟨2⟩, 0, 0⟩]

/-- References with overlapping fields fail for the same reasons when they are redirected again, and
the memory stays as it is. -/
theorem overlapping_references_again_change_nothing :
    process.target.gate.IsSteady ∧
    ((redirectReferences registry ⟨1⟩ records).run process).1
      = .ok [false, false, false, true, true] ∧
    ((redirectReferences registry ⟨1⟩ records).run process).2.target.memory
      ≠ process.target.memory ∧
    ((redirectReferences registry ⟨1⟩ records).run
        ((redirectReferences registry ⟨1⟩ records).run process).2).1
      = ((redirectReferences registry ⟨1⟩ records).run process).1 ∧
    ((redirectReferences registry ⟨1⟩ records).run
        ((redirectReferences registry ⟨1⟩ records).run process).2).2.target.memory
      = ((redirectReferences registry ⟨1⟩ records).run process).2.target.memory := by
  have hsteady : process.target.gate.IsSteady := fun _ _ _ ↦ rfl
  exact ⟨hsteady, by decide +kernel, by decide +kernel,
    redirecting_references_again_changes_nothing registry ⟨1⟩ records process hsteady⟩

end Overlap

end PatchSteps
end LivePatch
