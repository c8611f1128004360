import LivePatch.Proofs.Process.Writing
import LivePatch.Proofs.Redirect.Technique
import LivePatch.Proofs.X86.Jumps
import LivePatch.Redirect.Function

/-!
# Where a redirected function leads

Installing a redirection makes a few writes, each of which begins with a jump. The function leads to
the patch, from its start and from its thunks, exactly while these jumps are in memory.
-/

namespace LivePatch

namespace Memory

/-- The code at an address is a long jump to a target. -/
def JumpsTo (m : Memory) (address target : UInt64) : Prop :=
  ∃ code, m.read address X86.jumpSize = .ok code ∧ code.u8At? 0 = some X86.longJump ∧
    X86.jumpTarget? address code = some target

/-- The code at a function's start is a short jump to the long jump in front of it. -/
def StepsBack (m : Memory) (start : UInt64) : Prop :=
  ∃ code, m.read start X86.jumpToPadding.size = .ok code ∧
    X86.jumpTarget? start code = some (start - UInt64.ofNat X86.jumpSize)

/-- Code is a jump to a target when its bytes are those of the jump. -/
theorem jumpsTo_iff {m : Memory} {source target : UInt64} {jump : Bytes}
    (h : X86.encodeJump source target = .ok jump) :
    m.JumpsTo source target ↔ m.Has (source, jump) := by
  rw [Has, X86.size_of_encodeJump h]
  constructor
  · rintro ⟨code, hread, hfirst, htarget⟩
    rw [hread, X86.longJump_unique (size_of_read hread) (X86.size_of_encodeJump h) hfirst
      (X86.u8At?_encodeJump h) htarget (X86.jumpTarget?_encodeJump h)]
  · intro hread
    exact ⟨jump, hread, X86.u8At?_encodeJump h, X86.jumpTarget?_encodeJump h⟩

/-- Code steps back when its bytes are those of the short jump. -/
theorem stepsBack_iff {m : Memory} {start : UInt64} :
    m.StepsBack start ↔ m.Has (start, X86.jumpToPadding) := by
  constructor
  · rintro ⟨code, hread, htarget⟩
    rw [Has, hread, X86.eq_jumpToPadding (size_of_read hread) htarget]
  · intro hread
    exact ⟨_, hread, X86.jumpTarget?_jumpToPadding start⟩

/-- The jumps that writes begin with are in memory. -/
def HasFronts (m : Memory) (log : List (UInt64 × Bytes)) : Prop :=
  ∀ write ∈ log, m.Has (front X86.jumpSize write)

instance (m : Memory) (log : List (UInt64 × Bytes)) : Decidable (m.HasFronts log) :=
  inferInstanceAs (Decidable (∀ write ∈ log, m.read write.1 _ = .ok (front X86.jumpSize write).2))

theorem hasFronts_append {m : Memory} {log log' : List (UInt64 × Bytes)} :
    m.HasFronts (log ++ log') ↔ m.HasFronts log ∧ m.HasFronts log' :=
  List.forall_mem_append

theorem hasFronts_singleton {m : Memory} {write : UInt64 × Bytes} :
    m.HasFronts [write] ↔ m.Has (front X86.jumpSize write) :=
  List.forall_mem_singleton

/-- A write that is no longer than a jump is its own front. -/
theorem front_eq_self {write : UInt64 × Bytes} (h : write.2.size ≤ X86.jumpSize) :
    front X86.jumpSize write = write :=
  Prod.ext rfl (Array.extract_eq_self_of_le h)

/-- A padded jump begins with the jump. -/
theorem front_padded {source target start : UInt64} {jump : Bytes} {covered : Nat}
    (h : X86.encodeJump source target = .ok jump) (hroomy : X86.jumpSize ≤ covered) :
    front X86.jumpSize (start, jump.resize covered X86.trap) = (start, jump) := by
  have hsize := X86.size_of_encodeJump h
  refine Prod.ext rfl ?_
  change (jump.extract 0 covered ++ _).extract 0 X86.jumpSize = jump
  have hwhole : jump.extract 0 covered = jump :=
    Array.extract_eq_self_of_le (Nat.le_trans (Nat.le_of_eq hsize) hroomy)
  rw [hwhole, Array.extract_append, hsize, Nat.sub_self,
    Array.extract_eq_self_of_le (Nat.le_of_eq hsize), Array.extract_zero, Array.append_empty]

end Memory

namespace FunctionRedirection

/-- A long jump at a place of an image. -/
def jumpWrites (existing : Mapping) (target : UInt64) (rva : UInt32) : Writing := do
  let source ← existing.address rva
  return [(source, ← X86.encodeJump source target)]

/-- The jumps at the thunks of a function. -/
def thunkWrites (r : FunctionRedirection) (existing : Mapping) (target : UInt64) : Writing := do
  return (← r.thunks.mapM (jumpWrites existing target)).flatten

/-- The jumps at a function's start. -/
def startWrites (r : FunctionRedirection) (existing : Mapping) (target : UInt64) : Writing := do
  let start ← existing.address r.existingRva
  match r.technique with
  | .direct covered => return [(start, ← paddedJump start target covered)]
  | .indirection =>
    return (← jumpWrites existing target (← r.paddingRva)) ++ [(start, X86.jumpToPadding)]

/-- The writes that installing a redirection takes. -/
def writes (r : FunctionRedirection) (existing patch : Mapping) : Writing := do
  let target ← patch.address r.patchRva
  (r.thunkWrites existing target).followedBy (r.startWrites existing target)

/-- The code at a function's start leads to the function in the patch, and so does the code at its
thunks. -/
structure LeadsTo (r : FunctionRedirection) (existing : Mapping) (target : UInt64) (m : Memory) :
    Prop where
  start : ∃ start, existing.address r.existingRva = .ok start ∧
    match r.technique with
    | .direct _ => m.JumpsTo start target
    | .indirection => m.StepsBack start ∧ m.JumpsTo (start - UInt64.ofNat X86.jumpSize) target
  thunks : ∀ thunk ∈ r.thunks, ∃ source,
    existing.address thunk = .ok source ∧ m.JumpsTo source target

private theorem writes_jump {pid : UInt32} (existing : Mapping) (target : UInt64) (rva : UInt32) :
    Writes Target.sight pid
      (do
        let jump ← X86.encodeJump (← existing.address rva) target
        existing.write rva jump)
      (jumpWrites existing target rva) := by
  refine Writes.bind_lift fun source hsource ↦ Writes.bind_lift fun jump hjump ↦ ?_
  simp only [jumpWrites, bind, Except.bind, hsource, hjump]
  exact existing.writes_write hsource

/-- Installing a redirection makes its writes. -/
theorem writes_install {pid : UInt32} (r : FunctionRedirection) (existing patch : Mapping) :
    Writes Target.sight pid (r.install existing patch) (r.writes existing patch) := by
  refine Writes.bind_lift fun target htarget ↦ ?_
  unfold writes
  rw [htarget]
  refine Writes.bind (Writes.forM fun thunk _ ↦ writes_jump existing target thunk) fun _ ↦
    Writes.bind_lift fun start hstart ↦ ?_
  unfold startWrites
  rw [hstart]
  cases r.technique with
  | direct covered =>
    refine Writes.bind_lift fun code hcode ↦ ?_
    simp only [bind, Except.bind, hcode]
    exact existing.writes_write hstart
  | indirection =>
    refine Writes.bind_lift fun padding hpadding ↦ Writes.bind_lift fun source hsource ↦
      Writes.bind_lift fun jump hjump ↦ ?_
    simp only [jumpWrites, bind, Except.bind, hpadding, hsource, hjump]
    exact (existing.writes_write hsource).bind fun _ ↦ existing.writes_write hstart

/-- What a long jump writes. -/
theorem jumpWrites_eq_ok_iff {existing : Mapping} {target : UInt64} {rva : UInt32}
    {log : List (UInt64 × Bytes)} :
    jumpWrites existing target rva = .ok log ↔ ∃ source jump, existing.address rva = .ok source ∧
      X86.encodeJump source target = .ok jump ∧ log = [(source, jump)] := by
  unfold jumpWrites
  constructor
  · intro h
    obtain ⟨source, hsource, h⟩ := Outcome.bind_eq_ok_iff.mp h
    obtain ⟨jump, hjump, h⟩ := Outcome.bind_eq_ok_iff.mp h
    cases h
    exact ⟨source, jump, hsource, hjump, rfl⟩
  · rintro ⟨source, jump, hsource, hjump, rfl⟩
    rw [hsource]
    simp only [bind, Except.bind, hjump]
    rfl

/-- The jump of a thunk is in memory when the thunk leads to the target. -/
theorem hasFronts_jumpWrites_iff {existing : Mapping} {target : UInt64} {rva : UInt32}
    {log : List (UInt64 × Bytes)} (h : jumpWrites existing target rva = .ok log) {m : Memory} :
    m.HasFronts log ↔ ∃ source, existing.address rva = .ok source ∧ m.JumpsTo source target := by
  obtain ⟨source, jump, hsource, hjump, rfl⟩ := jumpWrites_eq_ok_iff.mp h
  rw [Memory.hasFronts_singleton,
    Memory.front_eq_self (Nat.le_of_eq (X86.size_of_encodeJump hjump)), ← Memory.jumpsTo_iff hjump]
  constructor
  · intro hjumps
    exact ⟨source, hsource, hjumps⟩
  · rintro ⟨source', hsource', hjumps⟩
    rw [hsource] at hsource'
    cases hsource'
    exact hjumps

/-- The jumps of all thunks are in memory when every thunk leads to the target. -/
theorem hasFronts_thunkWrites_iff {r : FunctionRedirection} {existing : Mapping} {target : UInt64}
    {log : List (UInt64 × Bytes)} (h : r.thunkWrites existing target = .ok log) {m : Memory} :
    m.HasFronts log ↔ ∀ thunk ∈ r.thunks, ∃ source,
      existing.address thunk = .ok source ∧ m.JumpsTo source target := by
  obtain ⟨logs, hlogs, h⟩ := Outcome.bind_eq_ok_iff.mp h
  cases h
  have hall := Outcome.forall₂_of_mapM hlogs
  clear hlogs ‹r.thunkWrites existing target = _›
  generalize r.thunks = thunks at hall ⊢
  induction hall with
  | nil => simp [Memory.HasFronts]
  | cons hlog _ ih =>
    rw [List.flatten_cons, Memory.hasFronts_append, List.forall_mem_cons]
    exact and_congr (hasFronts_jumpWrites_iff hlog) ih

/-- The jump in front of a function lies as far in front of its start as it takes. -/
theorem address_paddingRva {r : FunctionRedirection} {existing : Mapping} {padding : UInt32}
    {start source : UInt64} (hpadding : r.paddingRva = .ok padding)
    (hstart : existing.address r.existingRva = .ok start)
    (hsource : existing.address padding = .ok source) :
    source = start - UInt64.ofNat X86.jumpSize := by
  have hback : Word.sub32? r.existingRva (UInt32.ofNat X86.jumpSize) = some padding :=
    Outcome.orFault_eq_ok_iff.mp hpadding
  unfold Word.sub32? at hback
  split at hback
  · next hle =>
    cases hback
    obtain ⟨hstart, -⟩ := Mapping.address_eq_ok hstart
    obtain ⟨hsource, -⟩ := Mapping.address_eq_ok hsource
    have hfive : (UInt32.ofNat X86.jumpSize).toNat = 5 := rfl
    have hwide : (UInt64.ofNat X86.jumpSize).toNat = 5 := rfl
    rw [UInt32.toNat_sub_of_le _ _ hle, hfive] at hsource
    rw [UInt32.le_iff_toNat_le, hfive] at hle
    apply UInt64.toNat_inj.mp
    rw [UInt64.toNat_sub_of_le _ _ (UInt64.le_iff_toNat_le.mpr (by omega)), hwide]
    omega
  · cases hback

/-- The jumps at a function's start are in memory when the function leads to the target. -/
theorem hasFronts_startWrites_iff {r : FunctionRedirection} {existing : Mapping} {target : UInt64}
    {log : List (UInt64 × Bytes)} (hroomy : r.technique.IsRoomy)
    (h : r.startWrites existing target = .ok log) {m : Memory} :
    m.HasFronts log ↔ ∃ start, existing.address r.existingRva = .ok start ∧
      match r.technique with
      | .direct _ => m.JumpsTo start target
      | .indirection =>
        m.StepsBack start ∧ m.JumpsTo (start - UInt64.ofNat X86.jumpSize) target := by
  obtain ⟨start, hstart, h⟩ := Outcome.bind_eq_ok_iff.mp h
  have hunique : ∀ P : UInt64 → Prop,
      (∃ start, existing.address r.existingRva = .ok start ∧ P start) ↔ P start := by
    intro P
    rw [hstart]
    simp
  rw [hunique]
  cases htechnique : r.technique with
  | direct covered =>
    rw [htechnique] at h hroomy
    obtain ⟨code, hcode, h⟩ := Outcome.bind_eq_ok_iff.mp h
    cases h
    obtain ⟨jump, hjump, hpadded⟩ := Outcome.bind_eq_ok_iff.mp hcode
    cases hpadded
    rw [Memory.hasFronts_singleton, Memory.front_padded hjump hroomy, Memory.jumpsTo_iff hjump]
  | indirection =>
    rw [htechnique] at h
    obtain ⟨padding, hpadding, h⟩ := Outcome.bind_eq_ok_iff.mp h
    obtain ⟨jumps, hjumps, h⟩ := Outcome.bind_eq_ok_iff.mp h
    cases h
    obtain ⟨source, jump, hsource, hjump, rfl⟩ := jumpWrites_eq_ok_iff.mp hjumps
    have hback := address_paddingRva hpadding hstart hsource
    subst hback
    rw [Memory.hasFronts_append, hasFronts_jumpWrites_iff hjumps, Memory.hasFronts_singleton,
      Memory.front_eq_self (show X86.jumpToPadding.size ≤ X86.jumpSize by decide),
      ← Memory.stepsBack_iff, and_comm, hsource]
    simp

/-- The jumps of a redirection are in memory when the function leads to the patch. -/
theorem leadsTo_iff_hasFronts {r : FunctionRedirection} {existing patch : Mapping} {target : UInt64}
    {log : List (UInt64 × Bytes)} (hroomy : r.technique.IsRoomy)
    (htarget : patch.address r.patchRva = .ok target) (h : r.writes existing patch = .ok log)
    {m : Memory} : r.LeadsTo existing target m ↔ m.HasFronts log := by
  obtain ⟨target', htarget', h⟩ := Outcome.bind_eq_ok_iff.mp h
  rw [htarget] at htarget'
  cases htarget'
  obtain ⟨thunks, hthunks, h⟩ := Outcome.bind_eq_ok_iff.mp h
  obtain ⟨starts, hstarts, h⟩ := Outcome.bind_eq_ok_iff.mp h
  cases h
  rw [Memory.hasFronts_append, hasFronts_thunkWrites_iff hthunks,
    hasFronts_startWrites_iff hroomy hstarts, and_comm]
  exact ⟨fun ⟨hstart, hthunks⟩ ↦ ⟨hstart, hthunks⟩, fun ⟨hstart, hthunks⟩ ↦ ⟨hstart, hthunks⟩⟩

end FunctionRedirection
end LivePatch
