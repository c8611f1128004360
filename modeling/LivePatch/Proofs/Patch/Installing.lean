import LivePatch.Proofs.Patch.Undoing
import LivePatch.Proofs.Redirect.Function

/-!
# What installing a redirection leaves

The ranges that a redirection says it replaces are those of its writes, one each. So nothing else
changes wherever installing stops, and ranges that do not overlap all keep what was written: every
way into the function leads to the patch, and the bytes that a jump covers beyond itself are traps.
-/

namespace LivePatch

/-- Places whose address lies in one of certain ranges of an image. -/
def Mapping.placesOf (image : Mapping) (ranges : List (UInt32 × Nat)) : Places := fun base i ↦
  ∃ range ∈ ranges, image.base.toNat + range.1.toNat ≤ base.toNat + i ∧
    base.toNat + i < image.base.toNat + range.1.toNat + range.2

/-- Two ranges of an image that do not overlap. -/
def RangesApart (range range' : UInt32 × Nat) : Prop :=
  range.1.toNat + range.2 ≤ range'.1.toNat ∨ range'.1.toNat + range'.2 ≤ range.1.toNat

namespace FunctionRedirection

variable {r : FunctionRedirection} {existing patch : Mapping} {ranges : List (UInt32 × Nat)}
  {target : UInt64} {log : List (UInt64 × Bytes)}

/-- There is room for the technique: for a whole jump at the function's start or in front of it. -/
def HasRoom (r : FunctionRedirection) : Prop :=
  match r.technique with
  | .direct covered => X86.jumpSize ≤ covered
  | .indirection => X86.jumpSize ≤ r.existingRva.toNat

theorem HasRoom.isRoomy (h : r.HasRoom) : r.technique.IsRoomy := by
  unfold HasRoom at h
  cases htechnique : r.technique with
  | direct covered =>
    rw [htechnique] at h
    exact h
  | indirection => trivial

/-- A redirection that there is room for says which ranges it replaces. -/
theorem HasRoom.exists_overwritten (h : r.HasRoom) : ∃ ranges, r.overwritten = .ok ranges := by
  unfold HasRoom at h
  unfold overwritten
  cases htechnique : r.technique with
  | direct covered => exact ⟨_, rfl⟩
  | indirection =>
    rw [htechnique] at h
    have hback : UInt32.ofNat X86.jumpSize ≤ r.existingRva := UInt32.le_iff_toNat_le.mpr h
    have hpadding : r.paddingRva = .ok (r.existingRva - UInt32.ofNat X86.jumpSize) :=
      Outcome.orFault_eq_ok_iff.mpr (if_pos hback)
    rw [hpadding]
    exact ⟨_, rfl⟩

/-- Each range that a redirection says it replaces is that of one of its writes, in their order. -/
def Matches (existing : Mapping) : List (UInt64 × Bytes) → List (UInt32 × Nat) → Prop :=
  List.Forall₂ fun write range ↦ existing.address range.1 = .ok write.1 ∧ write.2.size = range.2

theorem matches_jumpWrites {rva : UInt32} (h : jumpWrites existing target rva = .ok log) :
    Matches existing log [(rva, X86.jumpSize)] := by
  obtain ⟨source, jump, hsource, hjump, rfl⟩ := jumpWrites_eq_ok_iff.mp h
  exact .cons ⟨hsource, X86.size_of_encodeJump hjump⟩ .nil

theorem matches_thunkWrites (h : r.thunkWrites existing target = .ok log) :
    Matches existing log (r.thunks.map fun thunk ↦ (thunk, X86.jumpSize)) := by
  obtain ⟨logs, hlogs, h⟩ := Outcome.bind_eq_ok_iff.mp h
  cases h
  have hall := Outcome.forall₂_of_mapM hlogs
  clear hlogs ‹r.thunkWrites existing target = _›
  generalize r.thunks = thunks at hall ⊢
  induction hall with
  | nil => exact .nil
  | cons hlog _ ih => exact List.rel_append (matches_jumpWrites hlog) ih

/-- The writes of a redirection have the ranges that it says it replaces. -/
theorem matches_writes (hranges : r.overwritten = .ok ranges)
    (h : r.writes existing patch = .ok log) : Matches existing log ranges := by
  obtain ⟨target, -, h⟩ := Outcome.bind_eq_ok_iff.mp h
  obtain ⟨thunks, hthunks, h⟩ := Outcome.bind_eq_ok_iff.mp h
  obtain ⟨starts, hstarts, h⟩ := Outcome.bind_eq_ok_iff.mp h
  cases h
  obtain ⟨start, hstart, hstarts⟩ := Outcome.bind_eq_ok_iff.mp hstarts
  unfold overwritten at hranges
  cases htechnique : r.technique with
  | direct covered =>
    rw [htechnique] at hranges hstarts
    cases hranges
    obtain ⟨code, hcode, hstarts⟩ := Outcome.bind_eq_ok_iff.mp hstarts
    cases hstarts
    exact List.rel_append (matches_thunkWrites hthunks)
      (.cons ⟨hstart, size_of_paddedJump hcode⟩ .nil)
  | indirection =>
    rw [htechnique] at hranges hstarts
    obtain ⟨padding, hpadding, hranges⟩ := Outcome.bind_eq_ok_iff.mp hranges
    cases hranges
    obtain ⟨padding', hpadding', hstarts⟩ := Outcome.bind_eq_ok_iff.mp hstarts
    cases hpadding.symm.trans hpadding'
    obtain ⟨jumps, hjumps, hstarts⟩ := Outcome.bind_eq_ok_iff.mp hstarts
    cases hstarts
    exact List.rel_append (matches_thunkWrites hthunks)
      (List.rel_append (matches_jumpWrites hjumps) (.cons ⟨hstart, rfl⟩ .nil))

/-- Writes whose ranges do not overlap do not overlap. -/
theorem Matches.pairwise_apart (h : Matches existing log ranges)
    (hapart : ranges.Pairwise RangesApart) : log.Pairwise Memory.Apart := by
  refine Pointwise.pairwise h.flip hapart fun {range range' write write'} hwrite hwrite' hranges ↦ ?_
  obtain ⟨hnat, -⟩ := Mapping.address_eq_ok hwrite.1
  obtain ⟨hnat', -⟩ := Mapping.address_eq_ok hwrite'.1
  unfold RangesApart at hranges
  rw [← hwrite.2, ← hwrite'.2] at hranges
  unfold Memory.Apart
  omega

/-- Wherever installing stops, nothing outside the ranges that the redirection says it replaces has
changed. -/
theorem agreesOff_install {t : Target} (hranges : r.overwritten = .ok ranges) :
    t.memory.AgreesOff (existing.placesOf ranges) ((r.install existing patch).run t).2.memory := by
  have hkeeps : Keeps (t.Within (.at (existing.placesOf ranges))) (r.install existing patch) := by
    refine r.keeps_install patch hranges fun range hrange address ha base i htouches ↦ ?_
    obtain ⟨hlo, hhi⟩ := htouches.bounds
    obtain ⟨hnat, -⟩ := Mapping.address_eq_ok ha
    exact ⟨range, hrange, by omega, by omega⟩
  exact (hkeeps.run (.refl _ _ t)).memory

/-- The bytes that a jump at the function's start covers beyond itself are traps. -/
def IsTrapped (r : FunctionRedirection) (existing : Mapping) (m : Memory) : Prop :=
  ∀ covered, r.technique = .direct covered → ∃ start jump, existing.address r.existingRva = .ok start ∧
    jump.size = X86.jumpSize ∧
    m.read start covered = .ok (jump ++ Bytes.fill (covered - X86.jumpSize) X86.trap)

/-- The write of a direct jump. -/
theorem exists_mem_writes_of_direct {covered : Nat} (htechnique : r.technique = .direct covered)
    (h : r.writes existing patch = .ok log) : ∃ (start : UInt64) (jump : Bytes),
      existing.address r.existingRva = .ok start ∧ jump.size = X86.jumpSize ∧
      (start, jump.resize covered X86.trap) ∈ log := by
  obtain ⟨target, -, h⟩ := Outcome.bind_eq_ok_iff.mp h
  obtain ⟨thunks, -, h⟩ := Outcome.bind_eq_ok_iff.mp h
  obtain ⟨starts, hstarts, h⟩ := Outcome.bind_eq_ok_iff.mp h
  cases h
  obtain ⟨start, hstart, hstarts⟩ := Outcome.bind_eq_ok_iff.mp hstarts
  rw [htechnique] at hstarts
  obtain ⟨code, hcode, hstarts⟩ := Outcome.bind_eq_ok_iff.mp hstarts
  cases hstarts
  obtain ⟨jump, hjump, hpadded⟩ := Outcome.bind_eq_ok_iff.mp hcode
  cases hpadded
  exact ⟨start, jump, hstart, X86.size_of_encodeJump hjump,
    List.mem_append_right _ (List.mem_singleton_self _)⟩

/-- What a direct jump covers is in memory as it was written. -/
theorem isTrapped_of_has (hroom : r.HasRoom) (hlog : r.writes existing patch = .ok log)
    {m : Memory} (hhas : ∀ write ∈ log, m.Has write) : r.IsTrapped existing m := by
  intro covered htechnique
  obtain ⟨start, jump, hstart, hsize, hmem⟩ := exists_mem_writes_of_direct htechnique hlog
  have hcovered : X86.jumpSize ≤ covered := by
    unfold HasRoom at hroom
    rwa [htechnique] at hroom
  have hcode : jump.resize covered X86.trap
      = jump ++ Bytes.fill (covered - X86.jumpSize) X86.trap := by
    unfold Bytes.resize
    rw [Array.extract_eq_self_of_le (hsize ▸ hcovered), hsize]
  have hlen : (jump.resize covered X86.trap).size = covered := Bytes.size_resize ..
  have hread := hhas _ hmem
  rw [Memory.Has, hlen, hcode] at hread
  exact ⟨start, jump, hstart, hsize, hread⟩

/-- Installing a redirection changes nothing outside the ranges that it says it replaces, wherever
it stops. Once it is done, the function's start and its thunks lead to the patch, and what a direct
jump covers beyond itself are traps. -/
theorem installed_function_leads_to_patch (hroom : r.HasRoom)
    (hapart : ∀ ranges, r.overwritten = .ok ranges → ranges.Pairwise RangesApart)
    {t t' : Target} {result : Outcome Unit}
    (hrun : (r.install existing patch).run t = (result, t')) :
    ∃ ranges, r.overwritten = .ok ranges ∧
      t.memory.AgreesOff (existing.placesOf ranges) t'.memory ∧
      (result = .ok () → ∃ target, patch.address r.patchRva = .ok target ∧
        r.LeadsTo existing target t'.memory ∧ r.IsTrapped existing t'.memory) := by
  obtain ⟨ranges, hranges⟩ := hroom.exists_overwritten
  refine ⟨ranges, hranges, ?_, ?_⟩
  · have hagrees : t.memory.AgreesOff _ ((r.install existing patch).run t).2.memory :=
      agreesOff_install hranges
    rwa [hrun] at hagrees
  · rintro rfl
    obtain ⟨log, m', hlog, hwritten, hsight⟩ :=
      (writes_install r existing patch t.memory).ok rfl hrun
    obtain ⟨-, rfl⟩ := Prod.mk.inj hsight
    have hpairwise := (matches_writes hranges hlog).pairwise_apart (hapart ranges hranges)
    -- no write overlaps another one, so each is still there at the end
    have hkept : ∀ write ∈ log, ∀ len, t'.memory.Has (Memory.front len write) := fun write hmem len ↦
      (Memory.has_front_iff_isKept hwritten hmem len).mpr
        ((Memory.isKept_of_pairwise_apart hpairwise hmem).front
          (Memory.window_of_writeAll hwritten hmem))
    have hwhole : ∀ write ∈ log, t'.memory.Has write := fun write hmem ↦ by
      have hhas := hkept write hmem write.2.size
      rwa [Memory.front, Array.extract_size] at hhas
    obtain ⟨target, htarget, -⟩ := Outcome.bind_eq_ok_iff.mp hlog
    exact ⟨target, htarget,
      (leadsTo_iff_hasFronts hroom.isRoomy htarget hlog).mpr fun write hmem ↦ hkept write hmem _,
      isTrapped_of_has hroom hlog hwhole⟩

/-- A function with a thunk in front of it and a jump over its first six bytes. -/
def jumpOverSix : FunctionRedirection := ⟨"GetX", .module, 0x10, 0x20, .direct 6, [8]⟩

/-- The process in which it is redirected, as far as the old image is concerned. -/
def beforeJump : Target := (Target.ofPid 1).map 0x140000000 (Bytes.fill 0x30 X86.idle)

/-- The function and its thunk lead to the patch, and one trap lies behind the jump. -/
theorem function_with_thunk_leads_to_patch :
    jumpOverSix.HasRoom ∧ jumpOverSix.overwritten = .ok [(8, 5), (0x10, 6)] ∧
    ∃ t', (jumpOverSix.install ⟨0x140000000, 0x30⟩ ⟨0x140010000, 0x40⟩).run beforeJump = (.ok (), t') ∧
      jumpOverSix.LeadsTo ⟨0x140000000, 0x30⟩ 0x140010020 t'.memory ∧
      jumpOverSix.IsTrapped ⟨0x140000000, 0x30⟩ t'.memory := by
  have hroom : jumpOverSix.HasRoom := show X86.jumpSize ≤ 6 by decide
  have hapart : ∀ ranges, jumpOverSix.overwritten = .ok ranges → ranges.Pairwise RangesApart := by
    intro ranges h
    cases h
    exact .cons (fun range hrange ↦ by
      obtain rfl := List.mem_singleton.mp hrange
      exact .inl (by decide)) (List.pairwise_singleton ..)
  have hrun : (jumpOverSix.install ⟨0x140000000, 0x30⟩ ⟨0x140010000, 0x40⟩).run beforeJump = (.ok (),
      ((jumpOverSix.install ⟨0x140000000, 0x30⟩ ⟨0x140010000, 0x40⟩).run beforeJump).2) :=
    Prod.ext (by decide +kernel) rfl
  obtain ⟨ranges, -, -, hdone⟩ := installed_function_leads_to_patch hroom hapart hrun
  obtain ⟨target, htarget, hleads, htrapped⟩ := hdone rfl
  cases htarget
  exact ⟨hroom, rfl, _, hrun, hleads, htrapped⟩

end FunctionRedirection
end LivePatch
