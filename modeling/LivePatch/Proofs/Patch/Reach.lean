import LivePatch.Proofs.Attached.Identity
import LivePatch.Proofs.Patch.Redirecting
import LivePatch.Proofs.Redirect.Reach

/-!
# Reach of patches

A patch is loaded only where it is in reach of the module. Its jumps and relative fields lead to
older patches too, and nothing was checked between patches: what is installed for a patch spans its
distance wherever the older image is the module or lies on the same side of it, and redirecting stops
with a displacement that is too long only for an older patch on the other side.
-/

namespace LivePatch

section Accesses

variable {pid : UInt32}

namespace Memory

theorem avoids_window (m : Memory) (address : UInt64) (len : Nat) :
    Outcome.Avoids Cause.IsTooLong (m.window address len) := by
  unfold window
  split
  · exact Outcome.Avoids.fail id
  · refine (Outcome.Avoids.orFault _).bind fun stop _ ↦ ?_
    split
    · exact Outcome.Avoids.ok _
    · exact Outcome.Avoids.fail id

theorem avoids_read (m : Memory) (address : UInt64) (len : Nat) :
    Outcome.Avoids Cause.IsTooLong (m.read address len) :=
  (avoids_window _ _ _).bind fun _ _ ↦ Outcome.Avoids.ok _

theorem avoids_write (m : Memory) (address : UInt64) (bytes : Bytes) :
    Outcome.Avoids Cause.IsTooLong (m.write address bytes) :=
  (avoids_window _ _ _).bind fun _ _ ↦ Outcome.Avoids.ok _

end Memory

namespace Target

theorem avoids_pass (c : Call) : Avoids Cause.IsTooLong (Is pid) (pass c) := by
  refine Avoids.bind_get fun t ht ↦ Avoids.bind (Avoids.set ht) fun _ ↦ ?_
  split
  · exact Avoids.fail id
  · exact Avoids.pure _

theorem avoids_readMemory (address : UInt64) (len : Nat) :
    Avoids Cause.IsTooLong (Is pid) (readMemory address len) :=
  (avoids_pass _).bind fun _ ↦ Avoids.bind_get fun t _ ↦ Avoids.lift (t.memory.avoids_read _ _)

theorem avoids_writeMemory (address : UInt64) (bytes : Bytes) :
    Avoids Cause.IsTooLong (Is pid) (writeMemory address bytes) :=
  (avoids_pass _).bind fun _ ↦ Avoids.bind_get fun t ht ↦
    (Avoids.lift (t.memory.avoids_write _ _)).bind fun _ ↦ Avoids.set ht

theorem avoids_flush : Avoids Cause.IsTooLong (Is pid) flush :=
  (avoids_pass _).bind fun _ ↦ Avoids.modify fun _ ht ↦ ht

end Target

namespace Mapping

theorem avoids_address (m : Mapping) (rva : UInt32) :
    Outcome.Avoids Cause.IsTooLong (m.address rva) := by
  unfold Mapping.address
  split
  · exact Outcome.Avoids.orFault _
  · exact Outcome.Avoids.fault

theorem avoids_check (m : Mapping) (rva : UInt32) (len : Nat) :
    Outcome.Avoids Cause.IsTooLong (m.check rva len) := by
  unfold check
  split
  · exact Outcome.Avoids.ok _
  · exact Outcome.Avoids.fault

theorem avoids_read (m : Mapping) (rva : UInt32) (len : Nat) :
    Avoids Cause.IsTooLong (Target.Is pid) (m.read rva len) :=
  (Avoids.lift (m.avoids_check _ _)).bind fun _ ↦ (Avoids.lift (m.avoids_address _)).bind fun _ ↦
    (Target.avoids_readMemory ..).inContext

theorem avoids_write (m : Mapping) (rva : UInt32) (bytes : Bytes) :
    Avoids Cause.IsTooLong (Target.Is pid) (m.write rva bytes) :=
  (Avoids.lift (m.avoids_check _ _)).bind fun _ ↦ (Avoids.lift (m.avoids_address _)).bind fun _ ↦
    (Target.avoids_writeMemory ..).inContext.bind fun _ ↦ Target.avoids_flush

end Mapping
end Accesses

section Jumps

variable {pid : UInt32}

/-- Code made of a jump spans its distance. -/
theorem spans_of_paddedJump {source target : UInt64} {covered : Nat} {code : Bytes}
    (h : paddedJump source target covered = .ok code) : X86.Spans (source + 5) target := by
  obtain ⟨jump, hjump, -⟩ := Outcome.bind_eq_ok_iff.mp h
  exact X86.spans_of_encodeJump hjump

theorem avoids_paddedJump {source target : UInt64} (covered : Nat)
    (h : X86.Spans (source + 5) target) :
    Outcome.Avoids Cause.IsTooLong (paddedJump source target covered) :=
  (X86.avoids_encodeJump h).bind fun _ _ ↦ Outcome.Avoids.ok _

namespace FunctionRedirection

variable {r : FunctionRedirection} {existing patch : Mapping}

/-- Where the long jump lies that the function's start leads to the patch by. -/
def jumpRva (r : FunctionRedirection) : UInt32 :=
  match r.technique with
  | .direct _ => r.existingRva
  | .indirection => r.existingRva - UInt32.ofNat X86.jumpSize

/-- The long jumps of a redirection, which lead from the older image to the patch. -/
def leaps (r : FunctionRedirection) (existing patch : Mapping) : List Leap :=
  (r.thunks ++ [r.jumpRva]).map fun rva ↦ ⟨existing, rva, patch, r.patchRva⟩

theorem forall_leaps_iff {P : Leap → Prop} : (∀ l ∈ r.leaps existing patch, P l) ↔
    (∀ thunk ∈ r.thunks, P ⟨existing, thunk, patch, r.patchRva⟩) ∧
      P ⟨existing, r.jumpRva, patch, r.patchRva⟩ := by
  simp [leaps, or_imp, forall_and]

theorem eq_of_paddingRva {padding : UInt32} (h : r.paddingRva = .ok padding) :
    padding = r.existingRva - UInt32.ofNat X86.jumpSize := by
  have hsub := Outcome.orFault_eq_ok_iff.mp h
  unfold Word.sub32? at hsub
  split at hsub <;> cases hsub
  rfl

/-- The jumps of a redirection whose writes could be made up span their distance. -/
theorem spans_of_writes {log : List (UInt64 × Bytes)} (h : r.writes existing patch = .ok log) :
    ∀ l ∈ r.leaps existing patch, l.Spans := by
  have hjump : ∀ {rva target log}, jumpWrites existing target rva = .ok log →
      X86.Spans (existing.base + rva.toUInt64 + 5) target := by
    intro rva target log hlog
    obtain ⟨source, jump, hsource, hjump, -⟩ := jumpWrites_eq_ok_iff.mp hlog
    rw [← (Mapping.eq_of_address hsource).1]
    exact X86.spans_of_encodeJump hjump
  obtain ⟨target, htarget, h⟩ := Outcome.bind_eq_ok_iff.mp h
  obtain ⟨thunks, hthunks, h⟩ := Outcome.bind_eq_ok_iff.mp h
  obtain ⟨starts, hstarts, -⟩ := Outcome.bind_eq_ok_iff.mp h
  obtain rfl := (Mapping.eq_of_address htarget).1
  refine forall_leaps_iff.mpr ⟨fun thunk hthunk ↦ ?_, ?_⟩
  · obtain ⟨logs, hlogs, -⟩ := Outcome.bind_eq_ok_iff.mp hthunks
    obtain ⟨log, -, hlog⟩ := Pointwise.exists_right (Outcome.forall₂_of_mapM hlogs) hthunk
    exact hjump hlog
  · obtain ⟨start, hstart, hstarts⟩ := Outcome.bind_eq_ok_iff.mp hstarts
    obtain rfl := (Mapping.eq_of_address hstart).1
    unfold Leap.Spans jumpRva
    cases htechnique : r.technique with
    | direct covered =>
      rw [htechnique] at hstarts
      obtain ⟨code, hcode, -⟩ := Outcome.bind_eq_ok_iff.mp hstarts
      exact spans_of_paddedJump hcode
    | indirection =>
      rw [htechnique] at hstarts
      obtain ⟨padding, hpadding, hstarts⟩ := Outcome.bind_eq_ok_iff.mp hstarts
      obtain ⟨log, hlog, -⟩ := Outcome.bind_eq_ok_iff.mp hstarts
      obtain rfl := eq_of_paddingRva hpadding
      exact hjump hlog

/-- Installing a redirection does not stop for a distance that its jumps span. -/
theorem avoids_install (h : ∀ l ∈ r.leaps existing patch, l.Spans) :
    Avoids Cause.IsTooLong (Target.Is pid) (r.install existing patch) := by
  obtain ⟨hthunks, hstart⟩ := forall_leaps_iff.mp h
  refine Avoids.bind_lift (patch.avoids_address _) fun target htarget ↦ ?_
  obtain rfl := (Mapping.eq_of_address htarget).1
  refine (Avoids.forM fun thunk hthunk ↦ ?_).bind fun _ ↦
    Avoids.bind_lift (existing.avoids_address _) fun start haddress ↦ ?_
  · refine Avoids.bind_lift (existing.avoids_address _) fun source hsource ↦ ?_
    obtain rfl := (Mapping.eq_of_address hsource).1
    exact Avoids.bind_lift (X86.avoids_encodeJump (hthunks thunk hthunk)) fun _ _ ↦
      existing.avoids_write _ _
  · obtain rfl := (Mapping.eq_of_address haddress).1
    unfold Leap.Spans jumpRva at hstart
    cases htechnique : r.technique with
    | direct covered =>
      rw [htechnique] at hstart
      exact Avoids.bind_lift (avoids_paddedJump covered hstart) fun _ _ ↦ existing.avoids_write _ _
    | indirection =>
      rw [htechnique] at hstart
      refine Avoids.bind_lift (Outcome.Avoids.orFault _) fun padding hpadding ↦
        Avoids.bind_lift (existing.avoids_address _) fun source hsource ↦ ?_
      obtain rfl := eq_of_paddingRva hpadding
      obtain rfl := (Mapping.eq_of_address hsource).1
      exact Avoids.bind_lift (X86.avoids_encodeJump hstart) fun _ _ ↦
        (existing.avoids_write _ _).bind fun _ ↦ existing.avoids_write _ _

end FunctionRedirection

namespace LibraryRedirection

variable {r : LibraryRedirection} {existing patch : Mapping}

/-- The long jump of a redirection, which leads from the patch back to the older image. -/
def leap (r : LibraryRedirection) (existing patch : Mapping) : Leap :=
  ⟨patch, r.patchRva, existing, r.existingRva⟩

theorem spans_of_writes {log : List (UInt64 × Bytes)} (h : r.writes existing patch = .ok log) :
    (r.leap existing patch).Spans := by
  obtain ⟨start, hstart, h⟩ := Outcome.bind_eq_ok_iff.mp h
  obtain ⟨target, htarget, h⟩ := Outcome.bind_eq_ok_iff.mp h
  obtain ⟨code, hcode, -⟩ := Outcome.bind_eq_ok_iff.mp h
  obtain rfl := (Mapping.eq_of_address hstart).1
  obtain rfl := (Mapping.eq_of_address htarget).1
  exact spans_of_paddedJump hcode

theorem avoids_install (h : (r.leap existing patch).Spans) :
    Avoids Cause.IsTooLong (Target.Is pid) (r.install existing patch) := by
  refine Avoids.bind_lift (patch.avoids_address _) fun start hstart ↦
    Avoids.bind_lift (existing.avoids_address _) fun target htarget ↦ ?_
  obtain rfl := (Mapping.eq_of_address hstart).1
  obtain rfl := (Mapping.eq_of_address htarget).1
  exact Avoids.bind_lift (avoids_paddedJump _ h) fun _ _ ↦ patch.avoids_write _ _

end LibraryRedirection

namespace ReferenceRedirection

variable {r : ReferenceRedirection} {image existing : Mapping} {bases : List (Option UInt64)}

/-- The displacement of a relative field fits. -/
def Spans (r : ReferenceRedirection) (image existing : Mapping) : Prop :=
  ∀ extra, r.kind = .relative extra →
    X86.Spans (image.base + r.patchRva.toUInt64 + (4 + extra.toUInt64))
      (existing.base + r.targetRva.toUInt64)

/-- The destination is in the older image, and the field and where the displacement of a relative
one counts from are in the patch. -/
structure IsInside (r : ReferenceRedirection) (image existing : Mapping) : Prop where
  field : ∀ extra, r.kind = .relative extra →
    r.patchRva.toNat + (4 + extra.toNat) ≤ image.size.toNat
  target : r.targetRva < existing.size

/-- References between images in reach of one another span their distance. -/
theorem IsInside.spans (h : r.IsInside image existing) (hreach : image.IsInReach existing) :
    r.Spans image existing := by
  intro extra hkind
  have hextra : (4 + extra.toUInt64).toNat = 4 + extra.toNat := by
    have := extra.toNat_lt
    rw [UInt64.toNat_add, UInt8.toNat_toUInt64]
    exact Nat.mod_eq_of_lt (by change 4 + extra.toNat < _; omega)
  have hfield := h.field extra hkind
  rw [← hextra] at hfield
  exact hreach.spans (hreach.toNat_add hfield) hfield h.target

/-- The place that a displacement counts from. -/
theorem eq_of_placeBehind {p place : UInt64} {extra : UInt8}
    (h : Field.placeBehind p extra = .ok place) : place = p + (4 + extra.toUInt64) := by
  obtain ⟨fieldEnd, hend, h⟩ := Outcome.bind_eq_ok_iff.mp h
  rw [← Word.eq_of_add64? (Outcome.orFault_eq_ok_iff.mp h),
    ← Word.eq_of_add64? (Outcome.orFault_eq_ok_iff.mp hend), UInt64.add_assoc]

/-- A value that could be made up for a field spans its distance. -/
theorem spans_of_value? {written : Option Bytes} (haddend : r.addend = 0)
    (h : Field.value? r.kind (image.base + r.patchRva.toUInt64)
      (existing.base + r.targetRva.toUInt64) r.addend image.base = .ok written) :
    r.Spans image existing := by
  intro extra hkind
  rw [hkind, haddend] at h
  obtain ⟨place, hplace, h⟩ := Outcome.bind_eq_ok_iff.mp h
  obtain ⟨rel, hrel, -⟩ := Outcome.bind_eq_ok_iff.mp h
  obtain rfl := eq_of_placeBehind hplace
  exact X86.spans_of_displacement hrel

theorem avoids_value? (haddend : r.addend = 0) (h : r.Spans image existing) :
    Outcome.Avoids Cause.IsTooLong (Field.value? r.kind (image.base + r.patchRva.toUInt64)
      (existing.base + r.targetRva.toUInt64) r.addend image.base) := by
  unfold Field.value?
  rw [haddend]
  cases hkind : r.kind with
  | relative extra =>
    have hplaces : Outcome.Avoids Cause.IsTooLong
        (Field.placeBehind (image.base + r.patchRva.toUInt64) extra) :=
      (Outcome.Avoids.orFault _).bind fun _ _ ↦ Outcome.Avoids.orFault _
    refine hplaces.bind fun place hplace ↦ ?_
    obtain rfl := eq_of_placeBehind hplace
    exact (X86.avoids_displacement (h extra hkind)).bind fun _ _ ↦ Outcome.Avoids.ok _
  | narrowVa | narrowRva =>
    dsimp only
    split
    · exact Outcome.Avoids.ok _
    · exact Outcome.Avoids.fail id
  | wideVa | sectionRelative | unknown => exact Outcome.Avoids.ok _

/-- Redirecting a reference does not stop for a distance that it spans. -/
theorem avoids_apply (haddend : r.addend = 0)
    (hbase : Registry.baseOf? bases r.target = some existing.base) (h : r.Spans image existing) :
    Avoids Cause.IsTooLong (Target.Is pid) (r.apply image bases) := by
  unfold apply
  rw [hbase]
  refine Avoids.bind_lift (image.avoids_address _) fun p hp ↦
    Avoids.bind_lift (Outcome.Avoids.orFault _) fun target htarget ↦
    (image.avoids_read _ _).bind fun old ↦ Avoids.bind_lift ?_ fun _ _ ↦ image.avoids_write _ _
  obtain rfl := (Mapping.eq_of_address hp).1
  obtain rfl := Word.eq_of_add64? (Outcome.orFault_eq_ok_iff.mp htarget)
  refine (avoids_value? haddend h).bind fun written _ ↦ ?_
  split
  · exact Outcome.Avoids.ok _
  · split
    · exact Outcome.Avoids.ok _
    · exact Outcome.Avoids.fail id

/-- A reference that was redirected spans its distance. -/
theorem spans_of_apply (haddend : r.addend = 0)
    (hbase : Registry.baseOf? bases r.target = some existing.base) :
    Triple (fun _ ↦ True) (r.apply image bases) (fun _ _ ↦ r.Spans image existing)
      fun _ ↦ True := by
  unfold apply
  rw [hbase]
  refine Triple.bind_lift (fun p hp ↦ Triple.bind_lift (fun target htarget ↦ ?_)
    fun _ _ ↦ trivial) fun _ _ ↦ trivial
  refine Triple.bind (Keeps.triv _) fun old ↦ Triple.bind_lift (fun field hfield ↦ ?_)
    fun _ _ ↦ trivial
  obtain rfl := (Mapping.eq_of_address hp).1
  obtain rfl := Word.eq_of_add64? (Outcome.orFault_eq_ok_iff.mp htarget)
  obtain ⟨written, hwritten, -⟩ := Outcome.bind_eq_ok_iff.mp hfield
  have hspans := spans_of_value? haddend hwritten
  exact (Keeps.triv _).mono (fun _ h ↦ h) (fun _ _ _ ↦ hspans) fun _ h ↦ h

end ReferenceRedirection
end Jumps

namespace PatchRecord

variable {p : PatchRecord} {registry : Registry} {pid : UInt32} {image : Mapping}

/-- The long jumps between a patch and older images that are mapped in a process. -/
def leapsIn (p : PatchRecord) (registry : Registry) (pid : UInt32) (image : Mapping) : List Leap :=
  (p.functions.flatMap fun r ↦
    ((registry.mapping? pid r.existing).toList.flatMap fun existing ↦ r.leaps existing image)) ++
  p.libraryFunctions.flatMap fun r ↦
    (registry.mapping? pid r.existing).toList.map fun existing ↦ r.leap existing image

theorem forall_leapsIn_iff {P : Leap → Prop} : (∀ l ∈ p.leapsIn registry pid image, P l) ↔
    (∀ r ∈ p.functions, ∀ existing, registry.mapping? pid r.existing = some existing →
      ∀ l ∈ r.leaps existing image, P l) ∧
    ∀ r ∈ p.libraryFunctions, ∀ existing, registry.mapping? pid r.existing = some existing →
      P (r.leap existing image) := by
  unfold leapsIn
  simp only [List.forall_mem_append, List.mem_flatMap, List.mem_map, Option.mem_toList]
  constructor
  · rintro ⟨hfunctions, hlibraries⟩
    exact ⟨fun r hr existing hexisting l hl ↦ hfunctions l ⟨r, hr, existing, hexisting, hl⟩,
      fun r hr existing hexisting ↦ hlibraries _ ⟨r, hr, existing, hexisting, rfl⟩⟩
  · rintro ⟨hfunctions, hlibraries⟩
    refine ⟨?_, ?_⟩
    · rintro l ⟨r, hr, existing, hexisting, hl⟩
      exact hfunctions r hr existing hexisting l hl
    · rintro l ⟨r, hr, existing, hexisting, rfl⟩
      exact hlibraries r hr existing hexisting

/-- The jumps of a patch whose writes could be made up span their distance. -/
theorem spans_of_writesIn {log : List (UInt64 × Bytes)}
    (himage : registry.mapping? pid p.token = some image) (h : p.writesIn registry pid = .ok log) :
    ∀ l ∈ p.leapsIn registry pid image, l.Spans := by
  unfold writesIn at h
  rw [himage] at h
  obtain ⟨jumps, hjumps, h⟩ := Outcome.bind_eq_ok_iff.mp h
  obtain ⟨copies, hcopies, -⟩ := Outcome.bind_eq_ok_iff.mp h
  obtain ⟨jumpLogs, hjumps, -⟩ := Outcome.bind_eq_ok_iff.mp hjumps
  obtain ⟨copyLogs, hcopies, -⟩ := Outcome.bind_eq_ok_iff.mp hcopies
  refine forall_leapsIn_iff.mpr ⟨fun r hr existing hexisting ↦ ?_, fun r hr existing hexisting ↦ ?_⟩
  · obtain ⟨log, -, hlog⟩ := Pointwise.exists_right (Outcome.forall₂_of_mapM hjumps) hr
    unfold FunctionRedirection.writesIn at hlog
    rw [hexisting] at hlog
    exact FunctionRedirection.spans_of_writes hlog
  · obtain ⟨log, -, hlog⟩ := Pointwise.exists_right (Outcome.forall₂_of_mapM hcopies) hr
    unfold LibraryRedirection.writesIn at hlog
    rw [hexisting] at hlog
    exact LibraryRedirection.spans_of_writes hlog

end PatchRecord

namespace Staged

variable {pid : UInt32}

/-- The process that is worked on has an identifier. -/
def IsIn (pid : UInt32) (s : Staged) : Prop := s.process.pid = pid

theorem avoids_onTarget {α : Type} {act : TargetM α}
    (h : Avoids Cause.IsTooLong (Target.Is pid) act) :
    Avoids Cause.IsTooLong (IsIn pid) (onTarget act) :=
  ⟨Keeps.of_run fun s hs ↦ h.keeps.run (s := s.process.target) hs,
    fun s hs ↦ h.avoids s.process.target hs⟩

theorem avoids_save (image : Mapping) (rva : UInt32) (len : Nat) :
    Avoids Cause.IsTooLong (IsIn pid) (save image rva len) :=
  (Avoids.lift (image.avoids_address _)).bind fun _ ↦
    (avoids_onTarget (image.avoids_read _ _)).bind fun _ ↦ Avoids.modify fun _ hs ↦ hs

theorem avoids_noteMark (start : UInt64) : Avoids Cause.IsTooLong (IsIn pid) (noteMark start) :=
  Avoids.modify fun s hs ↦ by
    split
    · exact hs
    · exact hs

theorem avoids_mark (start : UInt64) :
    Avoids Cause.IsTooLong (IsIn pid) (onProcess (AttachedProcess.mark start)) :=
  ⟨Keeps.of_run fun _ hs ↦ (AttachedProcess.is_mark start).run hs, fun _ _ ↦ Outcome.Avoids.ok _⟩

end Staged

/-- Whether a thread runs in a span is told unless the span leaves the range of addresses. -/
theorem avoids_isInside (ips : List UInt64) (start : UInt64) (len : Nat) :
    Outcome.Avoids Cause.IsTooLong (isInside ips start len) := by
  unfold isInside
  split
  · exact Outcome.Avoids.ok _
  · exact (Outcome.Avoids.orFault _).bind fun _ _ ↦ Outcome.Avoids.ok _

theorem FunctionRedirection.avoids_overwritten (r : FunctionRedirection) :
    Outcome.Avoids Cause.IsTooLong r.overwritten := by
  unfold overwritten
  dsimp only
  split
  · exact Outcome.Avoids.ok _
  · exact (Outcome.Avoids.orFault _).bind fun _ _ ↦ Outcome.Avoids.ok _

namespace PatchSteps

variable {registry : Registry} {patch : PatchRecord} {pid : UInt32} {image : Mapping}

theorem avoids_isUnsafe (checks : Bool) (ips : List UInt64) (r : FunctionRedirection)
    (start : UInt64) : Outcome.Avoids Cause.IsTooLong (isUnsafe checks ips r start) := by
  unfold isUnsafe
  split
  · have hsafe : Outcome.Avoids Cause.IsTooLong (r.isSafe start ips) :=
      (avoids_isInside _ _ _).bind fun _ _ ↦ Outcome.Avoids.ok _
    exact hsafe.bind fun _ _ ↦ Outcome.Avoids.ok _
  · exact Outcome.Avoids.ok _

/-- Redirecting functions does not stop for distances that the jumps of the patch span. -/
theorem avoids_redirectFunctions (himage : registry.mapping? pid patch.token = some image)
    (h : ∀ l ∈ patch.leapsIn registry pid image, l.Spans) (ips : List UInt64) (checks : Bool) :
    Avoids Cause.IsTooLong (Staged.IsIn pid) (redirectFunctions registry patch ips checks) := by
  obtain ⟨hfunctions, hlibraries⟩ := PatchRecord.forall_leapsIn_iff.mp h
  refine Avoids.bind_get fun s hs ↦ ?_
  rw [show s.process.pid = pid from hs, himage]
  refine Avoids.bind (Avoids.forM fun r hr ↦ Avoids.bind_get fun s hs ↦ ?_) fun _ ↦
    Avoids.forM fun r hr ↦ Avoids.bind_get fun s hs ↦ ?_
  · rw [show s.process.pid = pid from hs]
    cases hexisting : registry.mapping? pid r.existing with
    | none => exact Avoids.pure _
    | some existing =>
      refine (Avoids.lift (existing.avoids_address _)).bind fun start ↦
        (Avoids.lift (avoids_isUnsafe checks ips r start)).bind fun isUnsafe ↦ ?_
      split
      · exact Avoids.pure _
      · exact (Avoids.lift r.avoids_overwritten).bind fun ranges ↦
          (Avoids.forM fun range _ ↦ Staged.avoids_save _ _ _).bind fun _ ↦
          (Staged.avoids_noteMark start).bind fun _ ↦
          (Staged.avoids_onTarget (r.avoids_install (hfunctions r hr existing hexisting))).bind
            fun _ ↦ Staged.avoids_mark start
  · rw [show s.process.pid = pid from hs]
    cases hexisting : registry.mapping? pid r.existing with
    | none => exact Avoids.pure _
    | some existing =>
      exact Staged.avoids_onTarget (r.avoids_install (hlibraries r hr existing hexisting))

end PatchSteps

/-- A mapping lies at the base of its image. -/
theorem Registry.baseOf?_of_mapping? {registry : Registry} {pid : UInt32} {token : Token}
    {m : Mapping} (h : registry.mapping? pid token = some m) :
    baseOf? (registry.bases pid) token = some m.base := by
  obtain ⟨base, hbase, h⟩ := Option.bind_eq_some_iff.mp h
  obtain ⟨image, -, h⟩ := Option.bind_eq_some_iff.mp h
  cases h
  exact hbase

/-- In a process where every image but the module passed the check that loading it makes, redirecting
functions comes to an end only when every jump of the patch spans its distance, and it stops with a
displacement that is too long only when one does not; so does redirecting a relative reference. What
leads to the module or to an older patch on the same side of the module spans its distance. -/
theorem displacements_are_too_long_only_across_module {registry : Registry} {pid : UInt32}
    {patch : PatchRecord} {module image : Mapping}
    (hmodule : registry.mapping? pid .module = some module)
    (himage : registry.mapping? pid patch.token = some image) (htoken : patch.token ≠ .module)
    (hchecked : ∀ token m, token ≠ .module → registry.mapping? pid token = some m →
      m.IsInReach module) :
    (∀ s : Staged, s.process.pid = pid → ∀ ips checks,
      (∀ e, ((PatchSteps.redirectFunctions registry patch ips checks).run s).1
          = .error (.error e) → e.cause.IsTooLong →
        ∃ l ∈ patch.leapsIn registry pid image, ¬ l.Spans) ∧
      (((PatchSteps.redirectFunctions registry patch ips false).run s).1 = .ok () →
        ∀ l ∈ patch.leapsIn registry pid image, l.Spans)) ∧
    (∀ l ∈ patch.leapsIn registry pid image, l.IsInside → module.IsBeside l.source l.target →
      l.Spans) ∧
    ∀ (r : ReferenceRedirection) (existing : Mapping), r.addend = 0 →
      registry.mapping? pid r.target = some existing →
      (∀ t : Target, t.pid = pid →
        (∀ e, ((r.apply image (registry.bases pid)).run t).1 = .error (.error e) →
          e.cause.IsTooLong → ¬ r.Spans image existing) ∧
        (((r.apply image (registry.bases pid)).run t).1 = .ok () → r.Spans image existing)) ∧
      (r.IsInside image existing → module.IsBeside image existing → r.Spans image existing) := by
  have holder : ∀ token m, registry.mapping? pid token = some m → m = module ∨ m.IsInReach module := by
    intro token m hm
    by_cases htoken : token = .module
    · subst htoken
      exact .inl (Option.some.inj (hm.symm.trans hmodule))
    · exact .inr (hchecked token m htoken hm)
  have hreach := hchecked _ image htoken himage
  refine ⟨fun s hs ips checks ↦ ⟨fun e he hlong ↦ ?_, fun hok ↦ ?_⟩, ?_, fun r existing haddend
    hexisting ↦ ⟨fun t ht ↦ ⟨fun e he hlong hspans ↦ ?_, fun hok ↦ ?_⟩, fun hinside hbeside ↦ ?_⟩⟩
  · by_contra hnone
    push Not at hnone
    exact (PatchSteps.avoids_redirectFunctions himage hnone ips checks).avoids s hs e he hlong
  · have hwrites : Writes Staged.sight pid (PatchSteps.redirectFunctions registry patch ips false)
        (patch.writesIn registry pid) :=
      PatchSteps.writes_redirectFunctions fun _ _ _ _ _ _ h ↦ by cases h
    obtain ⟨log, -, hlog, -⟩ := (hwrites s.process.target.memory).ok (Prod.ext hs rfl)
      (Prod.ext hok rfl)
    exact PatchRecord.spans_of_writesIn himage hlog
  · refine PatchRecord.forall_leapsIn_iff.mpr ⟨fun r _ existing hexisting l hl hinside hbeside ↦ ?_,
      fun r _ existing hexisting hinside hbeside ↦ ?_⟩
    · obtain ⟨rva, -, rfl⟩ := List.mem_map.mp hl
      exact hinside.spans (.of_isBeside (holder _ _ hexisting) hreach hbeside)
    · exact hinside.spans (.symm (.of_isBeside (holder _ _ hexisting) hreach hbeside.symm))
  · have hbase := Registry.baseOf?_of_mapping? hexisting
    exact (ReferenceRedirection.avoids_apply haddend hbase hspans).avoids t ht e he hlong
  · have hbase := Registry.baseOf?_of_mapping? hexisting
    exact (ReferenceRedirection.spans_of_apply haddend hbase).ok trivial (Prod.ext hok rfl)
  · exact hinside.spans (.symm (.of_isBeside (holder _ _ hexisting) hreach hbeside.symm))

namespace TwoPatches

/-- A module, a patch far above it and another patch, which the same process has mapped. -/
def registry (base : UInt64) : Registry :=
  ⟨[⟨⟨"/m"⟩, .empty, 0x40, [⟨7, 0x140000000⟩]⟩, ⟨⟨"/m.patch_0"⟩, .empty, 0x40, [⟨7, 0x1bf000000⟩]⟩,
    ⟨⟨"/m.patch_1"⟩, .empty, 0x40, [⟨7, base⟩]⟩]⟩

/-- The module in the process. -/
def module : Mapping := ⟨0x140000000, 0x40⟩

/-- The second patch leads a function of the first one to its own. -/
def patch : PatchRecord := { PatchRecord.bare ⟨"/m.patch_1"⟩ ⟨2⟩ 0x40 none with
  functions := [⟨"f", ⟨1⟩, 0x10, 0x20, .direct 5, []⟩] }

/-- The process, held while the second patch is activated. -/
def staged (base : UInt64) : Staged := .ofProcess {
  target := ((Target.ofPid 7).map 0x1bf000000 (Bytes.fill 0x40 X86.trap)).map base
    (Bytes.fill 0x40 X86.trap)
  agent := .willing
  commandThread := none
  moduleBase := 0x140000000
  redirected := [] }

theorem isInReach_of_mapping {base : UInt64}
    (h : (⟨base, 0x40⟩ : Mapping).IsInReach module) (token : Token) (m : Mapping)
    (htoken : token ≠ .module) (hm : (registry base).mapping? 7 token = some m) :
    m.IsInReach module := by
  match token with
  | ⟨0⟩ => exact (htoken rfl).elim
  | ⟨1⟩ =>
    cases hm
    decide +kernel
  | ⟨2⟩ =>
    cases hm
    exact h
  | ⟨_ + 3⟩ => cases hm

end TwoPatches

open TwoPatches in
/-- A patch above the module leads a function of another patch above the module to itself. -/
theorem displacements_fit_above_module :
    ((PatchSteps.redirectFunctions (registry 0x150000000) patch [] false).run
      (staged 0x150000000)).1 = .ok () ∧
    ∀ l ∈ patch.leapsIn (registry 0x150000000) 7 ⟨0x150000000, 0x40⟩, l.Spans := by
  have hrun : ((PatchSteps.redirectFunctions (registry 0x150000000) patch [] false).run
      (staged 0x150000000)).1 = .ok () := by
    decide +kernel
  have himage : (registry 0x150000000).mapping? 7 patch.token = some ⟨0x150000000, 0x40⟩ := rfl
  have hmodule : (registry 0x150000000).mapping? 7 .module = some module := rfl
  have hall := displacements_are_too_long_only_across_module hmodule himage (by decide)
    (isInReach_of_mapping (by decide +kernel))
  exact ⟨hrun, (hall.1 (staged 0x150000000) rfl [] false).2 hrun⟩

open TwoPatches in
/-- Patches on both sides of the module passed the check of loading, but the newer one cannot lead a
function of the older one to itself. -/
theorem displacements_are_too_long_across_module :
    Mapping.IsInReach ⟨0x1bf000000, 0x40⟩ module ∧ Mapping.IsInReach ⟨0xc2000000, 0x40⟩ module ∧
    ((PatchSteps.redirectFunctions (registry 0xc2000000) patch [] false).run
      (staged 0xc2000000)).1
      = .error (.error
        (Cause.displacementTooLong 0x1bf000015 0xffffffff0300000b 0xc2000020).toError) := by
  decide +kernel

end LivePatch
