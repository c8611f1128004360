import LivePatch.Proofs.Redirect.Reach
import LivePatch.Proofs.Redirect.Reference

/-!
# Which redirected references fit their fields

A patch lies in reach of its module, so a relative field of the patch can lead anywhere in it, and a
field of 64 bits can hold any address. The narrow fields cannot: an absolute address may need more
than 32 bits, and an offset from the base of the patch is negative where the patch lies above the
module, which is where room is looked for first. Both still count as fields that can be computed
anew. Applying such a redirection fails and leaves the memory alone.
-/

namespace LivePatch

namespace RelocationKind

/-- Bytes from the start of a field to the place that its value counts from. -/
def extent : RelocationKind → Nat
  | .relative extra => 4 + extra.toNat
  | kind => kind.size

theorem size_le_extent (kind : RelocationKind) : kind.size ≤ kind.extent := by
  cases kind with
  | relative extra => exact Nat.le_add_right 4 _
  | narrowVa | narrowRva | wideVa | sectionRelative | unknown => exact Nat.le_refl _

end RelocationKind

theorem X86.exists_displacement_iff {place target : UInt64} {addend : Int64} :
    (∃ rel, displacement place target addend = .ok rel) ↔
      Spans place (target + addend.toUInt64) := by
  unfold displacement Spans
  dsimp only
  split
  · next hfits => exact iff_of_true ⟨_, rfl⟩ hfits
  · next hnot => exact iff_of_false (fun ⟨_, h⟩ ↦ by cases h) hnot

namespace Field

/-- Whether the value for a target fits into a field of an image. -/
def Fits (kind : RelocationKind) (target imageBase : UInt64) : Prop :=
  match kind with
  | .relative _ | .wideVa => True
  | .narrowVa => target.toNat < 0x100000000
  | .narrowRva => imageBase ≤ target
  | .sectionRelative | .unknown _ => False

instance (kind : RelocationKind) (target imageBase : UInt64) :
    Decidable (Fits kind target imageBase) := by
  unfold Fits
  split <;> infer_instance

variable {kind : RelocationKind} {p s imageBase : UInt64} {a : Int64}

/-- The place that a relative field counts from. -/
theorem placeBehind_eq_ok {extra : UInt8} (h : p.toNat + (4 + extra.toNat) < 0x10000000000000000) :
    ∃ place, placeBehind p extra = .ok place ∧ place.toNat = p.toNat + (4 + extra.toNat) := by
  obtain ⟨fieldEnd, hend⟩ := Word.exists_toNat_eq (show p.toNat + 4 < _ by omega)
  obtain ⟨place, hplace⟩ := Word.exists_toNat_eq h
  have hfour : Word.add64? p 4 = some fieldEnd := Word.add64?_eq_some_iff.mpr hend
  have hextra : Word.add64? fieldEnd extra.toUInt64 = some place :=
    Word.add64?_eq_some_iff.mpr (by rw [UInt8.toNat_toUInt64]; omega)
  refine ⟨place, ?_, hplace⟩
  unfold placeBehind
  rw [hfour]
  exact Outcome.orFault_eq_ok_iff.mpr hextra

/-- An offset from the base of an image to a target in reach of it fits into 32 bits unless the
target lies below the base. -/
theorem offset_fits_iff {target : UInt64} (hup : target.toNat < imageBase.toNat + 0x80000000)
    (hdown : imageBase.toNat ≤ target.toNat + 0x80000000) :
    (target - imageBase).toNat < 0x100000000 ↔ imageBase ≤ target := by
  have htarget := target.toNat_lt
  have himage := imageBase.toNat_lt
  have hdiff : (target - imageBase).toNat
      = (0x10000000000000000 - imageBase.toNat + target.toNat) % 0x10000000000000000 :=
    UInt64.toNat_sub ..
  rw [hdiff, UInt64.le_iff_toNat_le]
  omega

/-- A value can be computed anew if and only if it fits, where the target is less than two gigabytes
away from the field and from the base of its image. -/
theorem exists_value?_iff (hbehind : p.toNat + kind.extent < 0x10000000000000000)
    (hup : (s + a.toUInt64).toNat < imageBase.toNat + 0x80000000) (hbase : imageBase ≤ p)
    (hdown : p.toNat + kind.extent ≤ (s + a.toUInt64).toNat + 0x80000000) :
    (∃ bytes, value? kind p s a imageBase = .ok (some bytes)) ↔
      Fits kind (s + a.toUInt64) imageBase := by
  have hbase := UInt64.le_iff_toNat_le.mp hbase
  unfold value? Fits
  cases kind with
  | relative extra =>
    have hextent : (RelocationKind.relative extra).extent = 4 + extra.toNat := rfl
    obtain ⟨place, hplace, hnat⟩ := placeBehind_eq_ok hbehind
    obtain ⟨rel, hrel⟩ := X86.exists_displacement_iff.mpr
      (X86.spans_of_near (by omega) (by omega) : X86.Spans place (s + a.toUInt64))
    refine iff_of_true ⟨Bytes.ofU32 rel, ?_⟩ trivial
    exact Outcome.bind_eq_ok_iff.mpr ⟨place, hplace, Outcome.bind_eq_ok_iff.mpr ⟨rel, hrel, rfl⟩⟩
  | narrowVa =>
    dsimp only
    split
    · next hlt => exact iff_of_true ⟨_, rfl⟩ hlt
    · next hnot => exact iff_of_false (fun ⟨_, h⟩ ↦ by cases h) hnot
  | narrowRva =>
    rw [← offset_fits_iff hup (by omega)]
    dsimp only
    split
    · next hlt => exact iff_of_true ⟨_, rfl⟩ hlt
    · next hnot => exact iff_of_false (fun ⟨_, h⟩ ↦ by cases h) hnot
  | wideVa => exact iff_of_true ⟨_, rfl⟩ trivial
  | sectionRelative | unknown => exact iff_of_false (fun ⟨_, h⟩ ↦ by cases h) not_false

/-- What does not fit is refused. -/
theorem value?_of_not_fits (hkind : kind.isPatchable = true)
    (hup : (s + a.toUInt64).toNat < imageBase.toNat + 0x80000000)
    (hdown : imageBase.toNat ≤ (s + a.toUInt64).toNat + 0x80000000)
    (hnot : ¬Fits kind (s + a.toUInt64) imageBase) :
    ∃ e, value? kind p s a imageBase = .error (.error e) := by
  cases kind with
  | relative extra => exact (hnot trivial).elim
  | narrowVa => exact ⟨_, if_neg hnot⟩
  | narrowRva => exact ⟨_, if_neg ((offset_fits_iff hup hdown).not.mpr hnot)⟩
  | wideVa => exact (hnot trivial).elim
  | sectionRelative | unknown => cases hkind

theorem relocate_of_value? {old bytes : Bytes}
    (hvalue : value? kind p s a imageBase = .ok (some bytes)) (hsize : old.size = bytes.size) :
    relocate kind p s a imageBase old = .ok bytes := by
  unfold relocate
  rw [hvalue]
  exact if_pos hsize

end Field

/-- Bytes that can be read can be replaced. -/
theorem Memory.exists_write_of_read {m : Memory} {address : UInt64} {len : Nat} {old bytes : Bytes}
    (hread : m.read address len = .ok old) (hsize : bytes.size = len) :
    ∃ m', m.write address bytes = .ok m' := by
  obtain ⟨r, start, hwindow, -⟩ := read_eq_ok_iff.mp hread
  exact ⟨_, write_eq_ok_iff.mpr ⟨r, start, hsize ▸ hwindow, rfl⟩⟩

/-- A process with a certain memory that lets accesses to it pass. -/
structure Target.Serves (m : Memory) (t : Target) : Prop where
  memory : t.memory = m
  passes : ∀ c n, c.name ∈ [.readMemory, .writeMemory, .flushInstructionCache] →
    t.gate.refuses c n = false

theorem Target.triple_pass_serves {m : Memory} {c : Call}
    (hc : c.name ∈ [CallName.readMemory, .writeMemory, .flushInstructionCache]) :
    Triple (Serves m) (pass c) (fun _ ↦ Serves m) fun _ ↦ False := by
  intro t ht
  rw [run_pass, ht.passes c _ hc]
  exact ⟨ht.memory, ht.passes⟩

namespace Mapping

variable {image : Mapping} {rva : UInt32} {m m' : Memory} {address : UInt64}

/-- Mapped bytes of an image can be read. -/
theorem triple_read_serves {len : Nat} {bytes : Bytes} (hin : rva.toNat + len ≤ image.size.toNat)
    (ha : image.address rva = .ok address) (hread : m.read address len = .ok bytes) :
    Triple (Target.Serves m) (image.read rva len)
      (fun read t ↦ read = bytes ∧ Target.Serves m t) fun _ ↦ False := by
  refine Triple.bind_ok (if_pos hin) (Triple.bind_ok ha (Triple.inContext ?_))
  refine (Target.triple_pass_serves (by simp)).bind fun _ ↦ Triple.bind_get fun t ht ↦ ?_
  rw [ht.memory, hread]
  exact Triple.pure fun _ hs ↦ ⟨rfl, hs ▸ ht⟩

/-- Mapped bytes of an image can be replaced. -/
theorem triple_write_serves {bytes : Bytes} (hin : rva.toNat + bytes.size ≤ image.size.toNat)
    (ha : image.address rva = .ok address) (hwrite : m.write address bytes = .ok m') :
    Triple (Target.Serves m) (image.write rva bytes) (fun _ ↦ Target.Serves m') fun _ ↦ False := by
  have hflush : Triple (Target.Serves m') Target.flush (fun _ ↦ Target.Serves m') fun _ ↦ False :=
    (Target.triple_pass_serves (by simp)).bind fun _ ↦
      Triple.modify fun _ hs ↦ ⟨hs.memory, hs.passes⟩
  refine Triple.bind_ok (if_pos hin) (Triple.bind_ok ha ?_)
  refine Triple.bind (Triple.inContext ?_) fun _ ↦ hflush
  refine (Target.triple_pass_serves (by simp)).bind fun _ ↦ Triple.bind_get fun t ht ↦ ?_
  exact Triple.bind_ok (ht.memory ▸ hwrite) (Triple.set fun _ _ ↦ ⟨rfl, ht.passes⟩)

end Mapping

namespace ReferenceRedirection

variable {r : ReferenceRedirection} {patch module : Mapping} {bases : List (Option UInt64)}

/-- Where a redirection leads if the image of its destination lies at a base. -/
def destination (r : ReferenceRedirection) (base : UInt64) : UInt64 :=
  base + r.targetRva.toUInt64 + r.addend.toUInt64

/-- A redirection of a field inside a patch to an address inside a module in reach of it. -/
structure PointsInto (r : ReferenceRedirection) (patch module : Mapping) : Prop where
  reach : patch.IsInReach module
  inside : r.patchRva.toNat + r.kind.extent ≤ patch.size.toNat
  start : module.base.toNat + r.targetRva.toNat < 0x10000000000000000
  above : module.base ≤ r.destination module.base
  below : (r.destination module.base).toNat < module.stop

variable {t : Target} {p s : UInt64} {old bytes : Bytes}

theorem PointsInto.address (h : r.PointsInto patch module) :
    patch.address r.patchRva = .ok (patch.base + r.patchRva.toUInt64) := by
  have hsize := r.kind.size_le_extent
  have hpositive : 0 < r.kind.size := by cases r.kind <;> exact Nat.zero_lt_succ _
  have hinside := h.inside
  have hstop := (Mapping.isInReach_iff.mp h.reach).1
  have hword := UInt32.toNat_toUInt64 r.patchRva
  unfold Mapping.stop at hstop
  unfold Mapping.address
  rw [if_pos (UInt32.lt_iff_toNat_lt.mpr (by omega)), Word.add64?, if_pos (by omega)]
  rfl

/-- The destination is near the field and the base of its image. -/
theorem PointsInto.near (h : r.PointsInto patch module) :
    (patch.base + r.patchRva.toUInt64).toNat + r.kind.extent < 0x10000000000000000 ∧
    (r.destination module.base).toNat < patch.base.toNat + 0x80000000 ∧
    patch.base ≤ patch.base + r.patchRva.toUInt64 ∧
    (patch.base + r.patchRva.toUInt64).toNat + r.kind.extent
      ≤ (r.destination module.base).toNat + 0x80000000 := by
  have hinside := h.inside
  have hreach := Mapping.isInReach_iff.mp h.reach
  have habove := UInt64.le_iff_toNat_le.mp h.above
  have hbelow := h.below
  obtain ⟨hp, -⟩ := Mapping.address_eq_ok h.address
  unfold Mapping.stop at hreach hbelow
  rw [UInt64.le_iff_toNat_le, hp]
  omega

/-- What a redirection reads before it knows the value of its field. -/
theorem run_apply (hbase : Registry.baseOf? bases r.target = some module.base)
    (ha : patch.address r.patchRva = .ok p)
    (hs : Word.add64? module.base r.targetRva.toUInt64 = some s)
    (hinside : r.patchRva.toNat + r.kind.size ≤ patch.size.toNat)
    (hread : t.memory.read p r.kind.size = .ok old) (hserves : t.Serves t.memory) :
    ∃ u : Target, u.Serves t.memory ∧ (r.apply patch bases).run t = (do
      let field ← Field.relocate r.kind p s r.addend patch.base old
      patch.write r.patchRva field : TargetM Unit).run u := by
  obtain ⟨_, u, hrun, rfl, hu⟩ := (Mapping.triple_read_serves hinside ha hread).exists_ok hserves
  refine ⟨u, hu, ?_⟩
  unfold apply
  rw [hbase, ha]
  simp only [hs, orFault, run_bind, run_lift, hrun]

/-- Applying a redirection of a kind that can be computed anew, in a process that serves, makes the
field resolve to the destination if and only if that fits into the field. Otherwise it fails and
leaves the memory alone. -/
theorem patchable_field_resolves_iff_fits (hkind : r.kind.isPatchable = true)
    (hbase : Registry.baseOf? bases r.target = some module.base)
    (hpoints : r.PointsInto patch module) (hserves : t.Serves t.memory)
    (hmapped : ∃ old, t.memory.read (patch.base + r.patchRva.toUInt64) r.kind.size = .ok old) :
    ((∃ t', (r.apply patch bases).run t = (.ok (), t') ∧
        r.ResolvesIn patch module.base t'.memory) ↔
      Field.Fits r.kind (r.destination module.base) patch.base) ∧
    (¬Field.Fits r.kind (r.destination module.base) patch.base →
      ∃ e t', (r.apply patch bases).run t = (.error (.error e), t') ∧ t'.memory = t.memory) := by
  obtain ⟨old, hread⟩ := hmapped
  obtain ⟨s, hs⟩ := Word.exists_toNat_eq hpoints.start
  have hs : Word.add64? module.base r.targetRva.toUInt64 = some s :=
    Word.add64?_eq_some_iff.mpr (hs.trans (by rw [UInt32.toNat_toUInt64]))
  have hdestination : r.destination module.base = s + r.addend.toUInt64 :=
    congrArg (· + _) (Word.eq_of_add64? hs)
  have hsize := r.kind.size_le_extent
  obtain ⟨u, hu, hrun⟩ := run_apply hbase hpoints.address hs
    (Nat.le_trans (Nat.add_le_add_left hsize _) hpoints.inside) hread hserves
  obtain ⟨hbehind, hup, hover, hdown⟩ := hpoints.near
  rw [hrun]
  rw [hdestination] at hup hdown ⊢
  by_cases hfits : Field.Fits r.kind (s + r.addend.toUInt64) patch.base
  · refine ⟨iff_of_true ?_ hfits, fun h ↦ (h hfits).elim⟩
    obtain ⟨bytes, hvalue⟩ := (Field.exists_value?_iff hbehind hup hover hdown).mpr hfits
    have hfilled := Field.size_of_value? hvalue
    obtain ⟨m', hwrite⟩ := Memory.exists_write_of_read hread hfilled
    have hrelocate := Field.relocate_of_value? hvalue
      ((Memory.size_of_read hread).trans hfilled.symm)
    obtain ⟨_, t', hwritten, hm'⟩ := (Mapping.triple_write_serves
      (hfilled ▸ Nat.le_trans (Nat.add_le_add_left hsize _) hpoints.inside) hpoints.address
      hwrite).exists_ok hu
    refine ⟨t', ?_, _, bytes, hpoints.address, ?_, ?_⟩
    · rw [run_bind, run_lift, hrelocate]
      exact hwritten
    · rw [hm'.memory, Memory.read_of_write hwrite (Nat.le_of_eq hfilled.symm), ← hfilled,
        Array.extract_size]
    · rw [Field.resolve?_of_value? hvalue, ← hdestination]
      rfl
  · have hover := UInt64.le_iff_toNat_le.mp hover
    obtain ⟨e, hvalue⟩ := Field.value?_of_not_fits (p := patch.base + r.patchRva.toUInt64)
      hkind hup (by omega) hfits
    have hstops : (do
        let field ← Field.relocate r.kind (patch.base + r.patchRva.toUInt64) s r.addend patch.base old
        patch.write r.patchRva field : TargetM Unit).run u = (.error (.error e), u) := by
      rw [run_bind, run_lift, Field.relocate, hvalue]
      rfl
    rw [hstops]
    refine ⟨iff_of_false ?_ hfits, fun _ ↦ ⟨e, u, rfl, hu.memory⟩⟩
    rintro ⟨t', h, -⟩
    cases h

end ReferenceRedirection

namespace ReferenceRedirection.Above

/-- A module. -/
def module : Mapping := ⟨0x140000000, 0x3000⟩

/-- A patch above it. -/
def patch : Mapping := ⟨0x140010000, 0x20⟩

/-- The process they are mapped into. -/
def process : Target := (Target.ofPid 1).map patch.base (Array.replicate 0x20 0)

/-- A redirection of a field of the patch to a function of the module. -/
def redirection (kind : RelocationKind) : ReferenceRedirection :=
  ⟨kind, 0x10, .module, 0x1000, 0⟩

/-- A relative field of a patch above its module is made to lead into it. -/
theorem relative_field_above_module_resolves :
    (redirection (.relative 0)).kind.isPatchable = true ∧
    (redirection (.relative 0)).PointsInto patch module ∧ process.Serves process.memory ∧
    ∃ t', ((redirection (.relative 0)).apply patch [some module.base]).run process = (.ok (), t') ∧
      (redirection (.relative 0)).ResolvesIn patch module.base t'.memory := by
  have hpoints : (redirection (.relative 0)).PointsInto patch module :=
    ⟨by decide, by decide, by decide, by decide, by decide⟩
  have hserves : process.Serves process.memory := ⟨rfl, fun _ _ _ ↦ rfl⟩
  exact ⟨rfl, hpoints, hserves, (patchable_field_resolves_iff_fits rfl rfl hpoints hserves
    ⟨Array.replicate 4 0, by decide +kernel⟩).1.mpr trivial⟩

/-- The offset of a function of the module from the base of a patch above it is negative. A field
for it counts as one that can be computed anew, but applying the redirection fails. -/
theorem offset_field_above_module_is_refused :
    (redirection .narrowRva).kind.isPatchable = true ∧
    (redirection .narrowRva).PointsInto patch module ∧ process.Serves process.memory ∧
    (((redirection .narrowRva).apply patch [some module.base]).run process).1
      = .error (.error (Cause.offsetTooWide 0x140001000 0x140010010).toError) :=
  ⟨rfl, ⟨by decide, by decide, by decide, by decide, by decide⟩, ⟨rfl, fun _ _ _ ↦ rfl⟩,
    by decide +kernel⟩

end ReferenceRedirection.Above
end LivePatch
