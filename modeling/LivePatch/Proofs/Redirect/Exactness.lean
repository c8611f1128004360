import LivePatch.Proofs.Redirect.Fitting

/-!
# Exact fields and jumps

A field or a jump can be written exactly if the number it has to hold can be represented in it. Here
that number is computed without bounds, from addresses as natural numbers and addends as integers,
and reduced modulo 2^64 only at the end. What was written is read back as the destination and the
addend; what cannot be written leaves the field as it was.
-/

namespace LivePatch

namespace Word

/-- A difference of words is the difference of their numbers modulo 2^64. -/
theorem toNat_sub_eq (x y : UInt64) :
    ((x - y).toNat : Int) = ((x.toNat : Int) - y.toNat) % 0x10000000000000000 := by
  have hx := x.toNat_lt
  have hy := y.toNat_lt
  rw [UInt64.toNat_sub]
  omega

/-- A word and an addend are the sum of their numbers modulo 2^64. -/
theorem toNat_add_addend (s : UInt64) (a : Int64) :
    ((s + a.toUInt64).toNat : Int) = ((s.toNat : Int) + a.toInt) % 0x10000000000000000 := by
  have hs := s.toNat_lt
  have ha : a.toUInt64.toNat = a.toBitVec.toNat := congrArg BitVec.toNat (Int64.toBitVec_toUInt64 a)
  have hsigned : a.toInt = a.toBitVec.toInt := rfl
  have hlt := a.toBitVec.isLt
  rw [UInt64.toNat_add, ha, hsigned, BitVec.toInt_eq_toNat_cond]
  split <;> omega

/-- A word read as a signed number is its number, reduced to both sides of zero. -/
theorem signed64_eq_bmod (w : UInt64) : signed64 w = (w.toNat : Int).bmod 0x10000000000000000 := by
  have hw := w.toNat_lt
  unfold signed64
  rw [Int.bmod_def]
  split <;> split <;> omega

end Word

/-- Whether a distance, modulo 2^64 and on both sides of zero, is a signed number of 32 bits. -/
def IsShort (distance : Int) : Prop :=
  -0x80000000 ≤ distance.bmod 0x10000000000000000 ∧ distance.bmod 0x10000000000000000 < 0x80000000

instance (distance : Int) : Decidable (IsShort distance) := inferInstanceAs (Decidable (_ ∧ _))

namespace X86

variable {place target : UInt64} {addend : Int64}

/-- A displacement leads from one address to another exactly if their distance is short. -/
theorem spans_iff_isShort :
    Spans place (target + addend.toUInt64)
      ↔ IsShort ((target.toNat : Int) + addend.toInt - place.toNat) := by
  have hvalue : Word.signed64 (target + addend.toUInt64 - place)
      = ((target.toNat : Int) + addend.toInt - place.toNat).bmod 0x10000000000000000 := by
    rw [Word.signed64_eq_bmod, Word.toNat_sub_eq, Word.toNat_add_addend, Int.emod_sub_emod]
    exact Int.emod_bmod _ _
  unfold Spans fitsSigned32 IsShort
  rw [hvalue, Bool.and_eq_true, decide_eq_true_eq, decide_eq_true_eq]

/-- A jump can be written exactly if the distance from its end is short. -/
theorem exists_encodeJump_iff {source : UInt64}
    (hsource : source.toNat + 5 < 0x10000000000000000) :
    (∃ code, encodeJump source target = .ok code) ↔
      IsShort ((target.toNat : Int) - (source.toNat + 5 : Nat)) := by
  obtain ⟨next, hnext⟩ := Word.exists_toNat_eq hsource
  have hadd : Word.add64? source 5 = some next := Word.add64?_eq_some_iff.mpr hnext
  have hzero : (0 : Int64).toInt = 0 := rfl
  have hspans := @spans_iff_isShort next target 0
  rw [hnext, hzero, Int.add_zero, ← exists_displacement_iff] at hspans
  rw [← hspans]
  simp only [encodeJump, hadd, orFault, bind, Except.bind]
  cases displacement next target 0 with
  | ok rel => exact iff_of_true ⟨_, rfl⟩ ⟨rel, rfl⟩
  | error stop => refine iff_of_false ?_ ?_ <;> rintro ⟨_, h⟩ <;> cases h

/-- Where a jump would end outside the address space, the arithmetic leaves its range. -/
theorem encodeJump_of_overflow {source : UInt64} (h : 0x10000000000000000 ≤ source.toNat + 5) :
    encodeJump source target = .error .fault := by
  have hnone : Word.add64? source 5 = none := if_neg (Nat.not_lt.mpr h)
  unfold encodeJump
  rw [hnone]
  rfl

/-- A displacement that does not fit is refused. -/
theorem displacement_of_not_spans (h : ¬Spans place (target + addend.toUInt64)) :
    ∃ e, displacement place target addend = .error (.error e) :=
  ⟨_, if_neg h⟩

end X86

namespace Field

/-- Whether a field can hold the value for a destination and an addend. -/
def Represents (kind : RelocationKind) (p s : UInt64) (a : Int64) (imageBase : UInt64) : Prop :=
  match kind with
  | .relative extra => IsShort ((s.toNat : Int) + a.toInt - (p.toNat + 4 + extra.toNat : Nat))
  | .narrowVa => ((s.toNat : Int) + a.toInt) % 0x10000000000000000 < 0x100000000
  | .narrowRva =>
    ((s.toNat : Int) + a.toInt - imageBase.toNat) % 0x10000000000000000 < 0x100000000
  | .wideVa => True
  | .sectionRelative | .unknown _ => False

instance (kind : RelocationKind) (p s : UInt64) (a : Int64) (imageBase : UInt64) :
    Decidable (Represents kind p s a imageBase) :=
  match kind with
  | .relative _ => inferInstanceAs (Decidable (IsShort _))
  | .narrowVa | .narrowRva => Int.decLt _ _
  | .wideVa => .isTrue trivial
  | .sectionRelative | .unknown _ => .isFalse id

variable {kind : RelocationKind} {p s imageBase : UInt64} {a : Int64}

/-- The value of a field is found exactly if the field can hold it. Otherwise it is refused. -/
theorem value?_cases (hkind : kind.isPatchable = true)
    (hp : p.toNat + kind.extent < 0x10000000000000000) :
    (Represents kind p s a imageBase ∧ ∃ bytes, value? kind p s a imageBase = .ok (some bytes)) ∨
    (¬Represents kind p s a imageBase ∧ ∃ e, value? kind p s a imageBase = .error (.error e)) := by
  have hnarrow : ∀ w : UInt64, (w.toNat < 0x100000000) ↔ (w.toNat : Int) < 0x100000000 :=
    fun w ↦ by omega
  cases kind <;> dsimp only [Represents, value?]
  case relative extra =>
    obtain ⟨place, hplace, hnat⟩ := placeBehind_eq_ok hp
    rw [Nat.add_assoc, ← hnat, ← X86.spans_iff_isShort]
    simp only [hplace, bind, Except.bind]
    by_cases hspans : X86.Spans place (s + a.toUInt64)
    · obtain ⟨rel, hrel⟩ := X86.exists_displacement_iff.mpr hspans
      rw [hrel]
      exact .inl ⟨hspans, _, rfl⟩
    · obtain ⟨e, he⟩ := X86.displacement_of_not_spans hspans
      rw [he]
      exact .inr ⟨hspans, _, rfl⟩
  case narrowVa =>
    rw [← Word.toNat_add_addend, ← hnarrow]
    split
    · next hlt => exact .inl ⟨hlt, _, rfl⟩
    · next hnot => exact .inr ⟨hnot, _, rfl⟩
  case narrowRva =>
    have hvalue : ((s.toNat : Int) + a.toInt - imageBase.toNat) % 0x10000000000000000
        = (s + a.toUInt64 - imageBase).toNat := by
      rw [Word.toNat_sub_eq, Word.toNat_add_addend]
      omega
    rw [hvalue, ← hnarrow]
    split
    · next hlt => exact .inl ⟨hlt, _, rfl⟩
    · next hnot => exact .inr ⟨hnot, _, rfl⟩
  case wideVa => exact .inl ⟨trivial, _, rfl⟩
  case sectionRelative | unknown => cases hkind

/-- Where the place that a relative field counts from would lie outside the address space, the
arithmetic leaves its range. -/
theorem value?_of_overflow {extra : UInt8}
    (hp : 0x10000000000000000 ≤ p.toNat + (4 + extra.toNat)) :
    value? (.relative extra) p s a imageBase = .error .fault := by
  have hplace : placeBehind p extra = .error .fault := by
    unfold placeBehind
    cases hend : Word.add64? p 4 with
    | none => rfl
    | some fieldEnd =>
      have hend : fieldEnd.toNat = p.toNat + 4 := Word.toNat_of_add64? hend
      have hnone : Word.add64? fieldEnd extra.toUInt64 = none := by
        unfold Word.add64?
        rw [if_neg (by rw [UInt8.toNat_toUInt64]; omega)]
      change orFault _ = _
      rw [hnone]
      rfl
  unfold value?
  simp only [hplace]
  rfl

/-- What a field that can hold its value holds behind a relocation resolves to the destination and
the addend. A field that cannot is refused. -/
theorem relocate_cases (hkind : kind.isPatchable = true)
    (hp : p.toNat + kind.extent < 0x10000000000000000) {field : Bytes}
    (hsize : field.size = kind.size) :
    (Represents kind p s a imageBase ∧ ∃ bytes, relocate kind p s a imageBase field = .ok bytes ∧
      bytes.size = kind.size ∧ resolve? kind p imageBase bytes = some (s + a.toUInt64)) ∨
    (¬Represents kind p s a imageBase ∧
      ∃ e, relocate kind p s a imageBase field = .error (.error e)) := by
  rcases @value?_cases kind p s imageBase a hkind hp with
    ⟨hrepresents, bytes, hvalue⟩ | ⟨hnot, e, hvalue⟩
  · have hfilled := size_of_value? hvalue
    exact .inl ⟨hrepresents, bytes, relocate_of_value? hvalue (hsize.trans hfilled.symm), hfilled,
      resolve?_of_value? hvalue⟩
  · refine .inr ⟨hnot, e, ?_⟩
    unfold relocate
    rw [hvalue]
    rfl

end Field

/-- A redirection whose value is refused leaves the memory alone. -/
theorem ReferenceRedirection.triple_apply_refused {r : ReferenceRedirection} {patch : Mapping}
    {bases : List (Option UInt64)} {m : Memory}
    (hrefused : ∀ base p s, Registry.baseOf? bases r.target = some base →
      patch.address r.patchRva = .ok p → Word.add64? base r.targetRva.toUInt64 = some s →
      ∃ stop, Field.value? r.kind p s r.addend patch.base = .error stop) :
    Triple (fun t : Target ↦ t.memory = m) (r.apply patch bases) (fun _ _ ↦ False)
      fun t ↦ t.memory = m := by
  unfold apply
  cases hbase : Registry.baseOf? bases r.target with
  | none => exact Triple.bind_get fun _ _ ↦ Triple.fail fun _ hs ↦ hs ▸ ‹_›
  | some base =>
    refine Triple.bind_lift (fun p hp ↦ Triple.bind_lift (fun s hs ↦ ?_) fun _ hs ↦ hs) fun _ hs ↦ hs
    obtain ⟨stop, hvalue⟩ := hrefused base p s hbase hp (Outcome.orFault_eq_ok_iff.mp hs)
    have hpass : ∀ c, Keeps (fun t : Target ↦ t.memory = m) (Target.pass c) := fun c ↦
      Keeps.of_run fun t ht ↦ by rw [Target.run_pass]; exact ht
    have hread : Keeps (fun t : Target ↦ t.memory = m) (patch.read r.patchRva r.kind.size) :=
      (Keeps.lift _).bind fun _ ↦ (Keeps.lift _).bind fun _ ↦ Keeps.inContext
        ((hpass _).bind fun _ ↦ Keeps.get.bind fun _ ↦ Keeps.lift _)
    refine Triple.bind hread fun field ↦ Triple.bind_lift (fun bytes hbytes ↦ ?_) fun _ hs ↦ hs
    rw [Field.relocate, hvalue] at hbytes
    cases hbytes

namespace RelocationKind

end RelocationKind

/-- The arithmetic of fields and jumps is exact. A relocation of a field of its kind's size succeeds
exactly if the field can represent the value, and then the field resolves to the destination and the
addend modulo 2^64; otherwise it is refused, and redirecting a field in a process in that way leaves the
memory of the process alone. A long jump can be written exactly if the distance from its end is short,
and then it is five bytes that lead to the target. Only where the place that a distance counts from
lies outside the address space is it neither: the arithmetic leaves its range. -/
theorem relocations_and_jumps_are_exact {kind : RelocationKind} (hkind : kind.isPatchable = true)
    {field : Bytes} (hsize : field.size = kind.size) (p s imageBase : UInt64) (a : Int64)
    (source target : UInt64) :
    (p.toNat + kind.extent < 0x10000000000000000 →
      ((∃ new, Field.relocate kind p s a imageBase field = .ok new) ↔
        Field.Represents kind p s a imageBase) ∧
      (∀ new, Field.relocate kind p s a imageBase field = .ok new → new.size = kind.size ∧
        ∃ word, Field.resolve? kind p imageBase new = some word ∧
          (word.toNat : Int) = ((s.toNat : Int) + a.toInt) % 0x10000000000000000) ∧
      (¬Field.Represents kind p s a imageBase →
        (∃ e, Field.relocate kind p s a imageBase field = .error (.error e)) ∧
        ∀ (r : ReferenceRedirection) (patch : Mapping) (bases : List (Option UInt64)) (base : UInt64)
          (t : Target), r.kind = kind → r.addend = a → patch.base = imageBase →
          Registry.baseOf? bases r.target = some base → patch.address r.patchRva = .ok p →
          Word.add64? base r.targetRva.toUInt64 = some s →
          ∃ stop t', (r.apply patch bases).run t = (.error stop, t') ∧ t'.memory = t.memory)) ∧
    (∀ extra, kind = .relative extra → 0x10000000000000000 ≤ p.toNat + (4 + extra.toNat) →
      Field.relocate kind p s a imageBase field = .error .fault) ∧
    (source.toNat + 5 < 0x10000000000000000 →
      ((∃ code, X86.encodeJump source target = .ok code) ↔
        IsShort ((target.toNat : Int) - (source.toNat + 5 : Nat))) ∧
      ∀ code, X86.encodeJump source target = .ok code → code.size = 5 ∧
        code.u8At? 0 = some X86.longJump ∧ X86.jumpTarget? source code = some target) ∧
    (0x10000000000000000 ≤ source.toNat + 5 → X86.encodeJump source target = .error .fault) := by
  refine ⟨fun hp ↦ ?_, ?_, fun hsource ↦ ⟨X86.exists_encodeJump_iff hsource, fun code hcode ↦
    ⟨X86.size_of_encodeJump hcode, X86.u8At?_encodeJump hcode, X86.jumpTarget?_encodeJump hcode⟩⟩,
    X86.encodeJump_of_overflow⟩
  · rcases Field.relocate_cases hkind hp hsize with
      ⟨hrepresents, bytes, hbytes, hfilled, hresolves⟩ | ⟨hnot, e, herror⟩
    · refine ⟨iff_of_true ⟨bytes, hbytes⟩ hrepresents, fun new hnew ↦ ?_, absurd hrepresents⟩
      cases hbytes.symm.trans hnew
      exact ⟨hfilled, _, hresolves, Word.toNat_add_addend s a⟩
    · have hnone : ∀ new, Field.relocate kind p s a imageBase field ≠ .ok new := by
        rw [herror]
        exact nofun
      refine ⟨iff_of_false (fun ⟨new, hnew⟩ ↦ hnone new hnew) hnot,
        fun new hnew ↦ (hnone new hnew).elim, fun _ ↦ ⟨⟨e, herror⟩, ?_⟩⟩
      rintro r patch bases base t rfl rfl rfl hbase hplace hs
      have hrefused := ReferenceRedirection.triple_apply_refused (m := t.memory)
        fun base' p' s' hbase' hplace' hs' ↦ by
          cases hbase.symm.trans hbase'
          cases hplace.symm.trans hplace'
          cases hs.symm.trans hs'
          rcases Field.value?_cases hkind hp with ⟨hrepresents, -⟩ | ⟨-, e, he⟩
          · exact absurd hrepresents hnot
          · exact ⟨_, he⟩
      cases hrun : (r.apply patch bases).run t with
      | mk result t' =>
        cases result with
        | ok => exact (hrefused.ok rfl hrun).elim
        | error stop => exact ⟨stop, t', rfl, hrefused.error rfl hrun⟩
  · rintro extra rfl hover
    rw [Field.relocate, Field.value?_of_overflow hover]
    rfl

/-- A relative field whose value is two gigabytes is refused, one byte less fits, and so does a jump
back over two gigabytes. -/
theorem fields_and_jumps_around_two_gigabytes_are_exact :
    (RelocationKind.relative 1).isPatchable = true ∧ (#[0, 0, 0, 0] : Bytes).size = 4 ∧
    (¬∃ new, Field.relocate (.relative 1) 0x1000 0x80001006 (-1) 0 #[0, 0, 0, 0] = .ok new) ∧
    (∃ new, Field.relocate (.relative 1) 0x1000 0x80001005 (-1) 0 #[0, 0, 0, 0] = .ok new) ∧
    ∃ code, X86.encodeJump 0x80001000 0x1005 = .ok code := by
  have hexact := fun s source target ↦ relocations_and_jumps_are_exact
    (show (RelocationKind.relative 1).isPatchable = true from rfl)
    (show (#[0, 0, 0, 0] : Bytes).size = (RelocationKind.relative 1).size from rfl)
    0x1000 s 0 (-1) source target
  exact ⟨rfl, rfl, ((hexact _ 0 0).1 (by decide)).1.not.mpr (by decide),
    ((hexact _ 0 0).1 (by decide)).1.mpr (by decide),
    ((hexact 0 _ _).2.2.1 (by decide)).1.mpr (by decide)⟩

end LivePatch
