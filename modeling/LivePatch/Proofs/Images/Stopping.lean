import LivePatch.Proofs.Images.Twice

/-!
# Rebasing that stops short

The addresses of an image are moved one after another, and nothing is put back when one of them is not
found. So an image that could not be rebased is what it was only if no address was changed before the
first one that is missing; and an address that lies behind the end of the file is no error but a fault.
-/

namespace LivePatch

namespace ImageFormat

/-- Bytes that a field takes. -/
def Fixup.size (f : Fixup) : Nat := if f.isWide then 8 else 4

theorem Fixup.size_le (f : Fixup) : f.size ≤ 8 := by
  unfold size
  split <;> decide

/-- No field ends outside the range of addresses in a file. -/
theorem Fixup.ends_below (f : Fixup) : f.rva.toNat + f.size < 0x10000000000000000 := by
  have hrva := f.rva.toNat_lt
  have hsize := f.size_le
  omega

theorem entryFixups_ne_fault (page : UInt32) (entries : List UInt16) :
    entryFixups page entries ≠ .error .fault := by
  induction entries with
  | nil => exact fun h ↦ by cases h
  | cons entry entries ih =>
    unfold entryFixups
    dsimp only
    split
    · exact ih
    · split
      · exact Outcome.bind_ne_fault ih fun _ _ h ↦ by cases h
      · split
        · exact Outcome.bind_ne_fault ih fun _ _ h ↦ by cases h
        · exact fun h ↦ by cases h

theorem blockFixups_ne_fault (fuel : Nat) (b : Bytes) : blockFixups fuel b ≠ .error .fault := by
  induction fuel generalizing b with
  | zero => exact fun h ↦ by cases h
  | succ fuel ih =>
    unfold blockFixups
    split
    · exact fun h ↦ by cases h
    · split
      · split
        · exact fun h ↦ by cases h
        · exact Outcome.bind_ne_fault (entryFixups_ne_fault _ _) fun _ _ ↦
            Outcome.bind_ne_fault (ih _) fun _ _ h ↦ by cases h
      · exact fun h ↦ by cases h

/-- Base relocations that cannot be read are an error. -/
theorem Headers.fixups_ne_fault (h : Headers) (data : Bytes) : h.fixups data ≠ .error .fault := by
  have hrelocations : h.relocations? data ≠ .error .fault := by
    unfold relocations?
    split
    · exact fun h ↦ by cases h
    · split
      · exact fun h ↦ by cases h
      · split <;> exact fun h ↦ by cases h
  refine Outcome.bind_ne_fault hrelocations fun r _ ↦ ?_
  cases r with
  | none => exact fun h ↦ by cases h
  | some b => exact blockFixups_ne_fault _ _

end ImageFormat

namespace Image

open ImageFormat Bytes

variable {i j k : Image} {h : Headers} {f : Fixup} {delta base : UInt64} {stop : Stop}

/-- A base relocation that is not applied changes nothing: its field is not in the file, or only where
the file has ended. -/
theorem run_applyFixup_eq_error_iff : (applyFixup delta f).run i = (.error stop, j) ↔ j = i ∧
    (i.fileOffset f.rva f.size = .error stop ∨ stop = .fault ∧ ∃ offset,
      i.fileOffset f.rva f.size = .ok offset ∧ i.data.size < offset + f.size) := by
  unfold applyFixup
  rw [run_bind, run_get]
  simp only [run_bind_lift_eq_error_iff, Outcome.orFault_eq_error_iff, slice?_eq_none_iff]
  constructor
  · rintro (⟨hoffset, rfl⟩ | ⟨offset, hoffset, ⟨⟨hslice, rfl⟩, rfl⟩ | ⟨field, -, hrun⟩⟩)
    · exact ⟨rfl, Or.inl hoffset⟩
    · exact ⟨rfl, Or.inr ⟨rfl, offset, hoffset, hslice⟩⟩
    · cases hrun
  · rintro ⟨rfl, hoffset | ⟨rfl, offset, hoffset, hslice⟩⟩
    · exact Or.inl ⟨hoffset, rfl⟩
    · exact Or.inr ⟨offset, hoffset, Or.inl ⟨⟨hslice, rfl⟩, rfl⟩⟩

/-- Rebasing an image comes to a field when the addresses listed before it were moved. -/
def ComesTo (i : Image) (h : Headers) (base : UInt64) (f : Fixup) (k : Image) : Prop :=
  h.base ≠ base ∧ ∃ before after, h.fixups i.data = .ok (before ++ f :: after) ∧
    (before.forM (applyFixup (base - h.base))).run i = (.ok (), k)

/-- Rebasing stops short when the base relocations cannot be read, with the image as it was, or at the
first field that is not found, with the image as it is then. -/
theorem run_rebase_eq_error_iff (hi : i.headers = .ok h) :
    (rebase base).run i = (.error stop, j) ↔
      (h.base ≠ base ∧ h.fixups i.data = .error stop ∧ j = i) ∨
      ∃ f, i.ComesTo h base f j ∧ (j.fileOffset f.rva f.size = .error stop ∨ stop = .fault ∧
        ∃ offset, j.fileOffset f.rva f.size = .ok offset ∧ j.data.size < offset + f.size) := by
  unfold rebase
  rw [run_bind, run_get]
  dsimp only
  rw [run_bind, run_lift, hi]
  dsimp only
  split
  · next hbase =>
    constructor
    · intro hrun
      cases hrun
    · rintro (⟨hne, -⟩ | ⟨f, ⟨hne, -⟩, -⟩) <;> exact (hne hbase).elim
  · next hne =>
    rw [run_bind_lift_eq_error_iff]
    constructor
    · rintro (⟨hfixups, rfl⟩ | ⟨fixups, hfixups, hrun⟩)
      · exact Or.inl ⟨hne, hfixups, rfl⟩
      · rcases run_bind_eq_error_iff.mp hrun with hrun | ⟨_, k, -, hrun⟩
        · obtain ⟨before, f, after, k, rfl, hbefore, hf⟩ := run_forM_eq_error_iff.mp hrun
          obtain ⟨rfl, hmissing⟩ := run_applyFixup_eq_error_iff.mp hf
          exact Or.inr ⟨f, ⟨hne, before, after, hfixups, hbefore⟩, hmissing⟩
        · cases hrun
    · rintro (⟨-, hfixups, rfl⟩ | ⟨f, ⟨-, before, after, hfixups, hbefore⟩, hmissing⟩)
      · exact Or.inl ⟨hfixups, rfl⟩
      · exact Or.inr ⟨_, hfixups, run_bind_eq_error_iff.mpr (Or.inl (run_forM_eq_error_iff.mpr
          ⟨before, f, after, j, rfl, hbefore, run_applyFixup_eq_error_iff.mpr ⟨rfl, hmissing⟩⟩))⟩

/-- Rebasing the image to a base comes to an image or to an error, and in the second case it leaves the
image as it was. -/
structure FailsCleanly (i : Image) (base : UInt64) : Prop where
  answers : ((rebase base).run i).1 ≠ .error .fault
  stays : ∀ e j, (rebase base).run i = (.error (.error e), j) → j = i

/-- An image can be rebased or left alone exactly when every field that rebasing comes to ends where the
file does or before, and no address was changed when one is not found. -/
theorem failsCleanly_iff (hi : i.headers = .ok h) :
    i.FailsCleanly base ↔ ∀ f k, i.ComesTo h base f k →
      (∀ offset, k.fileOffset f.rva f.size = .ok offset → offset + f.size ≤ k.data.size) ∧
      ∀ stop, k.fileOffset f.rva f.size = .error stop → k = i := by
  constructor
  · rintro ⟨hanswers, hstays⟩ f k hf
    refine ⟨fun offset hoffset ↦ ?_, fun stop hstop ↦ ?_⟩
    · by_contra hout
      have hrun : (rebase base).run i = (.error .fault, k) :=
        (run_rebase_eq_error_iff hi).mpr
          (Or.inr ⟨f, hf, Or.inr ⟨rfl, offset, hoffset, Nat.lt_of_not_le hout⟩⟩)
      exact hanswers (congrArg Prod.fst hrun)
    · rcases stop with e | _
      · exact hstays e k ((run_rebase_eq_error_iff hi).mpr (Or.inr ⟨f, hf, Or.inl hstop⟩))
      · exact (fileOffset_ne_fault f.ends_below hstop).elim
  · intro hfields
    refine ⟨fun hfault ↦ ?_, fun e j hrun ↦ ?_⟩
    · rcases (run_rebase_eq_error_iff hi).mp (run_eq_of_result hfault) with
        ⟨-, hfixups, -⟩ | ⟨f, hf, hoffset | ⟨-, offset, hoffset, hout⟩⟩
      · exact h.fixups_ne_fault _ hfixups
      · exact fileOffset_ne_fault f.ends_below hoffset
      · exact Nat.not_le_of_lt hout ((hfields f _ hf).1 offset hoffset)
    · rcases (run_rebase_eq_error_iff hi).mp hrun with
        ⟨-, -, rfl⟩ | ⟨f, hf, hoffset | ⟨hfault, -⟩⟩
      · rfl
      · exact (hfields f j hf).2 _ hoffset
      · cases hfault

section Separate

variable (hi : i.headers = .ok h) (hclear : h.start ≤ 4 ∨ 16 ≤ h.start)
  (haddresses : i.HasSeparateAddresses h)

include hi hclear haddresses

/-- Where rebasing comes to when no address lies in the headers. -/
theorem HasSeparateAddresses.comesTo_iff : i.ComesTo h base f k ↔ h.base ≠ base ∧
    ∃ before after ps, h.fixups i.data = .ok (before ++ f :: after) ∧
      List.Forall₂ i.IsAt before ps ∧
      k = { i with data := Pointer.moveAll (base - h.base) ps i.data } := by
  have hmoves : ∀ before after, h.fixups i.data = .ok (before ++ f :: after) →
      ((before.forM (applyFixup (base - h.base))).run i = (.ok (), k) ↔
        ∃ ps, List.Forall₂ i.IsAt before ps ∧
          k = { i with data := Pointer.moveAll (base - h.base) ps i.data }) := fun before after hfixups ↦
    run_applyFixups_eq_ok_iff hi hclear
      (fun g hg ↦ haddresses.headers _ hfixups g (List.mem_append_left _ hg)) (.refl h i)
  constructor
  · rintro ⟨hne, before, after, hfixups, hrun⟩
    obtain ⟨ps, hps, rfl⟩ := (hmoves before after hfixups).mp hrun
    exact ⟨hne, before, after, ps, hfixups, hps, rfl⟩
  · rintro ⟨hne, before, after, ps, hfixups, hps, rfl⟩
    exact ⟨hne, before, after, hfixups, (hmoves before after hfixups).mpr ⟨ps, hps, rfl⟩⟩

/-- An image whose addresses lie apart can be rebased or left alone exactly when every field up to the
first one that is not found ends where the file does or before, and none of the distance fits in those
that are found before it. -/
theorem HasSeparateAddresses.failsCleanly_iff : i.FailsCleanly base ↔ h.base = base ∨
    ∀ (before : List Fixup) (f : Fixup) (after : List Fixup),
      h.fixups i.data = .ok (before ++ f :: after) → (∀ g ∈ before, ∃ p, i.IsAt g p) →
        (∀ offset, i.fileOffset f.rva f.size = .ok offset → offset + f.size ≤ i.data.size) ∧
        ∀ stop, i.fileOffset f.rva f.size = .error stop →
          ∀ g ∈ before, (base - h.base).toNat % 256 ^ g.size = 0 := by
  rw [Image.failsCleanly_iff hi]
  -- what is known of the image that rebasing comes to a field with
  have hreached : ∀ {before f after ps}, h.fixups i.data = .ok (before ++ f :: after) →
      List.Forall₂ i.IsAt before ps →
      (∀ rva len, fileOffset { i with data := Pointer.moveAll (base - h.base) ps i.data } rva len
        = i.fileOffset rva len) ∧
      (Pointer.moveAll (base - h.base) ps i.data).size = i.data.size ∧
      (Image.mk i.path (Pointer.moveAll (base - h.base) ps i.data) = i ↔
        ∀ g ∈ before, (base - h.base).toNat % 256 ^ g.size = 0) := by
    intro before f after ps hfixups hps
    have hsep := haddresses.areSeparate hfixups (List.sublist_append_left ..) hps
    have hshares : SharesTables h i
        { i with data := Pointer.moveAll (base - h.base) ps i.data } :=
      (SharesTables.refl h i).moveAll fun p hp ↦ ⟨hsep.inside p hp, hsep.spares p hp⟩
    refine ⟨fun rva len ↦ hshares.fileOffset_eq hi hclear rva len, hshares.size, ?_⟩
    rw [← Pointwise.forall_iff hps fun g p hg ↦ by rw [Fixup.size, ← hg.isWide, ← Pointer.size],
      ← Pointer.moveAll_eq_self_iff hsep.inside hsep.apart]
    exact ⟨congrArg Image.data, fun hdata ↦ by rw [hdata]⟩
  constructor
  · intro hfields
    by_cases hne : h.base = base
    · exact Or.inl hne
    · refine Or.inr fun before f after hfixups hfound ↦ ?_
      obtain ⟨ps, hps⟩ := Pointwise.exists_of_forall hfound
      obtain ⟨hoffset, hsize, hsame⟩ := hreached hfixups hps
      obtain ⟨hin, hstop⟩ := hfields f _ ((haddresses.comesTo_iff hi hclear).mpr
        ⟨hne, before, after, ps, hfixups, hps, rfl⟩)
      exact ⟨fun offset h ↦ hsize ▸ hin offset ((hoffset _ _).trans h),
        fun stop h ↦ hsame.mp (hstop stop ((hoffset _ _).trans h))⟩
  · rintro hfields f k hf
    obtain ⟨hne, before, after, ps, hfixups, hps, rfl⟩ := (haddresses.comesTo_iff hi hclear).mp hf
    obtain ⟨hoffset, hsize, hsame⟩ := hreached hfixups hps
    obtain ⟨hin, hstop⟩ := (hfields.resolve_left hne) before f after hfixups fun g hg ↦
      (Pointwise.exists_right hps hg).imp fun _ hp ↦ hp.2
    exact ⟨fun offset h ↦ hsize.symm ▸ hin offset ((hoffset _ _).symm.trans h),
      fun stop h ↦ hsame.mpr (hstop stop ((hoffset _ _).symm.trans h))⟩

end Separate

/-- An image can be rebased or left alone exactly when every field that rebasing comes to ends where the
file does or before, and no address was changed when one is not found. For addresses that lie apart
these are the fields up to the first one that is not found, and none of the distance may fit in those
that are found before it. -/
theorem failing_rebase_changes_nothing_iff (hi : i.headers = .ok h) :
    (i.FailsCleanly base ↔ ∀ f k, i.ComesTo h base f k →
      (∀ offset, k.fileOffset f.rva f.size = .ok offset → offset + f.size ≤ k.data.size) ∧
      ∀ stop, k.fileOffset f.rva f.size = .error stop → k = i) ∧
    ((h.start ≤ 4 ∨ 16 ≤ h.start) → i.HasSeparateAddresses h →
      (i.FailsCleanly base ↔ h.base = base ∨
        ∀ before f after, h.fixups i.data = .ok (before ++ f :: after) →
          (∀ g ∈ before, ∃ p, i.IsAt g p) →
            (∀ offset, i.fileOffset f.rva f.size = .ok offset → offset + f.size ≤ i.data.size) ∧
            ∀ stop, i.fileOffset f.rva f.size = .error stop →
              ∀ g ∈ before, (base - h.base).toNat % 256 ^ g.size = 0)) :=
  ⟨failsCleanly_iff hi, fun hclear haddresses ↦ haddresses.failsCleanly_iff hi hclear⟩

namespace StrayAddress

/-- Where an address lies: in the file, in no section, or in a section that the file has ended before. -/
inductive Place where
  | here
  | nowhere
  | behindEnd

namespace Place

/-- The address as it is listed, on the page of the base relocations. -/
def entry : Place → List UInt8
  | here => [0x0c, 0xa0]
  | nowhere => [0x80, 0xa0]
  | behindEnd => [0x00, 0xa1]

/-- The field that is listed. -/
def fixup : Place → Fixup
  | here => ⟨0x100c, true⟩
  | nowhere => ⟨0x1080, true⟩
  | behindEnd => ⟨0x1100, true⟩

/-- Where the address lies that is listed behind this one. -/
def other : Place → Place
  | here => nowhere
  | nowhere | behindEnd => here

end Place

variable {first : Place}

/-- What stands before the base relocations. -/
def front : List UInt8 :=
  List.flatten [[0x4d, 0x5a, 0, 0, 0x50, 0x45, 0, 0, 0, 0, 2, 0], List.replicate 12 0,
    [160, 0, 0, 0, 0x0b, 0x02], List.replicate 22 0, [0, 0, 0, 0x40, 1, 0, 0, 0, 4, 0, 0, 0],
    List.replicate 20 0, [0, 0x20, 0, 0, 12, 1, 0, 0], List.replicate 44 0, [6, 0, 0, 0],
    List.replicate 40 0, [0, 0x10, 0, 0, 12, 0, 0, 0],
    [0x2e, 0x74, 0x65, 0x78, 0x74, 0, 0, 0], [20, 0, 0, 0, 0, 0x10, 0, 0, 20, 0, 0, 0, 12, 1, 0, 0],
    List.replicate 16 0,
    [0x2e, 0x70, 0x61, 0x73, 0x74, 0, 0, 0], [8, 0, 0, 0, 0, 0x11, 0, 0, 8, 0, 0, 0, 0, 0x10, 0, 0],
    List.replicate 16 0]

/-- An image that lists two addresses and has room for one. -/
def image (first : Place) : Image :=
  ⟨⟨"/m"⟩, List.toArray (List.flatten [front, [0, 0x10, 0, 0, 12, 0, 0, 0], first.entry,
    first.other.entry, List.replicate 8 0])⟩

/-- The headers of the image. -/
def headers : Headers where
  start := 4
  symbolPointer := 0
  symbolCount := 0
  entryPoint := 0
  base := 0x140000000
  imageSize := 0x2000
  headersSize := 268
  directories := List.replicate 5 ⟨0, 0⟩ ++ [⟨0x1000, 12⟩]
  sections := [⟨[0x2e, 0x74, 0x65, 0x78, 0x74, 0, 0, 0], 20, 0x1000, 20, 268, 0, 0, 0⟩,
    ⟨[0x2e, 0x70, 0x61, 0x73, 0x74, 0, 0, 0], 8, 0x1100, 8, 0x1000, 0, 0, 0⟩]

/-- What the headers are, and which places in the file they name. -/
class Evaluation (first : Place) : Prop where
  headers : (image first).headers = .ok headers
  layout : (image first).data.size = 288 ∧
    StrayAddress.headers.fixups (image first).data = .ok [first.fixup, first.other.fixup] ∧
    StrayAddress.headers.tablesEnd (image first).data ≤ 280
  window : StrayAddress.headers.relocationWindow? 288 = some ⟨268, 12⟩

instance evaluation (first : Place) : Evaluation first where
  headers := by
    refine headers_eq_ok_iff.mpr (Headers.read?_eq_some_iff.mpr ⟨160, 6, 2, ?_⟩)
    cases first <;> constructor <;> decide +kernel
  layout := by cases first <;> decide +kernel
  window := by decide +kernel

/-- Where the fields lie. -/
theorem fileOffset_image : (image first).fileOffset 0x100c 8 = .ok 280 ∧
    (image first).fileOffset 0x1080 8 = .error (.error (Cause.notInFile 0x1080 ⟨"/m"⟩).toError) ∧
    (image first).fileOffset 0x1100 8 = .ok 0x1000 := by
  unfold fileOffset
  rw [(evaluation _).headers]
  exact ⟨rfl, rfl, rfl⟩

/-- The place of the one address that is there. -/
def pointer : Pointer := ⟨280, true⟩

/-- Only one field is found in the file. -/
theorem eq_pointer_of_isAt {place : Place} {p : Pointer} (hp : (image first).IsAt place.fixup p) :
    place = .here ∧ p = pointer := by
  obtain ⟨offset, isWide⟩ := p
  obtain ⟨hwide, hoffset, hinside⟩ := hp
  obtain ⟨hhere, hnowhere, hbehind⟩ := @fileOffset_image first
  cases place <;> cases hwide
  · cases hhere.symm.trans hoffset
    exact ⟨rfl, rfl⟩
  · cases hnowhere.symm.trans hoffset
  · cases hbehind.symm.trans hoffset
    rw [(evaluation _).layout.1] at hinside
    exact absurd hinside (by decide)

theorem isAt_pointer : (image first).IsAt Place.here.fixup pointer :=
  ⟨rfl, fileOffset_image.1, by rw [(evaluation _).layout.1]; decide⟩

theorem hasSeparateAddresses_image : (image first).HasSeparateAddresses headers := by
  have hplaces : ∀ fixups, headers.fixups (image first).data = .ok fixups →
      fixups = [first.fixup, first.other.fixup] := fun fixups hfixups ↦
    Except.ok.inj (hfixups.symm.trans (evaluation _).layout.2.1)
  have hpointer : ∀ fixups, headers.fixups (image first).data = .ok fixups → ∀ f ∈ fixups, ∀ p,
      (image first).IsAt f p → p = pointer := by
    intro fixups hfixups f hf p hp
    rw [hplaces fixups hfixups] at hf
    rcases List.mem_pair.mp hf with rfl | rfl <;> exact (eq_pointer_of_isAt hp).2
  refine ⟨fun fixups hfixups ↦ ?_, fun fixups hfixups f hf p hp ↦ ?_,
    fun fixups hfixups f hf p hp w hw ↦ ?_⟩
  · rw [hplaces fixups hfixups]
    refine List.pairwise_pair.mpr fun p q hp hq ↦ ?_
    have hfirst := (eq_pointer_of_isAt hp).1
    have hother := (eq_pointer_of_isAt hq).1
    subst hfirst
    cases hother
  · rw [hpointer fixups hfixups f hf p hp]
    refine Headers.spares_of_le (headers_eq_ok_iff.mp (evaluation _).headers) (evaluation _).layout.2.2
  · rw [hpointer fixups hfixups f hf p hp]
    rw [(evaluation _).layout.1] at hw
    cases (evaluation first).window.symm.trans hw
    decide

/-- An image whose first address is in no section is left alone. -/
theorem failing_rebase_leaves_stray_address :
    (image .nowhere).headers = .ok headers ∧ (image .nowhere).HasSeparateAddresses headers ∧
      (image .nowhere).FailsCleanly 0x150000000 := by
  refine ⟨(evaluation _).headers, hasSeparateAddresses_image,
    ((failing_rebase_changes_nothing_iff (evaluation _).headers).2 (Or.inl (Nat.le_refl 4))
      hasSeparateAddresses_image).mpr (Or.inr fun before f after hfixups hfound ↦ ?_)⟩
  have hsplit := Except.ok.inj (hfixups.symm.trans (evaluation _).layout.2.1)
  rcases before with _ | ⟨g, before⟩
  · cases hsplit
    refine ⟨fun offset hoffset ↦ ?_, fun _ _ g hg ↦ by cases hg⟩
    cases fileOffset_image.2.1.symm.trans hoffset
  · obtain ⟨rfl, -⟩ := List.cons.inj hsplit
    obtain ⟨p, hp⟩ := hfound _ List.mem_cons_self
    cases (eq_pointer_of_isAt hp).1

/-- The file of the image whose first address is there, with that address moved. -/
def halfway : Image :=
  { image .here with data := pointer.move 0x10000000 (image .here).data }

theorem comesTo_first : (image first).ComesTo headers 0x150000000 first.fixup (image first) :=
  ⟨by decide, [], [first.other.fixup], (evaluation _).layout.2.1, rfl⟩

theorem comesTo_stray : (image .here).ComesTo headers 0x150000000 Place.nowhere.fixup halfway :=
  ⟨by decide, [Place.here.fixup], [], (evaluation _).layout.2.1, run_bind_eq_ok_iff.mpr
    ⟨(), halfway, run_applyFixup_eq_ok_iff.mpr ⟨pointer, isAt_pointer, rfl⟩, rfl⟩⟩

/-- Rebasing can fail with an address changed, and can fault at an address behind the end of the file. -/
theorem failing_rebase_changes_address :
    ((image .here).headers = .ok headers ∧
      (rebase 0x150000000).run (image .here)
        = (.error (.error (Cause.notInFile 0x1080 ⟨"/m"⟩).toError), halfway) ∧
      halfway ≠ image .here) ∧
    (image .behindEnd).headers = .ok headers ∧
      (rebase 0x150000000).run (image .behindEnd) = (.error .fault, image .behindEnd) := by
  have hinside : pointer.offset + pointer.size ≤ (image .here).data.size := isAt_pointer.inside
  have hspares : headers.Spares (image .here).data pointer.window :=
    hasSeparateAddresses_image.headers [Place.here.fixup, Place.nowhere.fixup] (evaluation _).layout.2.1
      Place.here.fixup List.mem_cons_self pointer isAt_pointer
  have hshares : SharesTables headers (image .here) halfway :=
    (SharesTables.refl headers (image .here)).move hinside hspares
  have hstray : halfway.fileOffset Place.nowhere.fixup.rva Place.nowhere.fixup.size
      = .error (.error (Cause.notInFile 0x1080 ⟨"/m"⟩).toError) :=
    (hshares.fileOffset_eq (evaluation _).headers (Or.inl (Nat.le_refl 4)) _ _).trans fileOffset_image.2.1
  have hbehind : (image .behindEnd).data.size < 0x1000 + Place.behindEnd.fixup.size := by
    rw [(evaluation _).layout.1]
    decide
  refine ⟨⟨(evaluation _).headers, (run_rebase_eq_error_iff (evaluation _).headers).mpr
    (Or.inr ⟨_, comesTo_stray, Or.inl hstray⟩), fun heq ↦ ?_⟩, (evaluation _).headers,
    (run_rebase_eq_error_iff (evaluation _).headers).mpr (Or.inr ⟨Place.behindEnd.fixup, comesTo_first,
      Or.inr ⟨rfl, 0x1000, fileOffset_image.2.2, hbehind⟩⟩)⟩
  have hdata : halfway.data = (image .here).data := congrArg Image.data heq
  rw [halfway] at hdata
  exact absurd ((Pointer.move_eq_self_iff hinside 0x10000000).mp hdata) (by decide)

end StrayAddress

end Image
end LivePatch
