import LivePatch.Proofs.Images.Headers
import LivePatch.Proofs.Images.Layout
import LivePatch.Proofs.Images.Moving
import LivePatch.Proofs.Relocation.Field
import LivePatch.Proofs.Triple

/-!
# Rebasing an image

An image is rebased by moving the addresses that its base relocations list, one after another, and
writing the new base at last. When the fields lie apart from the tables of the image, what the headers
say does not change on the way, so all fields are found where they were in the image as it was.
-/

namespace LivePatch

open ImageFormat

namespace Image

open Bytes

variable {i j k : Image} {h h' : Headers} {f : Fixup} {p : Pointer} {delta : UInt64}

theorem headers_eq_ok_iff : i.headers = .ok h ↔ Headers.read? .wide i.data = some h :=
  Outcome.orFail_eq_ok_iff

/-- Where bytes lie in the file depends on the sections and the size of the headers. -/
theorem fileOffset_congr (hi : i.headers = .ok h) (hj : j.headers = .ok h') (hpath : j.path = i.path)
    (hsize : h'.headersSize = h.headersSize) (hsections : h'.sections = h.sections) (rva : UInt32)
    (len : Nat) : j.fileOffset rva len = i.fileOffset rva len := by
  unfold fileOffset Headers.range?
  rw [hi, hj, hpath]
  simp only [bind, Except.bind, hsize, hsections]

/-- Where the field of a base relocation lies in the file. -/
structure IsAt (i : Image) (f : Fixup) (p : Pointer) : Prop where
  isWide : p.isWide = f.isWide
  offset : i.fileOffset f.rva p.size = .ok p.offset
  inside : p.offset + p.size ≤ i.data.size

/-- Applying a base relocation moves the address in its field. -/
theorem run_applyFixup_eq_ok_iff : (applyFixup delta f).run i = (.ok (), j) ↔
    ∃ p, i.IsAt f p ∧ j = { i with data := p.move delta i.data } := by
  unfold applyFixup
  rw [run_bind, run_get]
  simp only [run_bind_lift_eq_ok_iff, Outcome.orFault_eq_ok_iff]
  constructor
  · rintro ⟨offset, hoffset, field, hslice, hrun⟩
    have hinside := le_of_slice? hslice
    refine ⟨⟨offset, f.isWide⟩, ⟨rfl, hoffset, hinside⟩, ?_⟩
    rw [slice?, if_pos hinside] at hslice
    cases hslice
    cases hrun
    rfl
  · rintro ⟨⟨offset, isWide⟩, ⟨rfl, hoffset, hinside⟩, rfl⟩
    exact ⟨offset, hoffset, _, if_pos hinside, rfl⟩

/-- An image of the same size with the same tables. -/
structure SharesTables (h : Headers) (i j : Image) : Prop where
  path : j.path = i.path
  size : j.data.size = i.data.size
  tables : ∀ n, h.Occupies i.data n → j.data[n]? = i.data[n]?

namespace SharesTables

theorem refl (h : Headers) (i : Image) : SharesTables h i i := ⟨rfl, rfl, fun _ _ ↦ rfl⟩

/-- Bytes apart from the tables may change. -/
theorem of_same (hj : SharesTables h i j) {data : Bytes} (hsize : data.size = j.data.size)
    (hdata : ∀ n, h.Occupies i.data n → data[n]? = j.data[n]?) :
    SharesTables h i { j with data := data } :=
  ⟨hj.path, hsize.trans hj.size, fun n hn ↦ (hdata n hn).trans (hj.tables n hn)⟩

/-- An image with the same tables has the same headers. -/
theorem headers (hj : SharesTables h i j) (hi : i.headers = .ok h)
    (hclear : h.start ≤ 4 ∨ 16 ≤ h.start) : j.headers = .ok h := by
  rw [headers_eq_ok_iff] at hi ⊢
  obtain ⟨size, count, number, hin⟩ := Headers.read?_eq_some_iff.mp hi
  have hend := Headers.le_tablesEnd hin
  have hbase : j.data.u64At? (h.start + 48) = some h.base := by
    rw [← hin.base, u64At?, u64At?, numberAt?_congr hj.size]
    rintro n ⟨hlo, hhi⟩
    dsimp only at hlo hhi
    exact hj.tables n (Or.inr ⟨by omega, by omega⟩)
  exact Headers.read?_of_same hi hclear hj.size (fun n hn _ ↦ hj.tables n hn) hbase

theorem fileOffset_eq (hj : SharesTables h i j) (hi : i.headers = .ok h)
    (hclear : h.start ≤ 4 ∨ 16 ≤ h.start) (rva : UInt32) (len : Nat) :
    j.fileOffset rva len = i.fileOffset rva len :=
  fileOffset_congr hi (hj.headers hi hclear) hj.path rfl rfl rva len

theorem isAt_iff (hj : SharesTables h i j) (hi : i.headers = .ok h)
    (hclear : h.start ≤ 4 ∨ 16 ≤ h.start) : j.IsAt f p ↔ i.IsAt f p := by
  constructor
  · rintro ⟨hwide, hoffset, hinside⟩
    exact ⟨hwide, hj.fileOffset_eq hi hclear _ _ ▸ hoffset, hj.size ▸ hinside⟩
  · rintro ⟨hwide, hoffset, hinside⟩
    exact ⟨hwide, (hj.fileOffset_eq hi hclear _ _).trans hoffset, hj.size.symm ▸ hinside⟩

/-- An image with the same tables but for the base has the same headers but for the base. -/
theorem headers_rebased (hj : SharesTables h i j) (hi : i.headers = .ok h)
    (hclear : h.start ≤ 4 ∨ 16 ≤ h.start) (base : UInt64) :
    Image.headers { j with data := j.data.overwrite h.baseAt (ofU64 base) }
      = .ok { h with base := base } := by
  rw [headers_eq_ok_iff] at hi ⊢
  obtain ⟨size, count, number, hin⟩ := Headers.read?_eq_some_iff.mp hi
  have hnt := hin.nt
  have hat : h.baseAt = h.start + 48 := rfl
  have hlen : (ofU64 base).size = 8 := length_ofNumber 8 base.toNat
  have hsize := hj.size
  have hfits : h.baseAt + (ofU64 base).size ≤ j.data.size := by omega
  refine Headers.read?_of_same hi hclear ((size_overwrite hfits).trans hj.size) (fun n hn hout ↦ ?_) ?_
  · exact (getElem?_overwrite_of_outside hfits (by omega)).trans (hj.tables n hn)
  · have hword := numberAt?_of_slice? (slice?_overwrite hfits) (i := 0) (n := 8) (by omega)
    rw [u64At?, ← hat]
    exact (congrArg (Option.map UInt64.ofNat) hword).symm.trans (u64At?_zero_ofU64 base)

/-- Moving an address apart from the tables leaves them as they are. -/
theorem move (hj : SharesTables h i j) (hp : p.offset + p.size ≤ j.data.size)
    (hspares : h.Spares i.data p.window) :
    SharesTables h i { j with data := p.move delta j.data } :=
  hj.of_same (Pointer.size_move hp delta) fun n hn ↦
    Pointer.getElem?_move_of_outside hp delta fun hwindow ↦ hspares n hwindow hn

/-- Moving addresses apart from the tables leaves them as they are. -/
theorem moveAll {ps : List Pointer} (hj : SharesTables h i j)
    (hps : ∀ p ∈ ps, p.offset + p.size ≤ j.data.size ∧ h.Spares i.data p.window) :
    SharesTables h i { j with data := Pointer.moveAll delta ps j.data } := by
  have hin : ∀ p ∈ ps, p.offset + p.size ≤ j.data.size := fun p hp ↦ (hps p hp).1
  exact hj.of_same (Pointer.size_moveAll hin delta) fun n hn ↦
    Pointer.getElem?_moveAll_of_outside hin fun p hp hwindow ↦ (hps p hp).2 n hwindow hn

end SharesTables

/-- Applying base relocations whose fields lie apart from the tables moves the addresses in them. -/
theorem run_applyFixups_eq_ok_iff {fixups : List Fixup} (hi : i.headers = .ok h)
    (hclear : h.start ≤ 4 ∨ 16 ≤ h.start)
    (hspares : ∀ f ∈ fixups, ∀ p, i.IsAt f p → h.Spares i.data p.window)
    (hj : SharesTables h i j) :
    (fixups.forM (applyFixup delta)).run j = (.ok (), k) ↔
      ∃ ps, List.Forall₂ i.IsAt fixups ps ∧
        k = { j with data := Pointer.moveAll delta ps j.data } := by
  induction fixups generalizing j with
  | nil =>
    constructor
    · intro hrun
      cases hrun
      exact ⟨[], .nil, rfl⟩
    · rintro ⟨ps, hps, rfl⟩
      cases hps
      rfl
  | cons f fixups ih =>
    obtain ⟨hfirst, hrest⟩ := List.forall_mem_cons.mp hspares
    have hstep : ∀ p, i.IsAt f p → SharesTables h i { j with data := p.move delta j.data } :=
      fun p hp ↦ hj.move (hj.size.symm ▸ hp.inside) (hfirst p hp)
    change (applyFixup delta f >>= fun _ ↦ fixups.forM (applyFixup delta)).run j = _ ↔ _
    rw [run_bind_eq_ok_iff]
    constructor
    · rintro ⟨_, _, hrun, hrun'⟩
      obtain ⟨p, hp, rfl⟩ := run_applyFixup_eq_ok_iff.mp hrun
      have hp := (hj.isAt_iff hi hclear).mp hp
      obtain ⟨ps, hps, rfl⟩ := (ih hrest (hstep p hp)).mp hrun'
      exact ⟨p :: ps, .cons hp hps, rfl⟩
    · rintro ⟨ps, hps, rfl⟩
      obtain _ | ⟨hp, hps⟩ := hps
      exact ⟨(), _, run_applyFixup_eq_ok_iff.mpr ⟨_, (hj.isAt_iff hi hclear).mpr hp, rfl⟩,
        (ih hrest (hstep _ hp)).mpr ⟨_, hps, rfl⟩⟩

/-- Rebasing an image to the base it has changes nothing. -/
theorem run_rebase_self (hj : j.headers = .ok h) : (rebase h.base).run j = (.ok (), j) := by
  unfold rebase
  rw [run_bind, run_get]
  dsimp only
  rw [run_bind, run_lift, hj]
  dsimp only
  rw [if_pos rfl, run_pure]

/-- The file of an image with addresses moved to another base, which is written at last. -/
def rebased (h : Headers) (base : UInt64) (ps : List Pointer) (data : Bytes) : Bytes :=
  (Pointer.moveAll (base - h.base) ps data).overwrite h.baseAt (ofU64 base)

section Rebased

variable {base : UInt64} {ps : List Pointer}

/-- The base fits in where it is written. -/
theorem baseAt_inside (hj : SharesTables h i j) (hi : i.headers = .ok h) (base : UInt64) :
    h.baseAt + (ofU64 base).size ≤ h.tablesEnd i.data ∧
      h.baseAt + (ofU64 base).size ≤ j.data.size := by
  obtain ⟨size, count, number, hin⟩ := Headers.read?_eq_some_iff.mp (headers_eq_ok_iff.mp hi)
  have hnt := hin.nt
  have hend := Headers.le_tablesEnd hin
  have hsize := hj.size
  have hat : h.baseAt = h.start + 48 := rfl
  have hlen : (ofU64 base).size = 8 := length_ofNumber 8 base.toNat
  omega

theorem size_rebased (hj : SharesTables h i j) (hi : i.headers = .ok h)
    (hin : ∀ p ∈ ps, p.offset + p.size ≤ j.data.size) (base : UInt64) :
    (rebased h base ps j.data).size = j.data.size := by
  have hmoved := Pointer.size_moveAll hin (base - h.base)
  exact (size_overwrite (hmoved.symm ▸ (baseAt_inside hj hi base).2)).trans hmoved

/-- Bytes stay where they are in the file. -/
theorem fileOffset_rebased (hj : SharesTables h i j) (hi : i.headers = .ok h)
    (hclear : h.start ≤ 4 ∨ 16 ≤ h.start)
    (hps : ∀ p ∈ ps, p.offset + p.size ≤ j.data.size ∧ h.Spares i.data p.window)
    (base : UInt64) (rva : UInt32) (len : Nat) :
    fileOffset { j with data := rebased h base ps j.data } rva len = i.fileOffset rva len :=
  fileOffset_congr hi ((hj.moveAll hps).headers_rebased hi hclear base) hj.path rfl rfl rva len

/-- What lies behind the tables comes out as it comes out of moving the addresses. -/
theorem getElem?_rebased (hj : SharesTables h i j) (hi : i.headers = .ok h)
    (hin : ∀ p ∈ ps, p.offset + p.size ≤ j.data.size) {n : Nat} (hn : h.tablesEnd i.data ≤ n) :
    (rebased h base ps j.data)[n]? = (Pointer.moveAll (base - h.base) ps j.data)[n]? := by
  have hmoved := Pointer.size_moveAll hin (base - h.base)
  have hbase := baseAt_inside hj hi base
  exact getElem?_overwrite_of_outside (hmoved.symm ▸ hbase.2) (Or.inr (by omega))

theorem slice?_rebased (hj : SharesTables h i j) (hi : i.headers = .ok h)
    (hin : ∀ p ∈ ps, p.offset + p.size ≤ j.data.size) {offset : Nat}
    (hoffset : h.tablesEnd i.data ≤ offset) (len : Nat) :
    (rebased h base ps j.data).slice? offset len
      = (Pointer.moveAll (base - h.base) ps j.data).slice? offset len :=
  slice?_congr ((size_rebased hj hi hin base).trans (Pointer.size_moveAll hin _).symm) fun _ hn ↦
    getElem?_rebased hj hi hin (hoffset.trans hn.1)

/-- If a part of an image behind its tables stays as it was when the image is rebased, it also stays
in an image that differs there, and the images differ nowhere else afterwards. -/
theorem rebased_agrees {w : Window} (hj : SharesTables h i j) (hi : i.headers = .ok h)
    (hin : ∀ p ∈ ps, p.offset + p.size ≤ i.data.size)
    (hclear : ps.Pairwise fun p q ↦ p.window.IsClear q.window) (hw : h.tablesEnd i.data ≤ w.start)
    (hsame : ∀ n, ¬w.Contains n → i.data[n]? = j.data[n]?) (base : UInt64)
    (hstays : SameIn (rebased h base ps i.data) i.data w) :
    SameIn (rebased h base ps j.data) j.data w ∧
      ∀ n, ¬w.Contains n → (rebased h base ps i.data)[n]? = (rebased h base ps j.data)[n]? := by
  have hin' : ∀ p ∈ ps, p.offset + p.size ≤ j.data.size := hj.size.symm ▸ hin
  have hfits := (Pointer.size_moveAll hin (base - h.base)).symm ▸
    (baseAt_inside (.refl h i) hi base).2
  have hfits' := (Pointer.size_moveAll hin' (base - h.base)).symm ▸ (baseAt_inside hj hi base).2
  obtain ⟨hstays', hagree⟩ := Pointer.moveAll_agrees (P := w.Contains) hin hclear hj.size hsame
    fun n hn ↦
      (getElem?_rebased (.refl h i) hi hin (hw.trans hn.1)).symm.trans (hstays n hn)
  constructor
  · exact fun n hn ↦ (getElem?_rebased hj hi hin' (hw.trans hn.1)).trans (hstays' n hn)
  · intro n hn
    by_cases hat : h.baseAt ≤ n ∧ n < h.baseAt + (ofU64 base).size
    · unfold rebased
      rw [getElem?_overwrite_of_inside hfits hat.1 hat.2,
        getElem?_overwrite_of_inside hfits' hat.1 hat.2]
    · unfold rebased
      rw [getElem?_overwrite_of_outside hfits (by omega),
        getElem?_overwrite_of_outside hfits' (by omega)]
      exact hagree n hn

end Rebased

/-- Rebasing an image moves its addresses and then writes the base. -/
theorem run_rebase_eq_ok_iff {base : UInt64} (hi : i.headers = .ok h)
    (hclear : h.start ≤ 4 ∨ 16 ≤ h.start) (hj : SharesTables h i j) (hne : h.base ≠ base)
    (hspares : ∀ fixups, h.fixups j.data = .ok fixups → ∀ f ∈ fixups, ∀ p, i.IsAt f p →
      h.Spares i.data p.window) :
    (rebase base).run j = (.ok (), k) ↔ ∃ fixups ps, h.fixups j.data = .ok fixups ∧
      List.Forall₂ i.IsAt fixups ps ∧ k = { j with data := rebased h base ps j.data } := by
  unfold rebase
  rw [run_bind, run_get]
  dsimp only
  rw [run_bind, run_lift, hj.headers hi hclear]
  dsimp only
  rw [if_neg hne, run_bind_lift_eq_ok_iff]
  constructor
  · rintro ⟨fixups, hfixups, hrun⟩
    obtain ⟨_, _, hmoves, hrun⟩ := run_bind_eq_ok_iff.mp hrun
    obtain ⟨ps, hps, rfl⟩ :=
      (run_applyFixups_eq_ok_iff hi hclear (hspares fixups hfixups) hj).mp hmoves
    cases hrun
    exact ⟨fixups, ps, hfixups, hps, rfl⟩
  · rintro ⟨fixups, ps, hfixups, hps, rfl⟩
    exact ⟨fixups, hfixups, run_bind_eq_ok_iff.mpr ⟨(), _,
      (run_applyFixups_eq_ok_iff hi hclear (hspares fixups hfixups) hj).mpr ⟨ps, hps, rfl⟩, rfl⟩⟩

end Image

namespace ImageFormat.Headers

open Bytes

variable {h : Headers} {data data' : Bytes}

/-- The bytes behind an address up to the end of its section lie where the first section has them
that is not cut off by the end of the file. -/
def placeAt? (h : Headers) (size : Nat) (rva : UInt32) : Option (Nat × Nat) :=
  h.sections.findSome? fun s ↦ (sectionRange? s rva).filter fun r ↦ r.1 + r.2 ≤ size

theorem dataAt?_eq (h : Headers) (data : Bytes) (rva : UInt32) :
    h.dataAt? data rva = (h.placeAt? data.size rva).bind fun r ↦ data.slice? r.1 r.2 := by
  unfold dataAt? placeAt?
  induction h.sections with
  | nil => rfl
  | cons s sections ih =>
    rw [List.findSome?_cons, List.findSome?_cons]
    cases hrange : sectionRange? s rva with
    | none => exact ih
    | some range =>
      by_cases hinside : range.1 + range.2 ≤ data.size
      · have hslice : data.slice? range.1 range.2 = some _ := if_pos hinside
        rw [Option.filter_some, if_pos (decide_eq_true hinside)]
        simp [hslice]
      · have hslice : data.slice? range.1 range.2 = none := if_neg hinside
        rw [Option.filter_some, if_neg (by simpa using hinside)]
        simpa [hslice] using ih

/-- The part of a file of some size that the base relocations are read from. -/
def relocationWindow? (h : Headers) (size : Nat) : Option Window :=
  h.directories[5]?.bind fun d ↦
    if d.rva = 0 then none
    else (h.placeAt? size d.rva).bind fun r ↦ if d.size ≤ r.2 then some ⟨r.1, d.size⟩ else none

/-- A file of the same size with the same base relocations lists the same fields. -/
theorem fixups_congr (hsize : data.size = data'.size)
    (hsame : ∀ w, h.relocationWindow? data.size = some w → SameIn data data' w) :
    h.fixups data = h.fixups data' := by
  have hrelocations : h.relocations? data = h.relocations? data' := by
    unfold relocations?
    cases hd : h.directories[5]? with
    | none => rfl
    | some d =>
      dsimp only
      split
      · rfl
      · next hrva =>
        rw [dataAt?_eq, dataAt?_eq, ← hsize]
        cases hplace : h.placeAt? data.size d.rva with
        | none => rfl
        | some r =>
          obtain ⟨offset, available⟩ := r
          by_cases hfits : offset + available ≤ data.size
          · have hslice : data.slice? offset available = some _ := if_pos hfits
            have hslice' : data'.slice? offset available = some _ := if_pos (hsize ▸ hfits)
            simp only [Option.bind_some, hslice, hslice']
            by_cases hsized : d.size ≤ available
            · have hwindow : h.relocationWindow? data.size = some ⟨offset, d.size⟩ := by
                rw [relocationWindow?, hd, Option.bind_some, if_neg hrva, hplace, Option.bind_some,
                  if_pos hsized]
              rw [slice?_of_slice? hslice (by omega), slice?_of_slice? hslice' (by omega),
                Nat.add_zero, slice?_congr hsize (hsame _ hwindow)]
            · rw [slice?, slice?, if_neg (by rw [size_of_slice? hslice]; omega),
                if_neg (by rw [size_of_slice? hslice']; omega)]
          · simp only [Option.bind_some, slice?, if_neg hfits, if_neg (hsize ▸ hfits)]
  unfold fixups
  rw [hrelocations]

/-- The base relocations may be read from a part of the file. -/
structure ReadsRelocationsAt (h : Headers) (w : Window) : Prop where
  exists_directory : ∃ d, h.directories[5]? = some d ∧ d.rva ≠ 0 ∧ d.size = w.size ∧
    ∃ s ∈ h.sections, ∃ available, sectionRange? s d.rva = some (w.start, available)

/-- The base relocations are read from where they may be read. -/
theorem readsRelocationsAt_of_relocationWindow? {size : Nat} {w : Window}
    (hw : h.relocationWindow? size = some w) : h.ReadsRelocationsAt w := by
  obtain ⟨d, hd, hw⟩ := Option.bind_eq_some_iff.mp hw
  split at hw
  · cases hw
  · next hrva =>
    obtain ⟨⟨offset, available⟩, hplace, hw⟩ := Option.bind_eq_some_iff.mp hw
    split at hw
    · cases hw
      obtain ⟨s, hs, hrange⟩ := List.exists_of_findSome?_eq_some hplace
      exact ⟨d, hd, hrva, rfl, s, hs, available, (Option.filter_eq_some_iff.mp hrange).1⟩
    · cases hw

end ImageFormat.Headers

end LivePatch
