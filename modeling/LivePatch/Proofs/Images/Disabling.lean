import LivePatch.Proofs.Images.Rebasing
import LivePatch.Proofs.Pointwise

/-!
# Rebasing an image with a disabled entry point

The code at the entry point is saved before the image is rebased. Addresses in it, which rebasing
would have moved, stay as they were in what was saved, and what stands in their place, the code that
returns success, is changed instead.
-/

namespace LivePatch

open ImageFormat

namespace Image

open Bytes X86

section

variable {i i' a b : Image} {h : Headers} {base : UInt64} {saved : SavedEntryPoint} {offset : Nat}

/-- The part of the file that the code at the entry point takes which is replaced. -/
def stubWindow (offset : Nat) : Window := ⟨offset, successStub.size⟩

theorem written_eq_ok_iff {rva : UInt32} {code : Bytes} : i.written rva code = .ok i' ↔
    ∃ offset, i.fileOffset rva code.size = .ok offset ∧ offset + code.size ≤ i.data.size ∧
      i' = { i with data := i.data.overwrite offset code } := by
  unfold written
  simp only [Outcome.bind_eq_ok_iff, Outcome.orFail_eq_ok_iff, overwrite?]
  constructor
  · rintro ⟨offset, hoffset, data, hdata, hwritten⟩
    split at hdata
    · next hinside =>
      cases hdata
      cases hwritten
      exact ⟨offset, hoffset, hinside, rfl⟩
    · cases hdata
  · rintro ⟨offset, hoffset, hinside, rfl⟩
    exact ⟨offset, hoffset, _, if_pos hinside, rfl⟩

/-- What disabling an entry point comes to. -/
theorem run_disableEntryPoint_eq_ok_iff (hi : i.headers = .ok h) :
    disableEntryPoint.run i = (.ok (some saved), i') ↔
      h.entryPoint ≠ 0 ∧ saved.rva = h.entryPoint ∧
      ∃ offset, i.fileOffset h.entryPoint successStub.size = .ok offset ∧
        i.data.slice? offset successStub.size = some saved.code ∧
        i' = { i with data := i.data.overwrite offset successStub } := by
  have hrva : i.entryPoint = .ok h.entryPoint := by
    rw [entryPoint, hi]
    rfl
  unfold disableEntryPoint
  rw [run_bind, run_get]
  dsimp only
  rw [run_bind, run_lift, hrva]
  dsimp only
  split
  · next hzero => exact ⟨(fun hrun ↦ by cases hrun), fun hsome ↦ (hsome.1 hzero).elim⟩
  · next hentry =>
    simp only [run_bind_lift_eq_ok_iff, read_eq_ok_iff, written_eq_ok_iff]
    constructor
    · rintro ⟨code, ⟨offset, hoffset, hslice⟩, _, ⟨offset', hoffset', -, rfl⟩, hrun⟩
      cases hoffset.symm.trans hoffset'
      cases hrun
      exact ⟨hentry, rfl, offset, hoffset, hslice, rfl⟩
    · rintro ⟨-, hrva, offset, hoffset, hslice, rfl⟩
      obtain ⟨rva, code⟩ := saved
      cases hrva
      exact ⟨code, ⟨offset, hoffset, hslice⟩, _, ⟨offset, hoffset, le_of_slice? hslice, rfl⟩, rfl⟩

/-- Disabling an entry point behind the tables leaves them as they are. -/
theorem SharesTables.disabled (hi : i.headers = .ok h)
    (hinside : offset + successStub.size ≤ i.data.size) (hbehind : h.tablesEnd i.data ≤ offset) :
    SharesTables h i { i with data := i.data.overwrite offset successStub } := by
  have hspares := Headers.spares_of_le (w := stubWindow offset) (headers_eq_ok_iff.mp hi) hbehind
  refine (SharesTables.refl h i).of_same (size_overwrite hinside) fun n hn ↦
    getElem?_overwrite_of_outside hinside ?_
  by_contra hout
  exact hspares n (by unfold Window.Contains stubWindow; dsimp only; omega) hn

/-- An image whose tables and base relocations lie apart from the code at the entry point, and whose
addresses to be moved lie behind the tables and share no bytes with one another. -/
structure IsTidy (i : Image) (h : Headers) : Prop where
  clear : h.start ≤ 4 ∨ 16 ≤ h.start
  code : ∀ offset, i.fileOffset h.entryPoint successStub.size = .ok offset →
    h.tablesEnd i.data ≤ offset
  relocations : ∀ offset, i.fileOffset h.entryPoint successStub.size = .ok offset →
    ∀ w, h.ReadsRelocationsAt w → (stubWindow offset).IsClear w
  behind : ∀ fixups, h.fixups i.data = .ok fixups → ∀ f ∈ fixups, ∀ p, i.IsAt f p →
    h.tablesEnd i.data ≤ p.offset
  apart : ∀ fixups, h.fixups i.data = .ok fixups → fixups.Pairwise fun f g ↦ ∀ p q,
    i.IsAt f p → i.IsAt g q → p.window.IsClear q.window

/-- Code is read where another file has it if both are the same there. -/
theorem read_eq_ok_iff_sameIn {j : Image} {rva : UInt32} {len : Nat} {code : Bytes}
    (hoffset : j.fileOffset rva len = .ok offset) {data : Bytes} (hsize : j.data.size = data.size)
    (hcode : data.slice? offset len = some code) :
    j.read rva len = .ok code ↔ SameIn j.data data ⟨offset, len⟩ := by
  have hinside := le_of_slice? hcode
  rw [read_eq_ok_iff]
  constructor
  · rintro ⟨offset', hoffset', hread⟩ n ⟨hlo, hhi⟩
    cases hoffset.symm.trans hoffset'
    rw [slice?, if_pos (by omega)] at hread hcode
    dsimp only at hlo hhi
    have hbytes := Option.some.inj (hread.trans hcode.symm)
    have heq := congrArg (·[n - offset]?) hbytes
    simp only [Array.getElem?_extract] at heq
    rwa [if_pos (by omega), if_pos (by omega), Nat.add_sub_cancel' hlo] at heq
  · intro hsame
    exact ⟨offset, hoffset, (slice?_congr hsize hsame).trans hcode⟩

/-- An image that was disabled and then changed is the changed untouched one with other code if the
change left the untouched code alone, provided that it then leaves the stub alone and makes no other
difference. -/
theorem restored_iff {rva : UInt32} {code : Bytes}
    (ha : a.fileOffset rva successStub.size = .ok offset)
    (hb : b.fileOffset rva successStub.size = .ok offset) (hpath : b.path = a.path)
    (hsize : a.data.size = i.data.size) (hsize' : b.data.size = i.data.size)
    (hcode : i.data.slice? offset successStub.size = some code)
    (hagree : SameIn a.data i.data (stubWindow offset) →
      SameIn b.data (i.data.overwrite offset successStub) (stubWindow offset) ∧
      ∀ n, ¬(stubWindow offset).Contains n → a.data[n]? = b.data[n]?) :
    (b.read rva successStub.size = .ok successStub ∧ b.written rva code = .ok a) ↔
      a.read rva successStub.size = .ok code := by
  have hinside := le_of_slice? hcode
  have hlen := size_of_slice? hcode
  have hwritten : b.written rva code = .ok { b with data := b.data.overwrite offset code } :=
    written_eq_ok_iff.mpr ⟨offset, hlen.symm ▸ hb, by omega, rfl⟩
  have hstub : (i.data.overwrite offset successStub).slice? offset successStub.size
      = some successStub := slice?_overwrite hinside
  rw [hwritten, read_eq_ok_iff_sameIn hb (hsize'.trans (size_overwrite hinside).symm) hstub,
    read_eq_ok_iff_sameIn ha hsize hcode]
  constructor
  · rintro ⟨-, heq⟩
    have hdata : b.data.overwrite offset code = a.data := congrArg Image.data (Except.ok.inj heq)
    refine (read_eq_ok_iff_sameIn ha hsize hcode).mp (read_eq_ok_iff.mpr ⟨offset, ha, ?_⟩)
    rw [← hdata, ← hlen]
    exact slice?_overwrite (by omega)
  · intro hsame
    obtain ⟨hstays, hout⟩ := hagree hsame
    refine ⟨hstays, congrArg Except.ok ?_⟩
    have hdata : b.data.overwrite offset code = a.data := by
      refine Array.ext_getElem? fun n ↦ ?_
      by_cases hn : (stubWindow offset).Contains n
      · obtain ⟨hlo, hhi⟩ := hn
        dsimp only [stubWindow] at hlo hhi
        rw [hsame n ⟨hlo, hhi⟩, getElem?_overwrite_of_inside (by omega) hlo (by omega)]
        rw [slice?, if_pos hinside] at hcode
        cases hcode
        rw [Array.getElem?_extract, if_pos (by omega), Nat.add_sub_cancel' hlo]
      · rw [hout n hn]
        unfold Window.Contains stubWindow at hn
        dsimp only at hn
        exact getElem?_overwrite_of_outside (by omega) (by omega)
    rw [hdata, hpath]

/-- Rebasing leaves the code at the entry point of an image alone as none of the addresses to be moved
shares a byte with what is replaced of it. -/
def SparesEntryPoint (i : Image) (h : Headers) : Prop :=
  ∀ fixups, h.fixups i.data = .ok fixups → ∀ f ∈ fixups, ∀ p, i.IsAt f p →
    ∀ offset, i.fileOffset h.entryPoint successStub.size = .ok offset →
      (stubWindow offset).IsClear p.window

variable {fixups : List Fixup} {ps : List Pointer}

/-- The addresses that a tidy image lists lie apart from its tables. -/
theorem IsTidy.spares (htidy : i.IsTidy h) (hi : i.headers = .ok h) (fixups : List Fixup)
    (hfixups : h.fixups i.data = .ok fixups) (f : Fixup) (hf : f ∈ fixups) (p : Pointer)
    (hp : i.IsAt f p) : h.Spares i.data p.window :=
  Headers.spares_of_le (headers_eq_ok_iff.mp hi) (htidy.behind fixups hfixups f hf p hp)

/-- The addresses that a tidy image lists lie inside apart from its tables and share no bytes. -/
theorem IsTidy.pointers (htidy : i.IsTidy h) (hi : i.headers = .ok h)
    (hfixups : h.fixups i.data = .ok fixups) (hps : List.Forall₂ i.IsAt fixups ps) :
    (∀ p ∈ ps, p.offset + p.size ≤ i.data.size ∧ h.Spares i.data p.window) ∧
      ps.Pairwise fun p q ↦ p.window.IsClear q.window := by
  constructor
  · intro p hp
    obtain ⟨f, hf, hat⟩ := Pointwise.exists_left hps hp
    exact ⟨hat.inside, htidy.spares hi fixups hfixups f hf p hat⟩
  · exact Pointwise.pairwise hps (htidy.apart fixups hfixups) fun hp hq happly ↦ happly _ _ hp hq

/-- A tidy image lists the same addresses when its entry point is disabled. -/
theorem IsTidy.fixups_disabled (htidy : i.IsTidy h)
    (hoffset : i.fileOffset h.entryPoint successStub.size = .ok offset)
    (hinside : offset + successStub.size ≤ i.data.size) :
    h.fixups (i.data.overwrite offset successStub) = h.fixups i.data :=
  Headers.fixups_congr (size_overwrite hinside) fun w hw ↦
    sameIn_overwrite hinside (htidy.relocations offset hoffset w
      (Headers.readsRelocationsAt_of_relocationWindow? hw))

/-- A tidy image with a disabled entry point is rebased by the same addresses. -/
theorem IsTidy.rebase_disabled (htidy : i.IsTidy h) (hi : i.headers = .ok h)
    (hfixups : h.fixups i.data = .ok fixups) (hps : List.Forall₂ i.IsAt fixups ps)
    (hoffset : i.fileOffset h.entryPoint successStub.size = .ok offset)
    (hinside : offset + successStub.size ≤ i.data.size) (hne : h.base ≠ base)
    (hb : b = { i with data := rebased h base ps (i.data.overwrite offset successStub) }) :
    (rebase base).run { i with data := i.data.overwrite offset successStub } = (.ok (), b) ∧
      b.data.size = i.data.size ∧ ∀ rva len, b.fileOffset rva len = i.fileOffset rva len := by
  subst hb
  have hbehind := htidy.code offset hoffset
  have hsize := size_overwrite hinside
  obtain ⟨hpointers, -⟩ := htidy.pointers hi hfixups hps
  have hdisabled := SharesTables.disabled hi hinside hbehind
  have hlisted := htidy.fixups_disabled hoffset hinside
  have hpointers' : ∀ p ∈ ps, p.offset + p.size ≤ (i.data.overwrite offset successStub).size ∧
      h.Spares i.data p.window := hsize.symm ▸ hpointers
  have hrun := (run_rebase_eq_ok_iff hi htidy.clear hdisabled hne
    (hlisted ▸ htidy.spares hi)).mpr ⟨fixups, ps, hlisted.trans hfixups, hps, rfl⟩
  have hrebased := size_rebased hdisabled hi (fun p hp ↦ (hpointers' p hp).1) base
  exact ⟨hrun, hrebased.trans hsize, fileOffset_rebased hdisabled hi htidy.clear hpointers' base⟩

/-- Rebasing by addresses that share no byte with the code at the entry point leaves it alone. -/
theorem SparesEntryPoint.sameIn (hspares : i.SparesEntryPoint h) (hi : i.headers = .ok h)
    (hfixups : h.fixups i.data = .ok fixups) (hps : List.Forall₂ i.IsAt fixups ps)
    (hoffset : i.fileOffset h.entryPoint successStub.size = .ok offset)
    (hbehind : h.tablesEnd i.data ≤ offset) :
    SameIn (rebased h base ps i.data) i.data (stubWindow offset) := by
  have hin : ∀ p ∈ ps, p.offset + p.size ≤ i.data.size := fun p hp ↦
    (Pointwise.exists_left hps hp).elim fun _ hf ↦ hf.2.inside
  intro n hn
  rw [getElem?_rebased (.refl h i) hi hin (hbehind.trans hn.1)]
  refine Pointer.getElem?_moveAll_of_outside hin fun p hp ↦ ?_
  obtain ⟨f, hf, hat⟩ := Pointwise.exists_left hps hp
  exact (hspares fixups hfixups f hf p hat offset hoffset).not_contains hn

/-- For an image whose tables lie apart from its code, the rebased image with a disabled entry point
still starts with the code that returns success and is the rebased image once the saved code is put
back just if rebasing left the code at the entry point alone. -/
theorem disabling_commutes_with_rebasing_iff (hi : i.headers = .ok h)
    (hdisable : disableEntryPoint.run i = (.ok (some saved), i'))
    (hrebase : (rebase base).run i = (.ok (), a)) (htidy : i.IsTidy h) :
    ∃ b, (rebase base).run i' = (.ok (), b) ∧
      ((b.read saved.rva successStub.size = .ok successStub ∧
          b.written saved.rva saved.code = .ok a) ↔
        a.read saved.rva successStub.size = .ok saved.code) ∧
      (i.SparesEntryPoint h → a.read saved.rva successStub.size = .ok saved.code) := by
  obtain ⟨-, hrva, offset, hoffset, hcode, rfl⟩ :=
    (run_disableEntryPoint_eq_ok_iff hi).mp hdisable
  rw [hrva]
  have hinside := le_of_slice? hcode
  have hbehind := htidy.code offset hoffset
  have hdisabled := SharesTables.disabled hi hinside hbehind
  have hout : ∀ n, ¬(stubWindow offset).Contains n →
      i.data[n]? = (i.data.overwrite offset successStub)[n]? := fun n hn ↦ by
    unfold Window.Contains stubWindow at hn
    dsimp only at hn
    exact (getElem?_overwrite_of_outside hinside (by omega)).symm
  by_cases hbase : h.base = base
  · -- nothing is moved
    subst hbase
    cases (run_rebase_self hi).symm.trans hrebase
    have hread : i.read h.entryPoint successStub.size = .ok saved.code :=
      read_eq_ok_iff.mpr ⟨offset, hoffset, hcode⟩
    refine ⟨_, run_rebase_self (hdisabled.headers hi htidy.clear), ?_, fun _ ↦ hread⟩
    exact restored_iff hoffset ((hdisabled.fileOffset_eq hi htidy.clear _ _).trans hoffset) rfl rfl
      (size_overwrite hinside) hcode fun _ ↦ ⟨fun _ _ ↦ rfl, hout⟩
  · obtain ⟨fixups, ps, hfixups, hps, rfl⟩ :=
      (run_rebase_eq_ok_iff hi htidy.clear (.refl h i) hbase (htidy.spares hi)).mp hrebase
    obtain ⟨hpointers, hclear⟩ := htidy.pointers hi hfixups hps
    have hin : ∀ p ∈ ps, p.offset + p.size ≤ i.data.size := fun p hp ↦ (hpointers p hp).1
    obtain ⟨hrun, hsize, hoffsets⟩ :=
      htidy.rebase_disabled hi hfixups hps hoffset hinside hbase rfl
    have hoffset' :=
      (fileOffset_rebased (.refl h i) hi htidy.clear hpointers base _ _).trans hoffset
    refine ⟨_, hrun, ?_, fun hspares ↦ ?_⟩
    · have hagrees := rebased_agrees (w := stubWindow offset) hdisabled hi hin hclear hbehind hout base
      exact restored_iff hoffset' ((hoffsets _ _).trans hoffset) rfl
        (size_rebased (.refl h i) hi hin base) hsize hcode hagrees
    · exact (read_eq_ok_iff_sameIn hoffset' (size_rebased (.refl h i) hi hin base) hcode).mpr
        (hspares.sameIn hi hfixups hps hoffset hbehind)

end

namespace OneAddress

/-- An image whose entry point is followed by eleven bytes of code, with an absolute address at a
place in its section. -/
def bytes (place : UInt8) : Bytes :=
  (([0x4d, 0x5a, 0, 0, 0x50, 0x45, 0, 0, 0, 0, 1, 0] : List UInt8) ++ List.replicate 12 0
    ++ [160, 0, 0, 0, 0x0b, 0x02] ++ List.replicate 14 0 ++ [0, 1, 0, 0] ++ List.replicate 4 0
    ++ [0, 0, 0, 0x80, 1, 0, 0, 0] ++ [4, 0, 0, 0] ++ List.replicate 20 0 ++ [0, 2, 0, 0]
    ++ [228, 0, 0, 0] ++ List.replicate 44 0 ++ [6, 0, 0, 0] ++ List.replicate 40 0
    ++ [0x18, 1, 0, 0, 12, 0, 0, 0]
    ++ [0x2e, 0x74, 0x65, 0x78, 0x74, 0, 0, 0, 36, 0, 0, 0, 0, 1, 0, 0, 36, 0, 0, 0, 228, 0, 0, 0]
    ++ List.replicate 12 0 ++ [0x20, 0, 0, 0x60]
    ++ [0x48, 0xb8, 0, 2, 0, 0x80, 1, 0, 0, 0, 0xc3] ++ List.replicate 13 0xcc
    ++ [0, 0, 0, 0, 12, 0, 0, 0, place, 0xa1, 0, 0]).toArray

/-- The image with the address in the code at the entry point or behind it. -/
def image (isInCode : Bool) : Image := ⟨⟨"/m"⟩, bytes (if isInCode then 2 else 12)⟩

/-- Where the address is. -/
def fixup (isInCode : Bool) : Fixup := ⟨if isInCode then 0x102 else 0x10c, true⟩

/-- Where it lies in the file. -/
def pointer (isInCode : Bool) : Pointer := ⟨if isInCode then 230 else 240, true⟩

theorem isSome_headers (isInCode : Bool) :
    (Headers.read? .wide (image isInCode).data).isSome = true := by
  cases isInCode <;> decide +kernel

/-- The headers of the image. -/
def headers (isInCode : Bool) : Headers :=
  (Headers.read? .wide (image isInCode).data).get (isSome_headers isInCode)

variable {isInCode : Bool}

theorem headers_image : (image isInCode).headers = .ok (headers isInCode) :=
  headers_eq_ok_iff.mpr (Option.some_get (isSome_headers isInCode)).symm

/-- The code at the entry point. -/
def saved : SavedEntryPoint := ⟨0x100, #[0x48, 0xb8, 0, 2, 0, 0x80]⟩

/-- What the headers say, and what lies where in the file. -/
class Evaluation (isInCode : Bool) : Prop where
  say : (headers isInCode).start = 4 ∧ (headers isInCode).entryPoint = 0x100 ∧
    (headers isInCode).base = 0x180000000 ∧
    (headers isInCode).tablesEnd (image isInCode).data = 228 ∧
    ((headers isInCode).directories[5]?.map fun d ↦ (d.rva, d.size)) = some (0x118, 12) ∧
    ((headers isInCode).sections.map fun s ↦ sectionRange? s 0x118) = [some (252, 12)]
  layout : (headers isInCode).fixups (image isInCode).data = .ok [fixup isInCode] ∧
    (image isInCode).fileOffset 0x100 6 = .ok 228 ∧
    (image isInCode).fileOffset (fixup isInCode).rva 8 = .ok (pointer isInCode).offset
  size : (image isInCode).data.size = 264
  code : (image isInCode).data.slice? 228 6 = some saved.code

instance (isInCode : Bool) : Decidable (Evaluation isInCode) :=
  decidable_of_iff (_ ∧ _ ∧ _ ∧ _)
    ⟨fun ⟨hsay, hlayout, hsize, hcode⟩ ↦ ⟨hsay, hlayout, hsize, hcode⟩,
      fun h ↦ ⟨h.say, h.layout, h.size, h.code⟩⟩

instance evaluation (isInCode : Bool) : Evaluation isInCode := by cases isInCode <;> decide +kernel

/-- The image with a disabled entry point. -/
def disabled (isInCode : Bool) : Image :=
  { image isInCode with data := (image isInCode).data.overwrite 228 successStub }

theorem fileOffset_entryPoint : (image isInCode).fileOffset (headers isInCode).entryPoint
    successStub.size = .ok 228 := by
  rw [(evaluation _).say.2.1]
  exact (evaluation _).layout.2.1

theorem run_disableEntryPoint :
    disableEntryPoint.run (image isInCode) = (.ok (some saved), disabled isInCode) := by
  have hrva : (headers isInCode).entryPoint = 0x100 := (evaluation _).say.2.1
  refine (run_disableEntryPoint_eq_ok_iff headers_image).mpr ⟨?_, hrva.symm, 228,
    fileOffset_entryPoint, (evaluation _).code, rfl⟩
  rw [hrva]
  decide

/-- Where the address lies. -/
theorem isAt_pointer : (image isInCode).IsAt (fixup isInCode) (pointer isInCode) := by
  refine ⟨rfl, (evaluation _).layout.2.2, ?_⟩
  rw [(evaluation _).size]
  cases isInCode <;> decide

theorem eq_pointer_of_isAt {f : Fixup} {p : Pointer} {fixups : List Fixup}
    (hfixups : (headers isInCode).fixups (image isInCode).data = .ok fixups) (hf : f ∈ fixups)
    (hp : (image isInCode).IsAt f p) : p = pointer isInCode := by
  cases hfixups.symm.trans (evaluation _).layout.1
  obtain rfl := List.mem_singleton.mp hf
  obtain ⟨offset, isWide⟩ := p
  obtain ⟨hwide, hoffset, -⟩ := hp
  dsimp only at hwide
  subst hwide
  cases hoffset.symm.trans (evaluation _).layout.2.2
  rfl

theorem isTidy_image : (image isInCode).IsTidy (headers isInCode) where
  clear := Or.inl (evaluation _).say.1.le
  code offset hoffset := by
    cases hoffset.symm.trans fileOffset_entryPoint
    exact (evaluation _).say.2.2.2.1.le
  relocations offset hoffset w hw := by
    cases hoffset.symm.trans fileOffset_entryPoint
    obtain ⟨d, hd, -, hsize, s, hs, available, hrange⟩ := hw.exists_directory
    obtain ⟨-, -, -, -, hdirectory, hsections⟩ := (evaluation isInCode).say
    rw [hd, Option.map_some, Option.some.injEq, Prod.mk.injEq] at hdirectory
    rw [hdirectory.1] at hrange
    have hmem := List.mem_map_of_mem (f := fun s ↦ sectionRange? s 0x118) hs
    rw [hsections, List.mem_singleton, hrange] at hmem
    obtain ⟨start, size⟩ := w
    cases hmem
    dsimp only at hsize
    rw [← hsize, hdirectory.2]
    decide
  behind fixups hfixups f hf p hp := by
    rw [eq_pointer_of_isAt hfixups hf hp, (evaluation _).say.2.2.2.1]
    cases isInCode <;> decide
  apart fixups hfixups := by
    cases hfixups.symm.trans (evaluation _).layout.1
    exact List.pairwise_singleton ..

/-- The image at another base. -/
def relocated (isInCode : Bool) : Image :=
  { image isInCode with
    data := rebased (headers isInCode) 0x140010000 [pointer isInCode] (image isInCode).data }

theorem base_ne : (headers isInCode).base ≠ 0x140010000 := by
  rw [(evaluation _).say.2.2.1]
  decide

theorem run_rebase : (rebase 0x140010000).run (image isInCode) = (.ok (), relocated isInCode) :=
  (run_rebase_eq_ok_iff headers_image isTidy_image.clear (.refl _ _) base_ne
    (isTidy_image.spares headers_image)).mpr ⟨_, _, (evaluation _).layout.1, .cons isAt_pointer .nil, rfl⟩

/-- Rebasing puts an address behind the code right and leaves the code alone. -/
theorem disabling_commutes_with_rebasing_away_from_address :
    (image false).headers = .ok (headers false) ∧
    disableEntryPoint.run (image false) = (.ok (some saved), disabled false) ∧
    (rebase 0x140010000).run (image false) = (.ok (), relocated false) ∧
    (image false).IsTidy (headers false) ∧
    ∃ b, (rebase 0x140010000).run (disabled false) = (.ok (), b) ∧
      b.read saved.rva successStub.size = .ok successStub ∧
      b.written saved.rva saved.code = .ok (relocated false) := by
  obtain ⟨b, hb, hiff, hspared⟩ := disabling_commutes_with_rebasing_iff headers_image
    run_disableEntryPoint run_rebase isTidy_image
  refine ⟨headers_image, run_disableEntryPoint, run_rebase, isTidy_image, b, hb,
    hiff.mpr (hspared fun fixups hfixups f hf p hp offset hoffset ↦ ?_)⟩
  rw [eq_pointer_of_isAt hfixups hf hp]
  cases hoffset.symm.trans fileOffset_entryPoint
  decide

/-- Rebasing an image with an address in the code at its entry point changes the code that returns
success in its place, and what was saved is not what the code becomes. -/
theorem rebasing_changes_disabled_entry_point :
    disableEntryPoint.run (image true) = (.ok (some saved), disabled true) ∧
    (rebase 0x140010000).run (image true) = (.ok (), relocated true) ∧
    (relocated true).read saved.rva 6 = .ok #[0x48, 0xb8, 0, 2, 1, 0x40] ∧
    ∃ b, (rebase 0x140010000).run (disabled true) = (.ok (), b) ∧
      b.read saved.rva 6 = .ok #[0xb8, 0x01, 0x00, 0x00, 0x01, 0x83] := by
  have hps : List.Forall₂ (image true).IsAt [fixup true] [pointer true] := .cons isAt_pointer .nil
  have hinside : 228 + successStub.size ≤ (image true).data.size := by
    rw [(evaluation _).size]
    decide
  have hpointers := (isTidy_image.pointers headers_image (evaluation _).layout.1 hps).1
  have hin : ∀ p ∈ [pointer true], p.offset + p.size ≤ (image true).data.size :=
    fun p hp ↦ (hpointers p hp).1
  have hbehind : (headers true).tablesEnd (image true).data ≤ 228 := (evaluation _).say.2.2.2.1.le
  have hdisabled := SharesTables.disabled headers_image hinside hbehind
  obtain ⟨hrun, -, hoffsets⟩ := isTidy_image.rebase_disabled headers_image (evaluation _).layout.1 hps
    fileOffset_entryPoint hinside base_ne rfl
  refine ⟨run_disableEntryPoint, run_rebase, read_eq_ok_iff.mpr ⟨228, ?_, ?_⟩, _, hrun,
    read_eq_ok_iff.mpr ⟨228, ?_, ?_⟩⟩
  · exact (fileOffset_rebased (.refl _ _) headers_image isTidy_image.clear hpointers _ _ _).trans
      (evaluation _).layout.2.1
  · refine (slice?_rebased (.refl _ _) headers_image hin hbehind 6).trans ?_
    rw [(evaluation _).say.2.2.1]
    decide +kernel
  · exact (hoffsets _ _).trans (evaluation _).layout.2.1
  · refine (slice?_rebased hdisabled headers_image (hdisabled.size.symm ▸ hin) hbehind 6).trans ?_
    rw [(evaluation _).say.2.2.1]
    decide +kernel

end OneAddress
end Image
end LivePatch
