import LivePatch.Proofs.Images.Disabling

/-!
# Rebasing an image twice

An image that was rebased can be rebased again as if it had never been: the distances add up, and the
field for the base is written over. Only when that field is part of what tells where the second header
starts, or which addresses there are, does the way make a difference.
-/

namespace LivePatch

namespace ImageFormat.Headers

open Bytes

/-- The part of a file that the field for the base takes. -/
def baseWindow (h : Headers) : Window := ⟨h.baseAt, 8⟩

/-- The field for the base shares no byte with the number that says where the second header starts,
nor with the base relocations. -/
structure KeepsBaseApart (h : Headers) (size : Nat) : Prop where
  start : h.baseWindow.IsClear ⟨60, 4⟩
  relocations : ∀ w, h.relocationWindow? size = some w → h.baseWindow.IsClear w

theorem KeepsBaseApart.clear {h : Headers} {size : Nat} (hbase : h.KeepsBaseApart size) :
    h.start ≤ 4 ∨ 16 ≤ h.start := by
  have hstart := hbase.start
  unfold baseWindow baseAt Window.IsClear at hstart
  dsimp only at hstart
  omega

end ImageFormat.Headers

namespace Image

open Bytes ImageFormat

variable {i j k : Image} {h : Headers} {f : Fixup} {p q : Pointer} {fixups : List Fixup}
  {ps qs : List Pointer} {a b : UInt64}

/-- A field lies at one place only. -/
theorem IsAt.unique (hp : i.IsAt f p) (hq : i.IsAt f q) : p = q := by
  obtain ⟨offset, isWide⟩ := p
  obtain ⟨offset', isWide'⟩ := q
  obtain ⟨hwide, hoffset, -⟩ := hp
  obtain ⟨hwide', hoffset', -⟩ := hq
  dsimp only at hwide hwide'
  subst hwide hwide'
  cases hoffset.symm.trans hoffset'
  rfl

theorem IsAt.unique_all (hps : List.Forall₂ i.IsAt fixups ps) (hqs : List.Forall₂ i.IsAt fixups qs) :
    ps = qs := by
  induction hps generalizing qs with
  | nil =>
    cases hqs
    rfl
  | cons hp _ ih =>
    obtain _ | ⟨hq, hqs⟩ := hqs
    rw [hp.unique hq, ih hqs]

/-- An image whose addresses share no byte with one another, with the headers or with the base
relocations that list them. -/
structure HasSeparateAddresses (i : Image) (h : Headers) : Prop where
  apart : ∀ fixups, h.fixups i.data = .ok fixups → fixups.Pairwise fun f g ↦ ∀ p q,
    i.IsAt f p → i.IsAt g q → p.window.IsClear q.window
  headers : ∀ fixups, h.fixups i.data = .ok fixups → ∀ f ∈ fixups, ∀ p, i.IsAt f p →
    h.Spares i.data p.window
  relocations : ∀ fixups, h.fixups i.data = .ok fixups → ∀ f ∈ fixups, ∀ p, i.IsAt f p →
    ∀ w, h.relocationWindow? i.data.size = some w → p.window.IsClear w

/-- What is known of the places of addresses that share no bytes. -/
structure AreSeparate (i : Image) (h : Headers) (ps : List Pointer) : Prop where
  inside : ∀ p ∈ ps, p.offset + p.size ≤ i.data.size
  spares : ∀ p ∈ ps, h.Spares i.data p.window
  apart : ps.Pairwise fun p q ↦ p.window.IsClear q.window
  relocations : ∀ p ∈ ps, ∀ w, h.relocationWindow? i.data.size = some w → p.window.IsClear w

theorem HasSeparateAddresses.areSeparate (haddresses : i.HasSeparateAddresses h)
    {all : List Fixup} (hfixups : h.fixups i.data = .ok all) (hsome : fixups.Sublist all)
    (hps : List.Forall₂ i.IsAt fixups ps) : i.AreSeparate h ps where
  inside _ hp := (Pointwise.exists_left hps hp).elim fun _ hf ↦ hf.2.inside
  spares p hp := (Pointwise.exists_left hps hp).elim fun f hf ↦
    haddresses.headers all hfixups f (hsome.subset hf.1) p hf.2
  apart := Pointwise.pairwise hps ((haddresses.apart all hfixups).sublist hsome) fun hp hq happly ↦
    happly _ _ hp hq
  relocations p hp := (Pointwise.exists_left hps hp).elim fun f hf ↦
    haddresses.relocations all hfixups f (hsome.subset hf.1) p hf.2

/-- No address shares a byte with the field for the base. -/
theorem AreSeparate.clear_base (hsep : i.AreSeparate h ps) (hi : i.headers = .ok h)
    (hp : p ∈ ps) : p.window.IsClear h.baseWindow := by
  have hspares := hsep.spares p hp
  have hend := (baseAt_inside (.refl h i) hi 0).1
  have hlen : (ofU64 0).size = 8 := length_ofNumber 8 _
  have hat : h.baseAt = h.start + 24 + 24 := rfl
  have hsize : 0 < p.size := by
    unfold Pointer.size
    split <;> decide
  have hout : ∀ n, h.baseAt ≤ n → n < h.baseAt + 8 → ¬p.window.Contains n := fun n hlo hhi hn ↦
    hspares n hn (Or.inr ⟨by omega, by omega⟩)
  by_contra hclear
  unfold Window.IsClear Headers.baseWindow Pointer.window at hclear
  dsimp only at hclear
  refine hout (max h.baseAt p.offset) (by omega) (by omega) ?_
  unfold Window.Contains Pointer.window
  dsimp only
  omega

/-- Rebasing to the base that an image has leaves it as it is. -/
theorem rebased_self (hi : i.headers = .ok h) (hsep : i.AreSeparate h ps) :
    rebased h h.base ps i.data = i.data := by
  obtain ⟨size, count, number, hin⟩ := Headers.read?_eq_some_iff.mp (headers_eq_ok_iff.mp hi)
  have hfits := (baseAt_inside (.refl h i) hi 0).2
  have hlen : (ofU64 0).size = 8 := length_ofNumber 8 _
  have hbase : ofU64 h.base = i.data.extract h.baseAt (h.baseAt + 8) := by
    have hread := hin.base
    change i.data.u64At? h.baseAt = _ at hread
    rw [u64At?, numberAt?, slice?, if_pos (by omega), Option.map_some, Option.map_some] at hread
    rw [← Option.some.inj hread]
    refine ofU64_number ?_
    rw [Array.size_extract, Nat.min_eq_left (by omega), Nat.add_sub_cancel_left]
  rw [rebased, UInt64.sub_self, Pointer.moveAll_zero hsep.inside, hbase, overwrite_extract (by omega)]

/-- Rebasing an image that was rebased comes to the same as rebasing it at once. -/
theorem rebased_rebased (hi : i.headers = .ok h) (hsep : i.AreSeparate h ps) (a b : UInt64) :
    rebased { h with base := a } b ps (rebased h a ps i.data) = rebased h b ps i.data := by
  have hmoved := Pointer.size_moveAll hsep.inside (a - h.base)
  have hlen : ∀ base, (ofU64 base).size = 8 := fun base ↦ length_ofNumber 8 _
  have hfits : h.baseAt + 8 ≤ i.data.size := hlen a ▸ (baseAt_inside (.refl h i) hi a).2
  have hin : ∀ p ∈ ps, p.offset + p.size ≤ (Pointer.moveAll (a - h.base) ps i.data).size :=
    hmoved.symm ▸ hsep.inside
  have hclear : ∀ p ∈ ps, p.window.IsClear ⟨h.baseAt, (ofU64 a).size⟩ := fun p hp ↦ by
    rw [hlen]
    exact hsep.clear_base hi hp
  have hdistance : a - h.base + (b - a) = b - h.base := by grind
  have hat : Headers.baseAt { h with base := a } = h.baseAt := rfl
  have hroom : h.baseAt + (ofU64 a).size
      ≤ (Pointer.moveAll (b - a) ps (Pointer.moveAll (a - h.base) ps i.data)).size := by
    rw [Pointer.size_moveAll hin, hmoved, hlen]
    exact hfits
  rw [rebased, hat, rebased, Pointer.moveAll_overwrite hin (by rw [hmoved, hlen]; exact hfits) hclear,
    overwrite_overwrite hroom (by rw [hlen, hlen]), Pointer.moveAll_moveAll hsep.inside hsep.apart,
    hdistance, rebased]

/-- A rebased image finds its addresses where they were. -/
theorem fixups_rebased (hi : i.headers = .ok h) (hsep : i.AreSeparate h ps)
    (hbase : h.KeepsBaseApart i.data.size) (a : UInt64) :
    Headers.fixups { h with base := a } (rebased h a ps i.data) = h.fixups i.data := by
  have hsize := size_rebased (.refl h i) hi hsep.inside a
  have hfits := (baseAt_inside (.refl h i) hi a).2
  have hmoved := Pointer.size_moveAll hsep.inside (a - h.base)
  refine Headers.fixups_congr (h := h) hsize fun w hw ↦ ?_
  rw [hsize] at hw
  have hlen : (ofU64 a).size = 8 := length_ofNumber 8 _
  have hclear : (Window.mk h.baseAt (ofU64 a).size).IsClear w := by
    rw [hlen]
    exact hbase.relocations w hw
  refine SameIn.trans (sameIn_overwrite (by rwa [hmoved]) hclear) fun n hn ↦ ?_
  exact Pointer.getElem?_moveAll_of_outside hsep.inside fun p hp hwindow ↦
    (hsep.relocations p hp w hw).not_contains hwindow hn

/-- The tables of a rebased image end where they did. -/
theorem tablesEnd_rebased (hi : i.headers = .ok h) (hsep : i.AreSeparate h ps) (a : UInt64) :
    Headers.tablesEnd { h with base := a } (rebased h a ps i.data) = h.tablesEnd i.data := by
  have hsize := size_rebased (.refl h i) hi hsep.inside a
  have hfits := (baseAt_inside (.refl h i) hi a).2
  have hmoved := Pointer.size_moveAll hsep.inside (a - h.base)
  obtain ⟨size, count, number, hin⟩ := Headers.read?_eq_some_iff.mp (headers_eq_ok_iff.mp hi)
  have hend := Headers.le_tablesEnd hin
  have hat : h.baseAt = h.start + 24 + 24 := rfl
  have hsame : (rebased h a ps i.data).numberAt? (h.start + 20) 2
      = i.data.numberAt? (h.start + 20) 2 := by
    refine numberAt?_congr hsize fun n hn ↦ ?_
    obtain ⟨hlo, hhi⟩ := hn
    dsimp only at hlo hhi
    rw [rebased, getElem?_overwrite_of_outside (by rwa [hmoved]) (by omega)]
    exact Pointer.getElem?_moveAll_of_outside hsep.inside fun p hp hwindow ↦
      hsep.spares p hp n hwindow (Or.inr ⟨by omega, by omega⟩)
  rw [Headers.tablesEnd, Headers.tablesEnd, hsame]

/-- A rebased image can be rebased again, and it comes to the same as rebasing it at once. -/
theorem run_rebase_rebased (hi : i.headers = .ok h) (haddresses : i.HasSeparateAddresses h)
    (hbase : h.KeepsBaseApart i.data.size) (hfixups : h.fixups i.data = .ok fixups)
    (hps : List.Forall₂ i.IsAt fixups ps) (a b : UInt64) :
    (rebase b).run { i with data := rebased h a ps i.data }
      = (.ok (), { i with data := rebased h b ps i.data }) := by
  have hsep := haddresses.areSeparate hfixups (.refl _) hps
  have hheaders : Image.headers { i with data := rebased h a ps i.data }
      = .ok { h with base := a } :=
    ((SharesTables.refl h i).moveAll fun p hp ↦ ⟨hsep.inside p hp, hsep.spares p hp⟩).headers_rebased
      hi hbase.clear a
  have hat : ∀ f p, IsAt { i with data := rebased h a ps i.data } f p ↔ i.IsAt f p := by
    intro f p
    have hoffset := fileOffset_rebased (.refl h i) hi hbase.clear
      (fun p hp ↦ ⟨hsep.inside p hp, hsep.spares p hp⟩) a f.rva p.size
    have hsize := size_rebased (.refl h i) hi hsep.inside a
    exact ⟨fun ⟨hw, ho, hin⟩ ↦ ⟨hw, hoffset ▸ ho, hsize ▸ hin⟩,
      fun ⟨hw, ho, hin⟩ ↦ ⟨hw, hoffset.trans ho, hsize.symm ▸ hin⟩⟩
  have hlisted := (fixups_rebased hi hsep hbase a).trans hfixups
  by_cases hne : a = b
  · subst hne
    exact run_rebase_self (h := { h with base := a }) hheaders
  · refine (run_rebase_eq_ok_iff hheaders hbase.clear (.refl _ _) hne fun fixups' hfixups' f hf p hp ↦
      ?_).mpr ⟨fixups, ps, hlisted, Pointwise.imp_of_mem hps fun f _ p _ ↦ (hat f p).mpr, ?_⟩
    · cases hlisted.symm.trans hfixups'
      intro n hn hoccupied
      refine haddresses.headers fixups hfixups f hf p ((hat f p).mp hp) n hn ?_
      unfold Headers.Occupies at hoccupied ⊢
      rwa [tablesEnd_rebased hi hsep] at hoccupied
    · rw [rebased_rebased hi hsep]

/-- Rebasing an image by way of another base comes to the same as rebasing it at once, and rebasing it
back gives the image back. -/
theorem rebasing_is_path_independent (hi : i.headers = .ok h)
    (haddresses : i.HasSeparateAddresses h) (hbase : h.KeepsBaseApart i.data.size)
    (ha : (rebase a).run i = (.ok (), j)) (hb : (rebase b).run i = (.ok (), k)) :
    (rebase b).run j = (.ok (), k) ∧ (rebase h.base).run j = (.ok (), i) := by
  by_cases hne : h.base = a
  · subst hne
    cases (run_rebase_self hi).symm.trans ha
    exact ⟨hb, run_rebase_self hi⟩
  · obtain ⟨fixups, ps, hfixups, hps, rfl⟩ := (run_rebase_eq_ok_iff hi hbase.clear (.refl h i) hne
      haddresses.headers).mp ha
    have hsep := haddresses.areSeparate hfixups (.refl _) hps
    have hagain := run_rebase_rebased hi haddresses hbase hfixups hps a
    have hback := hagain h.base
    rw [rebased_self hi hsep] at hback
    refine ⟨?_, hback⟩
    by_cases hne' : h.base = b
    · subst hne'
      cases (run_rebase_self hi).symm.trans hb
      exact hback
    · obtain ⟨fixups', ps', hfixups', hps', rfl⟩ := (run_rebase_eq_ok_iff hi hbase.clear (.refl h i)
        hne' haddresses.headers).mp hb
      cases hfixups.symm.trans hfixups'
      cases IsAt.unique_all hps hps'
      exact hagain b

namespace OneAddress

/-- Where the base relocations lie. -/
theorem relocationWindow?_image (isInCode : Bool) :
    (headers isInCode).relocationWindow? (image isInCode).data.size = some ⟨252, 12⟩ := by
  obtain ⟨-, -, -, -, hdirectory, hsections⟩ := (evaluation isInCode).say
  obtain ⟨d, hd, hsays⟩ := Option.map_eq_some_iff.mp hdirectory
  obtain ⟨hrva, hsize⟩ := Prod.mk.inj hsays
  have hplace : (headers isInCode).placeAt? (image isInCode).data.size d.rva = some (252, 12) := by
    have hfound : ((headers isInCode).sections.map fun s ↦ sectionRange? s 0x118).findSome?
        (fun r ↦ r.filter fun r ↦ decide (r.1 + r.2 ≤ (image isInCode).data.size))
        = some (252, 12) := by
      rw [hsections, (evaluation _).size]
      rfl
    rw [List.findSome?_map] at hfound
    rw [hrva]
    exact hfound
  have hne : d.rva ≠ 0 := by
    rw [hrva]
    decide
  rw [Headers.relocationWindow?, hd, Option.bind_some, if_neg hne, hplace, Option.bind_some,
    if_pos hsize.le, hsize]

theorem hasSeparateAddresses_image (isInCode : Bool) :
    (image isInCode).HasSeparateAddresses (headers isInCode) where
  apart fixups hfixups := by
    cases hfixups.symm.trans (evaluation _).layout.1
    exact List.pairwise_singleton ..
  headers := isTidy_image.spares headers_image
  relocations fixups hfixups f hf p hp w hw := by
    rw [eq_pointer_of_isAt hfixups hf hp]
    cases (relocationWindow?_image isInCode).symm.trans hw
    cases isInCode <;> decide

theorem keepsBaseApart_image (isInCode : Bool) :
    (headers isInCode).KeepsBaseApart (image isInCode).data.size := by
  have hwindow : (headers isInCode).baseWindow = ⟨52, 8⟩ := by
    rw [Headers.baseWindow, Headers.baseAt, (evaluation isInCode).say.1]
  refine ⟨?_, fun w hw ↦ ?_⟩
  · rw [hwindow]
    decide
  · cases (relocationWindow?_image isInCode).symm.trans hw
    rw [hwindow]
    decide

/-- The image at one more base. -/
def relocatedAgain (isInCode : Bool) : Image :=
  { image isInCode with
    data := rebased (headers isInCode) 0x13fff0000 [pointer isInCode] (image isInCode).data }

theorem run_rebase_again (isInCode : Bool) :
    (rebase 0x13fff0000).run (image isInCode) = (.ok (), relocatedAgain isInCode) := by
  refine (run_rebase_eq_ok_iff headers_image isTidy_image.clear (.refl _ _) ?_
    (isTidy_image.spares headers_image)).mpr ⟨_, _, (evaluation _).layout.1, .cons isAt_pointer .nil, rfl⟩
  rw [(evaluation _).say.2.2.1]
  decide

/-- An image with an address in its code is rebased by way of another base and back. -/
theorem rebasing_by_way_of_another_base :
    (image true).headers = .ok (headers true) ∧
    (image true).HasSeparateAddresses (headers true) ∧
    (headers true).KeepsBaseApart (image true).data.size ∧
    (rebase 0x140010000).run (image true) = (.ok (), relocated true) ∧
    (rebase 0x13fff0000).run (image true) = (.ok (), relocatedAgain true) ∧
    (rebase 0x13fff0000).run (relocated true) = (.ok (), relocatedAgain true) ∧
    (rebase (headers true).base).run (relocated true) = (.ok (), image true) :=
  ⟨headers_image, hasSeparateAddresses_image true, keepsBaseApart_image true, run_rebase,
    run_rebase_again true, rebasing_is_path_independent headers_image
      (hasSeparateAddresses_image true) (keepsBaseApart_image true) run_rebase
      (run_rebase_again true)⟩

end OneAddress

namespace SharedBase

deriving instance DecidableEq for Directory, Coff.SectionHeader

/-- A byte and seven zeros. -/
def word (b : UInt8) : List UInt8 := [b, 0, 0, 0, 0, 0, 0, 0]

/-- What stands before the field for the base. -/
def front : List UInt8 :=
  List.flatten [[0x4d, 0x5a, 0, 0, 0x50, 0x45, 0, 0, 0, 0, 1, 0], List.replicate 12 0,
    [160, 0, 0, 0, 0x0b, 0x02], List.replicate 22 0]

/-- What stands between the field for the base and the addresses. -/
def middle : List UInt8 :=
  List.flatten [[4, 0, 0, 0, 0xb0, 0xa0, 0, 0], List.replicate 16 0, [0, 0x20, 0, 0, 228, 0, 0, 0],
    List.replicate 44 0, [6, 0, 0, 0], List.replicate 40 0, [0, 0x10, 0, 0, 16, 0, 0, 0],
    [0x2e, 0x74, 0x65, 0x78, 0x74, 0, 0, 0], [208, 0, 0, 0, 0, 0x10, 0, 0, 208, 0, 0, 0, 52, 0, 0, 0],
    List.replicate 16 0]

/-- An image whose field for the base is also the start of its base relocations: it says which page
they are for. Of the two addresses behind the tables they list the one on that page. -/
def listing (page first second : UInt8) : Image :=
  ⟨⟨"/m"⟩, (front ++ ([page, 0x10, 0, 0, 16, 0, 0, 0] ++ (middle ++ (word first ++ (word 0
    ++ (word second ++ word 0)))))).toArray⟩

/-- The image at its first base or at another one. -/
def image (isRebased : Bool) : Image := if isRebased then listing 0x10 0x10 0 else listing 0 0 0

/-- The headers of the image. -/
def headers (isRebased : Bool) : Headers where
  start := 4
  symbolPointer := 0
  symbolCount := 0
  entryPoint := 0
  base := if isRebased then 0x1000001010 else 0x1000001000
  imageSize := 0x2000
  headersSize := 228
  directories := List.replicate 5 ⟨0, 0⟩ ++ [⟨0x1000, 16⟩]
  sections := [⟨[0x2e, 0x74, 0x65, 0x78, 0x74, 0, 0, 0], 208, 0x1000, 208, 52, 0, 0, 0⟩]

/-- The address that is listed. -/
def fixup (isRebased : Bool) : Fixup := ⟨if isRebased then 0x10c0 else 0x10b0, true⟩

/-- Where it lies in the file. -/
def pointer (isRebased : Bool) : Pointer := ⟨if isRebased then 244 else 228, true⟩

/-- What the headers are, and what lies where in the file. -/
class Evaluation (isRebased : Bool) : Prop where
  headers : (image isRebased).headers = .ok (headers isRebased)
  size : (image isRebased).data.size = 260
  layout : (SharedBase.headers isRebased).fixups (image isRebased).data = .ok [fixup isRebased] ∧
    (SharedBase.headers isRebased).range? (fixup isRebased).rva
      = some ((pointer isRebased).offset, if isRebased then 16 else 32) ∧
    (SharedBase.headers isRebased).tablesEnd (image isRebased).data = 228 ∧
    (SharedBase.headers isRebased).relocationWindow? 260 = some ⟨52, 16⟩

instance evaluation (isRebased : Bool) : Evaluation isRebased where
  headers := by
    refine headers_eq_ok_iff.mpr (Headers.read?_eq_some_iff.mpr ⟨160, 6, 1, ?_⟩)
    cases isRebased <;> constructor <;> decide +kernel
  size := by cases isRebased <;> decide +kernel
  layout := by cases isRebased <;> decide +kernel

theorem isAt_pointer (isRebased : Bool) :
    (image isRebased).IsAt (fixup isRebased) (pointer isRebased) := by
  refine ⟨rfl, ?_, ?_⟩
  · unfold fileOffset
    rw [(evaluation isRebased).headers]
    change (if _ then _ else _) = _
    rw [if_neg (by cases isRebased <;> decide), (evaluation isRebased).layout.2.1]
    cases isRebased <;> rfl
  · rw [(evaluation isRebased).size]
    cases isRebased <;> decide

theorem hasSeparateAddresses_image (isRebased : Bool) :
    (image isRebased).HasSeparateAddresses (headers isRebased) := by
  have heq : ∀ fixups, (headers isRebased).fixups (image isRebased).data = .ok fixups →
      fixups = [fixup isRebased] := fun fixups hfixups ↦
    Except.ok.inj (hfixups.symm.trans (evaluation isRebased).layout.1)
  refine ⟨fun fixups hfixups ↦ ?_, fun fixups hfixups f hf p hp ↦ ?_,
    fun fixups hfixups f hf p hp w hw ↦ ?_⟩
  · rw [heq fixups hfixups]
    exact List.pairwise_singleton ..
  · rw [heq fixups hfixups] at hf
    cases List.mem_singleton.mp hf
    rw [hp.unique (isAt_pointer isRebased)]
    refine Headers.spares_of_le (headers_eq_ok_iff.mp (evaluation isRebased).headers) ?_
    rw [(evaluation isRebased).layout.2.2.1]
    cases isRebased <;> decide
  · rw [heq fixups hfixups] at hf
    cases List.mem_singleton.mp hf
    rw [hp.unique (isAt_pointer isRebased)]
    rw [(evaluation isRebased).size, (evaluation isRebased).layout.2.2.2] at hw
    cases hw
    cases isRebased <;> decide

/-- Rebasing moves the address that is listed. -/
theorem run_rebase_image (isRebased : Bool) {base : UInt64} {i : Image}
    (hne : (headers isRebased).base ≠ base) (hpath : i.path = ⟨"/m"⟩)
    (hdata : rebased (headers isRebased) base [pointer isRebased] (image isRebased).data = i.data) :
    (rebase base).run (image isRebased) = (.ok (), i) := by
  refine (run_rebase_eq_ok_iff (evaluation isRebased).headers (Or.inl (Nat.le_refl 4)) (.refl _ _) hne
    (hasSeparateAddresses_image isRebased).headers).mpr
      ⟨_, _, (evaluation isRebased).layout.1, .cons (isAt_pointer isRebased) .nil, ?_⟩
  obtain ⟨path, data⟩ := i
  subst hpath hdata
  cases isRebased <;> rfl

/-- What rebasing changes in the file. -/
theorem rebased_append {h : Headers} {p : Pointer} {a w b f c : List UInt8} (base : UInt64)
    (hbase : h.baseAt = a.length) (hw : w.length = 8) (hat : p.offset = (a ++ w ++ b).length)
    (hsize : p.size = f.length) :
    rebased h base [p] (a ++ (w ++ (b ++ (f ++ c)))).toArray
      = (a ++ (ofNumber 8 base.toNat ++ (b ++ (added f (base - h.base).toNat ++ c)))).toArray := by
  have hmove := Pointer.move_middle (a ++ w ++ b) c hat hsize (base - h.base)
  have hlength : (ofNumber 8 base.toNat).length = w.length := by rw [length_ofNumber, hw]
  have hwrite := overwrite_middle a w (b ++ (added f (base - h.base).toNat ++ c)) hlength
  simp only [List.append_assoc] at hmove hwrite
  change (p.move (base - h.base) _).overwrite h.baseAt (ofU64 base) = _
  rw [hmove, hbase]
  exact hwrite

theorem rebased_image (base : UInt64) :
    rebased (headers false) base [pointer false] (image false).data
        = (front ++ (ofNumber 8 base.toNat ++ (middle ++ (added (word 0) (base - 0x1000001000).toNat
          ++ (word 0 ++ (word 0 ++ word 0)))))).toArray ∧
    rebased (headers true) base [pointer true] (image true).data
        = (front ++ (ofNumber 8 base.toNat ++ ((middle ++ (word 0x10 ++ word 0))
          ++ (added (word 0) (base - 0x1000001010).toNat ++ word 0)))).toArray := by
  constructor
  · exact rebased_append base rfl rfl rfl rfl
  · have hdata : (image true).data = (front ++ ([0x10, 0x10, 0, 0, 16, 0, 0, 0]
        ++ ((middle ++ (word 0x10 ++ word 0)) ++ (word 0 ++ word 0)))).toArray := by
      simp only [List.append_assoc]
      rfl
    rw [hdata]
    exact rebased_append base rfl rfl rfl rfl

/-- What stands before the field for the base that ends in the number for the second header. -/
def head : List UInt8 :=
  List.flatten [[0x4d, 0x5a, 0, 0, 0, 0, 0, 0, 0x50, 0x45, 0, 0], List.replicate 16 0,
    [112, 0, 0, 0, 0x0b, 0x02], List.replicate 22 0]

/-- An image whose field for the base ends in the number that says where the second header starts. It
lists no addresses. -/
def start (low high : UInt8) : Image :=
  ⟨⟨"/m"⟩, (head ++ [low, 0, 0, 0, high, 0, 0, 0] ++ List.replicate 80 0).toArray⟩

/-- The headers of the image whose second header starts where its base says. -/
def startHeaders : Headers where
  start := 8
  symbolPointer := 0
  symbolCount := 0
  entryPoint := 0
  base := 0x800000000
  imageSize := 0
  headersSize := 0
  directories := []
  sections := []

theorem headers_start : (start 0 8).headers = .ok startHeaders := by
  refine headers_eq_ok_iff.mpr (Headers.read?_eq_some_iff.mpr ⟨112, 0, 0, ?_⟩)
  constructor <;> decide +kernel

theorem hasSeparateAddresses_start : (start 0 8).HasSeparateAddresses startHeaders where
  apart fixups hfixups := by
    cases hfixups
    exact .nil
  headers fixups hfixups f hf := by
    cases hfixups
    cases hf
  relocations fixups hfixups f hf := by
    cases hfixups
    cases hf

/-- Rebasing writes the base. -/
theorem run_rebase_start {base : UInt64} {i : Image} (hne : startHeaders.base ≠ base)
    (hi : i = ⟨⟨"/m"⟩, (head ++ ofNumber 8 base.toNat ++ List.replicate 80 0).toArray⟩) :
    (rebase base).run (start 0 8) = (.ok (), i) := by
  have hdata : (start 0 8).data.overwrite startHeaders.baseAt (ofU64 base)
      = (head ++ ofNumber 8 base.toNat ++ List.replicate 80 0).toArray :=
    overwrite_middle head _ _ (length_ofNumber ..)
  unfold rebase
  rw [run_bind, run_get]
  dsimp only
  rw [run_bind, run_lift, headers_start]
  dsimp only
  rw [if_neg hne, hi, ← hdata]
  rfl

/-- Rebasing by way of another base gives another image, or none at all, when the field for the base
tells which addresses there are or where the second header starts. -/
theorem rebasing_by_way_of_another_base_differs :
    ((image false).headers = .ok (headers false) ∧
      (image false).HasSeparateAddresses (headers false) ∧
      (rebase 0x1000001010).run (image false) = (.ok (), listing 0x10 0x10 0) ∧
      (rebase 0x1000001020).run (image false) = (.ok (), listing 0x20 0x20 0) ∧
      (rebase 0x1000001020).run (listing 0x10 0x10 0) = (.ok (), listing 0x20 0x10 0x10)) ∧
    (start 0 8).headers = .ok startHeaders ∧
      (start 0 8).HasSeparateAddresses startHeaders ∧
      (rebase 0x900000000).run (start 0 8) = (.ok (), start 0 9) ∧
      (rebase 0x800000001).run (start 0 8) = (.ok (), start 1 8) ∧
      (rebase 0x800000001).run (start 0 9) = (.error (.error Cause.malformed.toError), start 0 9) := by
  have hnumber : ofNumber 8 (0x1000001010 : UInt64).toNat = [0x10, 0x10, 0, 0, 16, 0, 0, 0] ∧
      ofNumber 8 (0x1000001020 : UInt64).toNat = [0x20, 0x10, 0, 0, 16, 0, 0, 0] ∧
      added (word 0) ((0x1000001010 : UInt64) - 0x1000001000).toNat = word 0x10 ∧
      added (word 0) ((0x1000001020 : UInt64) - 0x1000001000).toNat = word 0x20 ∧
      added (word 0) ((0x1000001020 : UInt64) - 0x1000001010).toNat = word 0x10 := by
    decide
  obtain ⟨hbase, hbase', hword, hword', hword''⟩ := hnumber
  refine ⟨⟨(evaluation false).headers, hasSeparateAddresses_image false, ?_, ?_, ?_⟩, headers_start,
    hasSeparateAddresses_start, ?_, ?_, ?_⟩
  · refine run_rebase_image false (by decide) rfl ?_
    rw [(rebased_image _).1, hbase, hword]
    rfl
  · refine run_rebase_image false (by decide) rfl ?_
    rw [(rebased_image _).1, hbase', hword']
    rfl
  · refine run_rebase_image true (by decide) rfl ?_
    rw [(rebased_image _).2, hbase', hword'']
    simp only [List.append_assoc]
    rfl
  · exact run_rebase_start (by decide) rfl
  · exact run_rebase_start (by decide) rfl
  · have hnone : Headers.read? .wide (start 0 9).data = none := by
      rw [← Option.not_isSome_iff_eq_none]
      decide +kernel
    have hheaders : (start 0 9).headers = .error (.error Cause.malformed.toError) := by
      rw [Image.headers, hnone]
      rfl
    unfold rebase
    rw [run_bind, run_get]
    dsimp only
    rw [run_bind, run_lift, hheaders]

end SharedBase

end Image
end LivePatch
