import LivePatch.Images.Image
import LivePatch.Proofs.Coff.Records
import LivePatch.Proofs.X86.Jumps
import Mathlib.Algebra.Group.Nat.Defs

/-!
# Moving absolute addresses

Moving an address adds a distance to its bytes, with a carry from each byte to the next. A byte that
stays as it was has passed on a carry that does not depend on what it was. So when all bytes at
certain places of a file stay as they were while the addresses in it are moved, they would also have
stayed if they had been others, and the bytes around them come out the same. Distances add up, and
addresses that share no bytes are moved independently of one another.
-/

namespace LivePatch

namespace Bytes

/-- Bytes of a number, where what does not fit makes no difference. -/
theorem ofNumber_congr {width n m : Nat} (h : n % 256 ^ width = m % 256 ^ width) :
    ofNumber width n = ofNumber width m := by
  induction width generalizing n m with
  | zero => rfl
  | succ width ih =>
    rw [Nat.pow_succ'] at h
    have hlow : n % 256 = m % 256 := by
      rw [← Nat.mod_mul_right_mod n 256 (256 ^ width), h, Nat.mod_mul_right_mod]
    have hhigh : n / 256 % 256 ^ width = m / 256 % 256 ^ width := by
      rw [← Nat.mod_mul_right_div_self, h, Nat.mod_mul_right_div_self]
    have hfirst : UInt8.ofNat n = UInt8.ofNat m := by
      rw [← UInt8.toNat_inj, UInt8.toNat_ofNat', UInt8.toNat_ofNat', hlow]
    rw [ofNumber, ofNumber, hfirst, ih hhigh]

/-- The bytes of a number to which a distance was added. -/
def added (bytes : List UInt8) (distance : Nat) : List UInt8 :=
  ofNumber bytes.length (number bytes + distance)

theorem added_cons (b : UInt8) (rest : List UInt8) (distance : Nat) :
    added (b :: rest) distance
      = UInt8.ofNat (b.toNat + distance) :: added rest ((b.toNat + distance) / 256) := by
  have hfirst : UInt8.ofNat (b.toNat + 256 * number rest + distance)
      = UInt8.ofNat (b.toNat + distance) := by
    rw [← UInt8.toNat_inj, UInt8.toNat_ofNat', UInt8.toNat_ofNat']
    omega
  have hrest : (b.toNat + 256 * number rest + distance) / 256
      = number rest + (b.toNat + distance) / 256 := by omega
  rw [added, number, List.length_cons, ofNumber, hfirst, hrest, added]

/-- Bytes that stay as they were while a distance is added would also have stayed if they had been
others, and the bytes around them come out the same. -/
theorem added_agrees {x y : List UInt8} {P : Nat → Prop} (distance : Nat)
    (hlength : x.length = y.length) (hsame : ∀ j, ¬P j → x[j]? = y[j]?)
    (hstays : ∀ j, P j → (added x distance)[j]? = x[j]?) :
    (∀ j, P j → (added y distance)[j]? = y[j]?) ∧
      ∀ j, ¬P j → (added x distance)[j]? = (added y distance)[j]? := by
  induction x generalizing y P distance with
  | nil =>
    obtain rfl := List.length_eq_zero_iff.mp hlength.symm
    exact ⟨hstays, fun _ _ ↦ rfl⟩
  | cons b x ih =>
    obtain ⟨c, y, rfl⟩ := List.exists_cons_of_length_eq_add_one hlength.symm
    rw [added_cons] at hstays ⊢
    rw [added_cons]
    have hb := b.toNat_lt
    have hc := c.toNat_lt
    -- the carry out of the first byte is the same for both
    have hcarry : (b.toNat + distance) / 256 = (c.toNat + distance) / 256 ∧
        (P 0 → UInt8.ofNat (c.toNat + distance) = c) ∧
        (¬P 0 → UInt8.ofNat (b.toNat + distance) = UInt8.ofNat (c.toNat + distance)) := by
      by_cases hP : P 0
      · have hfirst := Option.some.inj (hstays 0 hP)
        rw [← UInt8.toNat_inj, UInt8.toNat_ofNat'] at hfirst
        refine ⟨by omega, fun _ ↦ ?_, fun h ↦ (h hP).elim⟩
        rw [← UInt8.toNat_inj, UInt8.toNat_ofNat']
        omega
      · obtain rfl := Option.some.inj (hsame 0 hP)
        exact ⟨rfl, fun h ↦ (hP h).elim, fun _ ↦ rfl⟩
    obtain ⟨hrest, hfirst, hfirst'⟩ := hcarry
    obtain ⟨hin, hout⟩ := ih _ (P := fun j ↦ P (j + 1)) (Nat.succ.inj hlength)
      (fun j hj ↦ hsame (j + 1) hj) fun j hj ↦ hstays (j + 1) hj
    rw [hrest] at hin hout
    constructor
    · rintro (_ | j) hj
      · exact congrArg some (hfirst hj)
      · exact hin j hj
    · rintro (_ | j) hj
      · exact congrArg some (hfirst' hj)
      · rw [hrest]
        exact hout j hj

/-- Parts of a file that share no byte are replaced independently. -/
theorem overwrite_comm {b new new' : Bytes} {offset offset' : Nat}
    (hin : offset + new.size ≤ b.size) (hin' : offset' + new'.size ≤ b.size)
    (hclear : (Window.mk offset new.size).IsClear ⟨offset', new'.size⟩) :
    (b.overwrite offset new).overwrite offset' new'
      = (b.overwrite offset' new').overwrite offset new := by
  have hfirst : offset' + new'.size ≤ (b.overwrite offset new).size := by rwa [size_overwrite hin]
  have hsecond : offset + new.size ≤ (b.overwrite offset' new').size := by rwa [size_overwrite hin']
  refine Array.ext_getElem? fun n ↦ ?_
  by_cases hn : (Window.mk offset new.size).Contains n
  · have hn' := hclear.not_contains hn
    unfold Window.Contains at hn hn'
    dsimp only at hn hn'
    rw [getElem?_overwrite_of_outside hfirst (by omega), getElem?_overwrite_of_inside hin hn.1 hn.2,
      getElem?_overwrite_of_inside hsecond hn.1 hn.2]
  · unfold Window.Contains at hn
    dsimp only at hn
    rw [getElem?_overwrite_of_outside hsecond (by omega)]
    by_cases hn' : offset' ≤ n ∧ n < offset' + new'.size
    · rw [getElem?_overwrite_of_inside hfirst hn'.1 hn'.2,
        getElem?_overwrite_of_inside hin' hn'.1 hn'.2]
    · rw [getElem?_overwrite_of_outside hfirst (by omega),
        getElem?_overwrite_of_outside hin (by omega), getElem?_overwrite_of_outside hin' (by omega)]

/-- What is replaced twice is what it was replaced with last. -/
theorem overwrite_overwrite {b new new' : Bytes} {offset : Nat} (hin : offset + new.size ≤ b.size)
    (hsize : new'.size = new.size) :
    (b.overwrite offset new).overwrite offset new' = b.overwrite offset new' := by
  have hin' : offset + new'.size ≤ b.size := hsize ▸ hin
  have hfirst : offset + new'.size ≤ (b.overwrite offset new).size := by rwa [size_overwrite hin]
  refine Array.ext_getElem? fun n ↦ ?_
  by_cases hn : offset ≤ n ∧ n < offset + new'.size
  · rw [getElem?_overwrite_of_inside hfirst hn.1 hn.2, getElem?_overwrite_of_inside hin' hn.1 hn.2]
  · rw [getElem?_overwrite_of_outside hfirst (by omega), getElem?_overwrite_of_outside hin (by omega),
      getElem?_overwrite_of_outside hin' (by omega)]

/-- A part of a file depends on its own bytes only. -/
theorem extract_congr {b b' : Bytes} {offset len : Nat} (hsize : b.size = b'.size)
    (hin : offset + len ≤ b'.size) (h : SameIn b b' ⟨offset, len⟩) :
    b.extract offset (offset + len) = b'.extract offset (offset + len) := by
  have hslice := slice?_congr hsize h
  rw [slice?, slice?, if_pos hin, if_pos (by omega)] at hslice
  exact Option.some.inj hslice

theorem extract_middle (a b c : List UInt8) :
    (a ++ b ++ c).toArray.extract a.length (a.length + b.length) = b.toArray := by
  rw [List.extract_toArray, List.extract_eq_take_drop, List.append_assoc, List.drop_left,
    Nat.add_sub_cancel_left, List.take_left]

theorem overwrite_middle (a b c : List UInt8) {new : List UInt8} (hlength : new.length = b.length) :
    overwrite (a ++ b ++ c).toArray a.length new.toArray = (a ++ new ++ c).toArray := by
  have hstart : (a ++ b ++ c).toArray.extract 0 a.length = a.toArray := by
    rw [List.extract_toArray, List.extract_eq_take_drop, List.append_assoc, List.drop_zero,
      Nat.sub_zero, List.take_left]
  have hend : (a ++ b ++ c).toArray.extract (a.length + new.length) (a ++ b ++ c).length
      = c.toArray := by
    rw [List.extract_toArray, List.extract_eq_take_drop, hlength, ← List.length_append,
      List.drop_left, List.length_append, Nat.add_sub_cancel_left, List.take_length]
  rw [overwrite, List.size_toArray, List.size_toArray, hstart, hend, List.append_toArray,
    List.append_toArray]

/-- Distances that are added to a number add up. -/
theorem added_added (x : List UInt8) (d e : Nat) : added (added x d) e = added x (d + e) := by
  unfold added
  rw [length_ofNumber, number_ofNumber, Nat.pow_eq]
  refine ofNumber_congr ?_
  rw [Nat.mod_add_mod, Nat.add_assoc]

/-- What does not fit of a distance makes no difference. -/
theorem added_congr {x : List UInt8} {d e : Nat} (h : d % 256 ^ x.length = e % 256 ^ x.length) :
    added x d = added x e :=
  ofNumber_congr (by rw [Nat.add_mod, h, ← Nat.add_mod])

theorem added_zero (x : List UInt8) : added x 0 = x := ofNumber_number x

/-- A distance leaves a number as it was when none of it fits. -/
theorem added_eq_self_iff {x : List UInt8} {d : Nat} : added x d = x ↔ d % 256 ^ x.length = 0 := by
  have hmod : number x % 256 ^ x.length = number x := by
    rw [← Nat.pow_eq, ← number_ofNumber, ofNumber_number]
  constructor
  · intro heq
    have hnumber := congrArg number heq
    rw [added, number_ofNumber, Nat.pow_eq] at hnumber
    have hdistance := Nat.sub_mod_eq_zero_of_mod_eq (hnumber.trans hmod.symm)
    rwa [Nat.add_sub_cancel_left] at hdistance
  · intro hd
    rw [added_congr (hd.trans (Nat.zero_mod _).symm), added_zero]

theorem slice?_eq_none_iff {b : Bytes} {offset len : Nat} :
    b.slice? offset len = none ↔ b.size < offset + len := by
  unfold slice?
  split
  · exact ⟨(fun h ↦ by cases h), fun h ↦ by omega⟩
  · exact ⟨fun _ ↦ by omega, fun _ ↦ rfl⟩

end Bytes

namespace Image

open Bytes

/-- A field that is moved holds the bytes of its number with the distance added. -/
theorem moved_eq {field : Bytes} {isWide : Bool} (delta : UInt64)
    (hsize : field.size = if isWide then 8 else 4) :
    moved field isWide delta = (added field.toList delta.toNat).toArray := by
  cases isWide with
  | true =>
    rw [moved, if_pos rfl, ofU64, added, Array.length_toList, hsize]
    refine congrArg List.toArray (ofNumber_congr ?_)
    rw [UInt64.toNat_add, UInt64.toNat_ofNat']
    omega
  | false =>
    rw [moved, if_neg (by decide), ofU32, added, Array.length_toList, hsize]
    refine congrArg List.toArray (ofNumber_congr ?_)
    rw [UInt32.toNat_add, UInt32.toNat_ofNat', UInt64.toNat_toUInt32]
    omega

/-- A field that is moved twice is moved by both distances. -/
theorem moved_moved {field : Bytes} {isWide : Bool} (d e : UInt64)
    (hsize : field.size = if isWide then 8 else 4) :
    moved (moved field isWide d) isWide e = moved field isWide (d + e) := by
  have hlength : field.toList.length = if isWide then 8 else 4 := by rw [Array.length_toList, hsize]
  have hmoved : (moved field isWide d).size = if isWide then 8 else 4 := by
    rw [moved_eq d hsize, List.size_toArray, added, length_ofNumber, hlength]
  rw [moved_eq e hmoved, moved_eq d hsize, moved_eq (d + e) hsize, added_added, UInt64.toNat_add]
  refine congrArg List.toArray (added_congr ?_)
  rw [hlength]
  cases isWide with
  | true => exact (Nat.mod_mod_of_dvd _ (by decide)).symm
  | false => exact (Nat.mod_mod_of_dvd _ (by decide)).symm

theorem moved_zero {field : Bytes} {isWide : Bool} (hsize : field.size = if isWide then 8 else 4) :
    moved field isWide 0 = field := by
  rw [moved_eq 0 hsize, show (0 : UInt64).toNat = 0 from rfl, added_zero]

/-- An absolute address in the file of an image. -/
structure Pointer where
  offset : Nat
  isWide : Bool
  deriving DecidableEq, Repr

namespace Pointer

/-- Bytes that the address takes. -/
def size (p : Pointer) : Nat := if p.isWide then 8 else 4

/-- The part of the file that the address takes. -/
def window (p : Pointer) : Window := ⟨p.offset, p.size⟩

/-- The file with the address moved. -/
def move (delta : UInt64) (p : Pointer) (data : Bytes) : Bytes :=
  data.overwrite p.offset (moved (data.extract p.offset (p.offset + p.size)) p.isWide delta)

variable {p q : Pointer} {ps : List Pointer} {data data' : Bytes} {delta : UInt64}

theorem size_field (hin : p.offset + p.size ≤ data.size) :
    (data.extract p.offset (p.offset + p.size)).size = p.size := by
  rw [Array.size_extract]
  omega

theorem moved_field (hin : p.offset + p.size ≤ data.size) (delta : UInt64) :
    moved (data.extract p.offset (p.offset + p.size)) p.isWide delta
      = (added (data.extract p.offset (p.offset + p.size)).toList delta.toNat).toArray :=
  moved_eq delta (size_field hin)

theorem size_moved (hin : p.offset + p.size ≤ data.size) (delta : UInt64) :
    (moved (data.extract p.offset (p.offset + p.size)) p.isWide delta).size = p.size := by
  rw [moved_field hin, List.size_toArray, added, length_ofNumber, Array.length_toList,
    size_field hin]

theorem size_move (hin : p.offset + p.size ≤ data.size) (delta : UInt64) :
    (p.move delta data).size = data.size :=
  size_overwrite (by rwa [size_moved hin])

/-- Moving an address leaves the rest of the file alone. -/
theorem getElem?_move_of_outside (hin : p.offset + p.size ≤ data.size) (delta : UInt64) {i : Nat}
    (hi : ¬p.window.Contains i) : (p.move delta data)[i]? = data[i]? := by
  unfold Window.Contains window at hi
  dsimp only at hi
  refine getElem?_overwrite_of_outside (by rwa [size_moved hin]) ?_
  rw [size_moved hin]
  omega

/-- The bytes of an address that is moved. -/
theorem getElem?_move_of_inside (hin : p.offset + p.size ≤ data.size) (delta : UInt64) {j : Nat}
    (hj : j < p.size) : (p.move delta data)[p.offset + j]?
      = (added (data.extract p.offset (p.offset + p.size)).toList delta.toNat)[j]? := by
  unfold move
  rw [getElem?_overwrite_of_inside (by rwa [size_moved hin]) (Nat.le_add_right ..)
    (by rw [size_moved hin]; omega), Nat.add_sub_cancel_left, moved_field hin, List.getElem?_toArray]

/-- If bytes at certain places stay as they were while an address is moved, they also stay in a
file that differs at these places, and the files differ at no others afterwards. -/
theorem move_agrees {P : Nat → Prop} (hin : p.offset + p.size ≤ data.size)
    (hsize : data'.size = data.size) (hsame : ∀ i, ¬P i → data[i]? = data'[i]?)
    (hstays : ∀ i, P i → (p.move delta data)[i]? = data[i]?) :
    (∀ i, P i → (p.move delta data')[i]? = data'[i]?) ∧
      ∀ i, ¬P i → (p.move delta data)[i]? = (p.move delta data')[i]? := by
  have hin' : p.offset + p.size ≤ data'.size := hsize ▸ hin
  have hfield : ∀ {b : Bytes} {j}, p.offset + p.size ≤ b.size → j < p.size →
      (b.extract p.offset (p.offset + p.size)).toList[j]? = b[p.offset + j]? := fun hb hj ↦ by
    rw [Array.getElem?_toList, Array.getElem?_extract, if_pos (by omega)]
  have hbehind : ∀ {b : Bytes} {j}, p.offset + p.size ≤ b.size → p.size ≤ j →
      (b.extract p.offset (p.offset + p.size)).toList[j]? = none ∧
      (added (b.extract p.offset (p.offset + p.size)).toList delta.toNat)[j]? = none := by
    intro b j hb hj
    rw [List.getElem?_eq_none_iff, List.getElem?_eq_none_iff, added, length_ofNumber,
      Array.length_toList, size_field hb]
    exact ⟨hj, hj⟩
  have hinside : ∀ {i}, p.window.Contains i → i - p.offset < p.size ∧ p.offset + (i - p.offset) = i :=
    fun {i} hi ↦ by
      unfold Window.Contains window at hi
      dsimp only at hi
      omega
  obtain ⟨hstay, hagree⟩ := added_agrees delta.toNat
    (P := fun j ↦ j < p.size ∧ P (p.offset + j))
    (x := (data.extract p.offset (p.offset + p.size)).toList)
    (y := (data'.extract p.offset (p.offset + p.size)).toList)
    (by rw [Array.length_toList, Array.length_toList, size_field hin, size_field hin'])
    (fun j hj ↦ by
      by_cases hlt : j < p.size
      · rw [hfield hin hlt, hfield hin' hlt]
        exact hsame _ fun hP ↦ hj ⟨hlt, hP⟩
      · rw [(hbehind hin (Nat.le_of_not_lt hlt)).1, (hbehind hin' (Nat.le_of_not_lt hlt)).1])
    (fun j hj ↦ by
      rw [← getElem?_move_of_inside hin delta hj.1, hfield hin hj.1]
      exact hstays _ hj.2)
  constructor
  · intro i hi
    by_cases hwindow : p.window.Contains i
    · obtain ⟨hlt, hback⟩ := hinside hwindow
      have hj := hstay (i - p.offset) ⟨hlt, by rwa [hback]⟩
      rwa [← getElem?_move_of_inside hin' delta hlt, hfield hin' hlt, hback] at hj
    · exact getElem?_move_of_outside hin' delta hwindow
  · intro i hi
    by_cases hwindow : p.window.Contains i
    · obtain ⟨hlt, hback⟩ := hinside hwindow
      have hj := hagree (i - p.offset) fun h ↦ hi (hback ▸ h.2)
      rwa [← getElem?_move_of_inside hin delta hlt, ← getElem?_move_of_inside hin' delta hlt,
        hback] at hj
    · rw [getElem?_move_of_outside hin delta hwindow, getElem?_move_of_outside hin' delta hwindow]
      exact hsame i hi

/-- The file with all of some addresses moved, one after another. -/
def moveAll (delta : UInt64) (ps : List Pointer) (data : Bytes) : Bytes :=
  ps.foldl (fun data p ↦ p.move delta data) data

theorem size_moveAll (hin : ∀ p ∈ ps, p.offset + p.size ≤ data.size) (delta : UInt64) :
    (moveAll delta ps data).size = data.size := by
  induction ps generalizing data with
  | nil => rfl
  | cons p ps ih =>
    obtain ⟨hfirst, hrest⟩ := List.forall_mem_cons.mp hin
    have hsize := size_move hfirst delta
    exact (ih fun q hq ↦ hsize ▸ hrest q hq).trans hsize

/-- Moving addresses leaves the rest of the file alone. -/
theorem getElem?_moveAll_of_outside (hin : ∀ p ∈ ps, p.offset + p.size ≤ data.size) {i : Nat}
    (hi : ∀ p ∈ ps, ¬p.window.Contains i) : (moveAll delta ps data)[i]? = data[i]? := by
  induction ps generalizing data with
  | nil => rfl
  | cons p ps ih =>
    obtain ⟨hfirst, hrest⟩ := List.forall_mem_cons.mp hin
    obtain ⟨hout, hout'⟩ := List.forall_mem_cons.mp hi
    have hsize := size_move hfirst delta
    exact (ih (fun q hq ↦ hsize ▸ hrest q hq) hout').trans (getElem?_move_of_outside hfirst delta hout)

/-- If bytes at certain places stay as they were while addresses are moved that share no bytes, they
also stay in a file that differs at these places, and the files differ at no others afterwards. -/
theorem moveAll_agrees {P : Nat → Prop} (hin : ∀ p ∈ ps, p.offset + p.size ≤ data.size)
    (hclear : ps.Pairwise fun p q ↦ p.window.IsClear q.window) (hsize : data'.size = data.size)
    (hsame : ∀ i, ¬P i → data[i]? = data'[i]?)
    (hstays : ∀ i, P i → (moveAll delta ps data)[i]? = data[i]?) :
    (∀ i, P i → (moveAll delta ps data')[i]? = data'[i]?) ∧
      ∀ i, ¬P i → (moveAll delta ps data)[i]? = (moveAll delta ps data')[i]? := by
  induction ps generalizing data data' with
  | nil => exact ⟨fun _ _ ↦ rfl, hsame⟩
  | cons p ps ih =>
    obtain ⟨hfirst, hrest⟩ := List.forall_mem_cons.mp hin
    obtain ⟨hclear, hpairwise⟩ := List.pairwise_cons.mp hclear
    have hmoved := size_move hfirst delta
    have hmoved' := size_move (hsize ▸ hfirst) delta
    have hin' : ∀ q ∈ ps, q.offset + q.size ≤ (p.move delta data).size :=
      fun q hq ↦ hmoved ▸ hrest q hq
    -- no later address shares a byte with the first, so its bytes are final once it is moved
    have hstay : ∀ i, P i → (p.move delta data)[i]? = data[i]? := by
      intro i hi
      by_cases hwindow : p.window.Contains i
      · rw [← hstays i hi]
        exact (getElem?_moveAll_of_outside hin' fun q hq ↦ (hclear q hq).not_contains hwindow).symm
      · exact getElem?_move_of_outside hfirst delta hwindow
    obtain ⟨hin₁, hout₁⟩ := move_agrees hfirst hsize hsame hstay
    obtain ⟨hin₂, hout₂⟩ := ih hin' hpairwise (hmoved'.trans (hsize.trans hmoved.symm)) hout₁
      fun i hi ↦ (hstays i hi).trans (hstay i hi).symm
    exact ⟨fun i hi ↦ (hin₂ i hi).trans (hin₁ i hi), hout₂⟩

/-- Moving an address twice moves it by both distances. -/
theorem move_move (hin : p.offset + p.size ≤ data.size) (d e : UInt64) :
    p.move e (p.move d data) = p.move (d + e) data := by
  have hmoved := size_moved hin d
  have hfits : p.offset + (moved (data.extract p.offset (p.offset + p.size)) p.isWide d).size
      ≤ data.size := by rwa [hmoved]
  have hfield : (p.move d data).extract p.offset (p.offset + p.size)
      = moved (data.extract p.offset (p.offset + p.size)) p.isWide d := by
    rw [move, extract_overwrite hfits (Nat.le_of_eq hmoved.symm)]
    nth_rewrite 2 [← hmoved]
    exact Array.extract_size
  have hsize := size_field hin
  rw [move, hfield, moved_moved d e hsize, move, move]
  exact overwrite_overwrite hfits (by rw [moved_field hin, moved_field hin]; simp [added, length_ofNumber])

theorem move_zero (hin : p.offset + p.size ≤ data.size) : p.move 0 data = data := by
  rw [move, moved_zero (size_field hin), overwrite_extract hin]

/-- An address is moved independently of what is written elsewhere. -/
theorem move_overwrite {new : Bytes} {offset : Nat} (hin : p.offset + p.size ≤ data.size)
    (hfits : offset + new.size ≤ data.size) (hclear : p.window.IsClear ⟨offset, new.size⟩)
    (d : UInt64) :
    p.move d (data.overwrite offset new) = (p.move d data).overwrite offset new := by
  have hfield : (data.overwrite offset new).extract p.offset (p.offset + p.size)
      = data.extract p.offset (p.offset + p.size) :=
    extract_congr (size_overwrite hfits) hin (sameIn_overwrite hfits hclear.symm)
  have hmoved := size_moved hin d
  rw [move, hfield, move]
  exact overwrite_comm hfits (by rwa [hmoved]) (by rw [hmoved]; exact hclear.symm)

/-- Addresses that share no bytes are moved independently. -/
theorem move_comm (hin : p.offset + p.size ≤ data.size) (hin' : q.offset + q.size ≤ data.size)
    (hclear : p.window.IsClear q.window) (d e : UInt64) :
    p.move d (q.move e data) = q.move e (p.move d data) := by
  have hmoved := size_moved hin d
  have hfits : p.offset + (moved (data.extract p.offset (p.offset + p.size)) p.isWide d).size
      ≤ data.size := by rwa [hmoved]
  have hback := move_overwrite hin' hfits (by rw [hmoved]; exact hclear.symm) e
  have hmoved' := size_moved hin' e
  have hfield : (q.move e data).extract p.offset (p.offset + p.size)
      = data.extract p.offset (p.offset + p.size) :=
    extract_congr (size_move hin' e) hin fun n hn ↦
      getElem?_move_of_outside hin' e (hclear.not_contains hn)
  rw [move, hfield]
  exact hback.symm

/-- Moving an address before or after others that share no byte with it. -/
theorem move_moveAll (hin : p.offset + p.size ≤ data.size)
    (hins : ∀ q ∈ ps, q.offset + q.size ≤ data.size)
    (hclear : ∀ q ∈ ps, p.window.IsClear q.window) (d e : UInt64) :
    p.move d (moveAll e ps data) = moveAll e ps (p.move d data) := by
  induction ps generalizing data with
  | nil => rfl
  | cons q ps ih =>
    obtain ⟨hfirst, hrest⟩ := List.forall_mem_cons.mp hins
    obtain ⟨hclear, hclears⟩ := List.forall_mem_cons.mp hclear
    have hsize := size_move hfirst e
    change p.move d (moveAll e ps (q.move e data)) = moveAll e ps (q.move e (p.move d data))
    rw [ih (hsize.symm ▸ hin) (fun q hq ↦ hsize.symm ▸ hrest q hq) hclears,
      move_comm hin hfirst hclear]

/-- Moving addresses that share no bytes twice moves them by both distances. -/
theorem moveAll_moveAll (hins : ∀ p ∈ ps, p.offset + p.size ≤ data.size)
    (hclear : ps.Pairwise fun p q ↦ p.window.IsClear q.window) (d e : UInt64) :
    moveAll e ps (moveAll d ps data) = moveAll (d + e) ps data := by
  induction ps generalizing data with
  | nil => rfl
  | cons p ps ih =>
    obtain ⟨hfirst, hrest⟩ := List.forall_mem_cons.mp hins
    obtain ⟨hclear, hpairwise⟩ := List.pairwise_cons.mp hclear
    have hsize := size_move hfirst
    change moveAll e ps (p.move e (moveAll d ps (p.move d data)))
      = moveAll (d + e) ps (p.move (d + e) data)
    rw [move_moveAll ((hsize d).symm ▸ hfirst) (fun q hq ↦ (hsize d).symm ▸ hrest q hq) hclear,
      move_move hfirst, ih (fun q hq ↦ (hsize _).symm ▸ hrest q hq) hpairwise]

theorem moveAll_zero (hins : ∀ p ∈ ps, p.offset + p.size ≤ data.size) :
    moveAll 0 ps data = data := by
  induction ps with
  | nil => rfl
  | cons p ps ih =>
    obtain ⟨hfirst, hrest⟩ := List.forall_mem_cons.mp hins
    change moveAll 0 ps (p.move 0 data) = data
    rw [move_zero hfirst]
    exact ih hrest

/-- An address stays as it was when none of the distance fits in it. -/
theorem move_eq_self_iff (hin : p.offset + p.size ≤ data.size) (d : UInt64) :
    p.move d data = data ↔ d.toNat % 256 ^ p.size = 0 := by
  have hlength : (data.extract p.offset (p.offset + p.size)).toList.length = p.size := by
    rw [Array.length_toList, size_field hin]
  rw [← hlength, ← added_eq_self_iff]
  constructor
  · intro heq
    have hmoved := size_moved hin d
    have hfield := extract_overwrite (b := data) (by rwa [hmoved]) (Nat.le_of_eq hmoved.symm)
    change (p.move d data).extract _ _ = _ at hfield
    rw [heq, Array.extract_eq_self_of_le (Nat.le_of_eq hmoved), moved_field hin] at hfield
    exact (congrArg Array.toList hfield).symm
  · intro hadded
    rw [move, moved_field hin, hadded, Array.toArray_toList, overwrite_extract hin]

/-- Addresses that share no bytes stay as they were when none of the distance fits in them. -/
theorem moveAll_eq_self_iff (hins : ∀ p ∈ ps, p.offset + p.size ≤ data.size)
    (hclear : ps.Pairwise fun p q ↦ p.window.IsClear q.window) (d : UInt64) :
    moveAll d ps data = data ↔ ∀ p ∈ ps, d.toNat % 256 ^ p.size = 0 := by
  induction ps with
  | nil => exact ⟨(fun _ _ h ↦ by cases h), fun _ ↦ rfl⟩
  | cons p ps ih =>
    obtain ⟨hfirst, hrest⟩ := List.forall_mem_cons.mp hins
    obtain ⟨hclear, hpairwise⟩ := List.pairwise_cons.mp hclear
    rw [List.forall_mem_cons, ← move_eq_self_iff hfirst, ← ih hrest hpairwise]
    change moveAll d ps (p.move d data) = data ↔ _
    constructor
    · intro heq
      -- no later address shares a byte with the first, which so has its bytes back at once
      have hmove : p.move d data = data := by
        refine Array.ext_getElem? fun n ↦ ?_
        by_cases hwindow : p.window.Contains n
        · have hout : (moveAll d ps (p.move d data))[n]? = (p.move d data)[n]? :=
            getElem?_moveAll_of_outside (fun q hq ↦ (size_move hfirst d).symm ▸ hrest q hq)
              fun q hq ↦ (hclear q hq).not_contains hwindow
          rw [← hout, heq]
        · exact getElem?_move_of_outside hfirst d hwindow
      exact ⟨hmove, by rwa [hmove] at heq⟩
    · rintro ⟨hmove, hmoves⟩
      rw [hmove, hmoves]

/-- Addresses are moved independently of what is written elsewhere. -/
theorem moveAll_overwrite {new : Bytes} {offset : Nat}
    (hins : ∀ p ∈ ps, p.offset + p.size ≤ data.size) (hfits : offset + new.size ≤ data.size)
    (hclear : ∀ p ∈ ps, p.window.IsClear ⟨offset, new.size⟩) (d : UInt64) :
    moveAll d ps (data.overwrite offset new) = (moveAll d ps data).overwrite offset new := by
  induction ps generalizing data with
  | nil => rfl
  | cons p ps ih =>
    obtain ⟨hfirst, hrest⟩ := List.forall_mem_cons.mp hins
    obtain ⟨hclear, hclears⟩ := List.forall_mem_cons.mp hclear
    have hsize := size_move hfirst d
    change moveAll d ps (p.move d (data.overwrite offset new))
      = (moveAll d ps (p.move d data)).overwrite offset new
    rw [move_overwrite hfirst hfits hclear,
      ih (fun q hq ↦ hsize.symm ▸ hrest q hq) (hsize.symm ▸ hfits) hclears]

/-- A file in which an address is moved. -/
theorem move_middle (a c : List UInt8) {f : List UInt8} (hat : p.offset = a.length)
    (hsize : p.size = f.length) (d : UInt64) :
    p.move d (a ++ f ++ c).toArray = (a ++ added f d.toNat ++ c).toArray := by
  have hfield : (a ++ f ++ c).toArray.extract p.offset (p.offset + p.size) = f.toArray := by
    rw [hat, hsize, extract_middle]
  rw [move, hfield, moved_eq d hsize.symm, hat]
  exact overwrite_middle a f c (length_ofNumber ..)

end Pointer
end Image
end LivePatch
