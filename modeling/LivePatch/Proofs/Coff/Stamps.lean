import LivePatch.Proofs.Coff.Records
import Mathlib.Data.List.Induction
import Mathlib.Data.List.Pairwise

/-!
# Stamps on a file

Work on a file that replaces bytes at fixed places by fixed bytes. When no two stamps want different
bytes at one place, what they leave does not depend on their order or on how often each is made.
-/

namespace LivePatch.Bytes

/-- Bytes that replace those at a place of a file. -/
structure Stamp where
  offset : Nat
  bytes : Bytes
  deriving DecidableEq

/-- The part of a file that a stamp replaces. -/
def Stamp.window (s : Stamp) : Window := ⟨s.offset, s.bytes.size⟩

/-- A stamp replaces bytes that are there. -/
def Stamp.IsInside (s : Stamp) (size : Nat) : Prop := s.offset + s.bytes.size ≤ size

/-- A file with the bytes of stamps, made one after the other. -/
def stamped (b : Bytes) (stamps : List Stamp) : Bytes :=
  stamps.foldl (fun b s ↦ b.overwrite s.offset s.bytes) b

/-- Stamps want the same bytes wherever they meet. -/
def Stamp.Agrees (s s' : Stamp) : Prop :=
  ∀ i, s.window.Contains i → s'.window.Contains i → s.bytes[i - s.offset]? = s'.bytes[i - s'.offset]?

variable {b : Bytes} {s s' : Stamp} {stamps stamps' : List Stamp}

theorem stamped_cons (b : Bytes) (s : Stamp) (stamps : List Stamp) :
    b.stamped (s :: stamps) = (b.overwrite s.offset s.bytes).stamped stamps := rfl

theorem stamped_append (b : Bytes) (stamps stamps' : List Stamp) :
    b.stamped (stamps ++ stamps') = (b.stamped stamps).stamped stamps' := List.foldl_append

/-- Stamps at different places agree. -/
theorem Window.IsClear.agrees (h : s.window.IsClear s'.window) : s.Agrees s' :=
  fun _ hi hi' ↦ absurd hi' (h.not_contains hi)

theorem Stamp.agrees_refl (s : Stamp) : s.Agrees s := fun _ _ _ ↦ rfl

theorem Stamp.Agrees.symm (h : s.Agrees s') : s'.Agrees s := fun i hi hi' ↦ (h i hi' hi).symm

/-- Stamps that are clear of each other agree. -/
theorem agrees_of_pairwise (h : stamps.Pairwise fun s s' ↦ s.window.IsClear s'.window)
    (hs : s ∈ stamps) (hs' : s' ∈ stamps) : s.Agrees s' := by
  by_cases heq : s = s'
  · exact heq ▸ s.agrees_refl
  · have hsymm : Std.Symm fun s s' : Stamp ↦ s.window.IsClear s'.window := ⟨fun _ _ h ↦ h.symm⟩
    exact (h.forall hs hs' heq).agrees

theorem size_stamped (h : ∀ s ∈ stamps, s.IsInside b.size) : (b.stamped stamps).size = b.size := by
  induction stamps generalizing b with
  | nil => rfl
  | cons s stamps ih =>
    obtain ⟨hfirst, hrest⟩ := List.forall_mem_cons.mp h
    have hsize := size_overwrite hfirst
    rw [stamped_cons, ih (by rwa [hsize]), hsize]

/-- Stamps change nothing clear of them. -/
theorem sameIn_stamped {w : Window} (h : ∀ s ∈ stamps, s.IsInside b.size)
    (hclear : ∀ s ∈ stamps, s.window.IsClear w) : SameIn (b.stamped stamps) b w := by
  induction stamps generalizing b with
  | nil => exact fun _ _ ↦ rfl
  | cons s stamps ih =>
    obtain ⟨hfirst, hrest⟩ := List.forall_mem_cons.mp h
    obtain ⟨hclearFirst, hclearRest⟩ := List.forall_mem_cons.mp hclear
    rw [stamped_cons]
    exact (ih (by rwa [size_overwrite hfirst]) hclearRest).trans
      (sameIn_overwrite hfirst hclearFirst)

/-- Stamps in a part of a file change nothing outside of it. -/
theorem differsIn_stamped {w : Window} (h : ∀ s ∈ stamps, s.IsInside b.size)
    (hw : ∀ s ∈ stamps, ∀ i, s.window.Contains i → w.Contains i) :
    DiffersIn b (b.stamped stamps) w :=
  ⟨size_stamped h, fun _ hclear ↦ sameIn_stamped h fun s hs ↦ hclear.mono (hw s hs) fun _ hi ↦ hi⟩

/-- Stamps that agree are all there in the end. -/
theorem getElem?_stamped (h : ∀ s ∈ stamps, s.IsInside b.size)
    (hagree : ∀ s ∈ stamps, ∀ s' ∈ stamps, s.Agrees s') (hs : s ∈ stamps) {i : Nat}
    (hi : s.window.Contains i) : (b.stamped stamps)[i]? = s.bytes[i - s.offset]? := by
  induction stamps using List.reverseRecOn with
  | nil => cases hs
  | append_singleton stamps last ih =>
    have hlast : last.IsInside (b.stamped stamps).size := by
      rw [size_stamped fun s hs ↦ h s (List.mem_append_left _ hs)]
      exact h last (by simp)
    have hstamped : b.stamped (stamps ++ [last])
        = (b.stamped stamps).overwrite last.offset last.bytes := stamped_append b stamps [last]
    rw [hstamped]
    by_cases hover : last.window.Contains i
    · rw [getElem?_overwrite_of_inside hlast hover.1 hover.2]
      exact hagree last (by simp) s hs i hover hi
    · rw [getElem?_overwrite_of_outside hlast (by
        unfold Stamp.window Window.Contains at hover
        dsimp only at hover
        omega)]
      refine ih (fun s hs ↦ h s (List.mem_append_left _ hs))
        (fun s hs s' hs' ↦ hagree s (List.mem_append_left _ hs) s' (List.mem_append_left _ hs')) ?_
      rcases List.mem_append.mp hs with hs | hs
      · exact hs
      · rw [List.mem_singleton.mp hs] at hi
        exact absurd hi hover

/-- Stamps that agree are read back in the end. -/
theorem slice?_stamped (h : ∀ s ∈ stamps, s.IsInside b.size)
    (hagree : ∀ s ∈ stamps, ∀ s' ∈ stamps, s.Agrees s') (hs : s ∈ stamps) :
    (b.stamped stamps).slice? s.offset s.bytes.size = some s.bytes := by
  have hinside : s.offset + s.bytes.size ≤ b.size := h s hs
  rw [slice?, size_stamped h, if_pos hinside]
  congr 1
  apply Array.ext_getElem?
  intro i
  rw [Array.getElem?_extract, size_stamped h]
  split
  · have hi : s.window.Contains (s.offset + i) := by
      unfold Stamp.window Window.Contains
      dsimp only
      omega
    rw [getElem?_stamped h hagree hs hi, Nat.add_sub_cancel_left]
  · rw [Array.getElem?_eq_none (by omega)]

/-- What agreeing stamps leave depends neither on their order nor on how often each is made. -/
theorem stamped_congr (h : ∀ s ∈ stamps, s.IsInside b.size)
    (hagree : ∀ s ∈ stamps, ∀ s' ∈ stamps, s.Agrees s') (hsame : ∀ s, s ∈ stamps ↔ s ∈ stamps') :
    b.stamped stamps = b.stamped stamps' := by
  have h' : ∀ s ∈ stamps', s.IsInside b.size := fun s hs ↦ h s ((hsame s).mpr hs)
  apply Array.ext_getElem?
  intro i
  by_cases hover : ∃ s ∈ stamps, s.window.Contains i
  · obtain ⟨s, hs, hi⟩ := hover
    rw [getElem?_stamped h hagree hs hi, getElem?_stamped h' (fun s hs s' hs' ↦
      hagree s ((hsame s).mpr hs) s' ((hsame s').mpr hs')) ((hsame s).mp hs) hi]
  · have hclear : ∀ {l : List Stamp}, (∀ s ∈ l, s ∈ stamps) →
        ∀ s ∈ l, s.window.IsClear ⟨i, 1⟩ := by
      intro l hl s hs
      have hout : ¬s.window.Contains i := fun hi ↦ hover ⟨s, hl s hs, hi⟩
      unfold Window.Contains at hout
      unfold Window.IsClear
      dsimp only
      omega
    have hi : (Window.mk i 1).Contains i := ⟨Nat.le_refl _, Nat.lt_succ_self _⟩
    rw [sameIn_stamped h (hclear fun _ hs ↦ hs) i hi,
      sameIn_stamped h' (hclear fun s hs ↦ (hsame s).mpr hs) i hi]

end LivePatch.Bytes
