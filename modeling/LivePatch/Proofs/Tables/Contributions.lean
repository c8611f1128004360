import LivePatch.Proofs.Outcome
import LivePatch.Proofs.Paths
import LivePatch.Tables.Symbols
import Mathlib.Data.List.Induction
import Mathlib.Data.List.Sort

/-!
# Finding contributions

A table keeps its ranges in the order of their addresses and looks at one of them only: the last
that starts at or before the address. Among ranges that start together that is the one that was
added first. So a range is found at every address inside it if no empty range starts there up to the
address, save one that starts with it and was added later.
-/

namespace LivePatch

namespace Contribution

/-- Whether an address lies inside a range. -/
def Covers (c : Contribution) (rva : UInt32) : Prop :=
  c.rva ≤ rva ∧ rva.toNat < c.rva.toNat + c.size.toNat

/-- The end of a range is an address. -/
def Fits (c : Contribution) : Prop := c.rva.toNat + c.size.toNat < 0x100000000

/-- No address lies in both ranges. -/
def IsApart (c d : Contribution) : Prop := ∀ rva, c.Covers rva → ¬ d.Covers rva

/-- The same range of the same object file, however its path is spelled. -/
structure IsAlike (c d : Contribution) : Prop where
  rva : c.rva = d.rva
  size : c.size = d.size
  object : c.object.same d.object = true

/-- An empty range covers nothing. -/
theorem Covers.one_le_size {c : Contribution} {rva : UInt32} (h : c.Covers rva) : 1 ≤ c.size := by
  have hle := UInt32.le_iff_toNat_le.mp h.1
  have hlt := h.2
  rw [UInt32.le_iff_toNat_le, UInt32.toNat_one]
  omega

/-- Of two ranges that are apart, one that starts inside the other is empty. -/
theorem IsApart.size_eq_zero {c d : Contribution} (h : c.IsApart d) {rva : UInt32}
    (hc : c.Covers rva) (hstart : c.rva ≤ d.rva) (hle : d.rva ≤ rva) : d.size = 0 := by
  by_contra hsize
  have hpos : 0 < d.size.toNat := by
    rw [Nat.pos_iff_ne_zero, ← UInt32.toNat_zero]
    exact fun heq ↦ hsize (UInt32.toNat_inj.mp heq)
  have hle' := UInt32.le_iff_toNat_le.mp hle
  exact h d.rva ⟨hstart, by have := hc.2; omega⟩ ⟨UInt32.le_refl _, by omega⟩

/-- What is looked at of a range that covers an address is its size. -/
theorem Covers.max_size {c : Contribution} {rva : UInt32} (h : c.Covers rva) :
    max c.size 1 = c.size := by
  change (if c.size ≤ 1 then 1 else c.size) = c.size
  split
  · next hle => exact UInt32.le_antisymm h.one_le_size hle
  · rfl

theorem IsApart.symm {c d : Contribution} (h : c.IsApart d) : d.IsApart c :=
  fun rva hd hc ↦ h rva hc hd

theorem isApart_of_le {c d : Contribution} (h : c.rva.toNat + c.size.toNat ≤ d.rva.toNat) :
    c.IsApart d := by
  intro rva hc hd
  have hlt := hc.2
  have hle := UInt32.le_iff_toNat_le.mp hd.1
  omega

theorem isApart_of_empty {c d : Contribution} (h : d.size = 0) : c.IsApart d := by
  intro rva _ hd
  have hsize := h ▸ hd.one_le_size
  cases hsize

end Contribution

namespace ContributionTable

/-- The table that ranges were added to, one after another. -/
def ofRanges (l : List Contribution) : ContributionTable :=
  ofList (l.map fun c ↦ (c.object, c.rva, c.size))

theorem ofRanges_append (l : List Contribution) (c : Contribution) :
    ofRanges (l ++ [c]) = (ofRanges l).add c.object c.rva c.size := by
  simp [ofRanges, ofList]

/-- The only range that is looked at for an address. -/
def candidate? (t : ContributionTable) (rva : UInt32) : Option Contribution :=
  (t.ranges.takeWhile fun c ↦ c.rva ≤ rva).getLast?

variable {t : ContributionTable} {l before after : List Contribution} {c d : Contribution}
  {rva : UInt32}

/-- A candidate is found up to its end, an empty one at its start. -/
theorem find_eq_of_candidate?_eq_some (h : t.candidate? rva = some c)
    (hfits : c.rva.toNat + (max c.size 1).toNat < 0x100000000) :
    t.find rva = .ok (if rva.toNat < c.rva.toNat + (max c.size 1).toNat then some c else none) := by
  have hstop : Word.add32? c.rva (max c.size 1) = some (c.rva + max c.size 1) := if_pos hfits
  unfold find
  rw [show (t.ranges.takeWhile fun c ↦ c.rva ≤ rva).getLast? = some c from h]
  simp only [hstop, orFault, bind, Except.bind, pure, Except.pure, UInt32.lt_iff_toNat_lt,
    Word.toNat_of_add32? hstop]

/-- Ranges in the order of their starts. -/
def startsBefore (c d : Contribution) : Prop := c.rva ≤ d.rva

instance : DecidableRel startsBefore := fun c d ↦ inferInstanceAs (Decidable (c.rva ≤ d.rva))

instance : Std.Total startsBefore := ⟨fun c d ↦ UInt32.le_total c.rva d.rva⟩

instance : IsTrans Contribution startsBefore := ⟨fun _ _ _ ↦ UInt32.le_trans⟩

/-- A range is inserted before those that start at its address or behind it. -/
theorem ranges_add (t : ContributionTable) (object : Path) (rva size : UInt32) :
    (t.add object rva size).ranges
      = t.ranges.orderedInsert startsBefore ⟨rva, size, t.spelling object⟩ := by
  simp only [add, List.orderedInsert_eq_take_drop, startsBefore, UInt32.not_le]

theorem wf_add (h : t.WF) (object : Path) (rva size : UInt32) : (t.add object rva size).WF := by
  unfold WF
  rw [ranges_add]
  exact List.Pairwise.orderedInsert _ _ h

/-- A range that is inserted is looked at for the addresses behind its start for which no other
range was that starts there or behind it. -/
theorem getLast?_takeWhile_orderedInsert (hsorted : l.Pairwise startsBefore) :
    ((l.orderedInsert startsBefore c).takeWhile fun d ↦ d.rva ≤ rva).getLast?
      = if c.rva ≤ rva ∧ (l.takeWhile fun d ↦ d.rva ≤ rva).getLast?.all (fun d ↦ d.rva < c.rva)
        then some c else (l.takeWhile fun d ↦ d.rva ≤ rva).getLast? := by
  induction l with
  | nil => by_cases hc : c.rva ≤ rva <;> simp [hc]
  | cons d l ih =>
    obtain ⟨hfirst, hrest⟩ := List.pairwise_cons.mp hsorted
    by_cases hd : c.rva ≤ d.rva
    · rw [List.orderedInsert_cons_of_le startsBefore l hd]
      by_cases hc : c.rva ≤ rva
      · have hlast : ∀ e ∈ ((d :: l).takeWhile fun d ↦ d.rva ≤ rva).getLast?, ¬ e.rva < c.rva := by
          intro e he hlt
          have hmem := (List.takeWhile_sublist _).subset (List.mem_of_getLast? he)
          rcases List.mem_cons.mp hmem with rfl | hmem
          · exact UInt32.not_lt.mpr hd hlt
          · exact UInt32.not_lt.mpr (UInt32.le_trans hd (hfirst e hmem)) hlt
        rw [List.takeWhile_cons_of_pos (by simpa using hc), List.getLast?_cons]
        cases hnearest : ((d :: l).takeWhile fun d ↦ d.rva ≤ rva).getLast? with
        | none => simp [hc]
        | some e => simp [hlast e hnearest]
      · have hr : ¬ d.rva ≤ rva := fun hr ↦ hc (UInt32.le_trans hd hr)
        simp [hr, hc]
    · rw [List.orderedInsert_of_not_le startsBefore l hd]
      have hlt := UInt32.not_le.mp hd
      by_cases hr : d.rva ≤ rva
      · simp only [List.takeWhile_cons, hr, decide_true, if_true, List.getLast?_cons, ih hrest]
        cases (l.takeWhile fun d ↦ d.rva ≤ rva).getLast? with
        | none => by_cases hc : c.rva ≤ rva <;> simp [hc, hlt]
        | some e => by_cases hc : c.rva ≤ rva <;> by_cases he : e.rva < c.rva <;> simp [hc, he]
      · have hc : ¬ c.rva ≤ rva := fun hc ↦ hr (UInt32.le_trans (UInt32.le_of_lt hlt) hc)
        simp [hr, hc]

/-- What is looked at once one more range was added. -/
theorem candidate?_add (h : t.WF) (object : Path) (start size rva : UInt32) :
    (t.add object start size).candidate? rva
      = if start ≤ rva ∧ (t.candidate? rva).all (fun d ↦ d.rva < start)
        then some ⟨start, size, t.spelling object⟩ else t.candidate? rva := by
  unfold candidate?
  rw [ranges_add]
  exact getLast?_takeWhile_orderedInsert h

/-- Object files are known under a spelling of their own path. -/
theorem same_spelling (t : ContributionTable) (object : Path) :
    (t.spelling object).same object = true := by
  unfold spelling
  cases h : t.objects.find? fun o ↦ o.same object with
  | none => exact Path.same_refl object
  | some o => exact (List.find?_some (p := fun o : Path ↦ o.same object) h :)

theorem wf_ofRanges (l : List Contribution) : (ofRanges l).WF := by
  induction l using List.reverseRecOn with
  | nil => exact wf_empty
  | append_singleton l c ih =>
    rw [ofRanges_append]
    exact wf_add ih c.object c.rva c.size

/-- Of the ranges that were added, one of those that start nearest before an address, the first of
them. -/
structure IsNearest (before : List Contribution) (c : Contribution) (after : List Contribution)
    (rva : UInt32) : Prop where
  start : c.rva ≤ rva
  before : ∀ d ∈ before, d.rva ≤ rva → d.rva < c.rva
  after : ∀ d ∈ after, d.rva ≤ rva → d.rva ≤ c.rva

/-- The range that is looked at is the first that was added of those that start nearest before the
address. By induction on the ranges, the last one added first. -/
theorem candidate?_ofRanges (l : List Contribution) (rva : UInt32) :
    match (ofRanges l).candidate? rva with
    | none => ∀ c ∈ l, ¬ c.rva ≤ rva
    | some d => ∃ before c after, l = before ++ c :: after ∧ d.IsAlike c ∧
        IsNearest before c after rva := by
  induction l using List.reverseRecOn with
  | nil => exact fun c hc ↦ by cases hc
  | append_singleton l c ih =>
    rw [ofRanges_append, candidate?_add (wf_ofRanges l)]
    have halike : Contribution.IsAlike ⟨c.rva, c.size, (ofRanges l).spelling c.object⟩ c :=
      ⟨rfl, rfl, same_spelling _ _⟩
    cases hold : (ofRanges l).candidate? rva with
    | none =>
      rw [hold] at ih
      by_cases hc : c.rva ≤ rva
      · rw [if_pos ⟨hc, rfl⟩]
        exact ⟨l, c, [], rfl, halike, hc, fun d hd hle ↦ (ih d hd hle).elim, fun d hd ↦ by cases hd⟩
      · rw [if_neg (fun h ↦ hc h.1)]
        intro d hd
        rcases List.mem_append.mp hd with hd | hd
        · exact ih d hd
        · exact List.mem_singleton.mp hd ▸ hc
    | some e =>
      rw [hold] at ih
      obtain ⟨before, f, after, rfl, he, hnearest⟩ := ih
      by_cases h : c.rva ≤ rva ∧ e.rva < c.rva
      · rw [if_pos (by simpa using h)]
        have hlt : f.rva < c.rva := he.rva ▸ h.2
        have hbehind : ∀ d ∈ before ++ f :: after, d.rva ≤ rva → d.rva < c.rva := by
          intro d hd hle
          rcases List.mem_append.mp hd with hd | hd
          · exact UInt32.lt_trans (hnearest.before d hd hle) hlt
          · rcases List.mem_cons.mp hd with rfl | hd
            · exact hlt
            · exact UInt32.lt_of_le_of_lt (hnearest.after d hd hle) hlt
        exact ⟨_, c, [], rfl, halike, h.1, hbehind, fun d hd ↦ by cases hd⟩
      · rw [if_neg (by simpa using h)]
        refine ⟨before, f, after ++ [c], by simp, he, hnearest.start, hnearest.before, ?_⟩
        intro d hd hle
        rcases List.mem_append.mp hd with hd | hd
        · exact hnearest.after d hd hle
        · rw [List.mem_singleton.mp hd] at hle ⊢
          exact UInt32.not_lt.mp fun hlt ↦ h ⟨hle, he.rva.symm ▸ hlt⟩

/-- Where two entries stand in one list. -/
theorem eq_or_mem_of_append_cons_eq {α : Type} {before after front back : List α} {a b : α}
    (h : before ++ a :: after = front ++ b :: back) :
    (front = before ∧ b = a ∧ back = after) ∨ (a ∈ front ∧ b ∈ after) ∨ (b ∈ before ∧ a ∈ back) := by
  rcases List.append_eq_append_iff.mp h with ⟨l, rfl, htail⟩ | ⟨l, rfl, htail⟩
  · rcases l with _ | ⟨_, l⟩ <;> cases htail
    · exact .inl ⟨List.append_nil _, rfl, rfl⟩
    · exact .inr (.inl ⟨by simp, by simp⟩)
  · rcases l with _ | ⟨_, l⟩ <;> cases htail
    · exact .inl ⟨(List.append_nil _).symm, rfl, rfl⟩
    · exact .inr (.inr ⟨by simp, by simp⟩)

/-- No empty range stands between the start of a range and an address inside it, and none that was
added before the range starts with it. -/
structure IsUnhidden (before : List Contribution) (c : Contribution) (after : List Contribution)
    (rva : UInt32) : Prop where
  before : ∀ d ∈ before, d.size = 0 → c.rva ≤ d.rva → ¬ d.rva ≤ rva
  after : ∀ d ∈ after, d.size = 0 → c.rva < d.rva → ¬ d.rva ≤ rva

theorem IsNearest.isUnhidden (h : IsNearest before c after rva) : IsUnhidden before c after rva where
  before d hd _ hstart hle := UInt32.not_lt.mpr hstart (h.before d hd hle)
  after d hd _ hstart hle := UInt32.not_lt.mpr (h.after d hd hle) hstart

/-- The nearest start before an address inside a range is the range's own or that of an empty
range that hides it. -/
theorem IsNearest.eq_or_hides {front back : List Contribution}
    (hapart : (before ++ c :: after).Pairwise Contribution.IsApart) (hcovers : c.Covers rva)
    (hsplit : before ++ c :: after = front ++ d :: back) (h : IsNearest front d back rva) :
    (front = before ∧ d = c ∧ back = after) ∨ (d.size = 0 ∧ ¬ IsUnhidden before c after rva) := by
  obtain ⟨-, hrest, hcross⟩ := List.pairwise_append.mp hapart
  rcases eq_or_mem_of_append_cons_eq hsplit with hsame | ⟨hc, hd⟩ | ⟨hd, hc⟩
  · exact .inl hsame
  · have hstart : c.rva < d.rva := h.before c hc hcovers.1
    have hempty : d.size = 0 :=
      ((List.pairwise_cons.mp hrest).1 d hd).size_eq_zero hcovers (UInt32.le_of_lt hstart) h.start
    exact .inr ⟨hempty, fun hu ↦ hu.after d hd hempty hstart h.start⟩
  · have hstart : c.rva ≤ d.rva := h.after c hc hcovers.1
    have hempty : d.size = 0 :=
      (hcross d hd c (List.mem_cons_self ..)).symm.size_eq_zero hcovers hstart h.start
    exact .inr ⟨hempty, fun hu ↦ hu.before d hd hempty hstart h.start⟩

/-- What is found at an address inside a range: the range itself, unless an empty range hides it;
then nothing is found, or the empty range at its start. -/
theorem find_ofRanges (hfits : ∀ d ∈ before ++ c :: after, d.Fits)
    (hapart : (before ++ c :: after).Pairwise Contribution.IsApart) (hcovers : c.Covers rva) :
    (IsUnhidden before c after rva ∧
      ∃ d, (ofRanges (before ++ c :: after)).find rva = .ok (some d) ∧ d.IsAlike c) ∨
    (¬ IsUnhidden before c after rva ∧
      ((ofRanges (before ++ c :: after)).find rva = .ok none ∨
        ∃ d, (ofRanges (before ++ c :: after)).find rva = .ok (some d) ∧ d.size = 0 ∧
          d.rva = rva)) := by
  have hmem : c ∈ before ++ c :: after := by simp
  have hend := hfits c hmem
  have hinside := hcovers.2
  unfold Contribution.Fits at hend
  have hcandidate := candidate?_ofRanges (before ++ c :: after) rva
  cases hd : (ofRanges (before ++ c :: after)).candidate? rva with
  | none =>
    rw [hd] at hcandidate
    exact (hcandidate c hmem hcovers.1).elim
  | some d =>
    rw [hd] at hcandidate
    obtain ⟨front, e, back, hsplit, halike, hnearest⟩ := hcandidate
    have hstart := UInt32.le_iff_toNat_le.mp hnearest.start
    rcases hnearest.eq_or_hides hapart hcovers hsplit with ⟨rfl, rfl, rfl⟩ | ⟨hempty, hhidden⟩
    · have hsize : max d.size 1 = e.size := by
        rw [halike.size, hcovers.max_size]
      refine .inl ⟨hnearest.isUnhidden, d, ?_, halike⟩
      rw [find_eq_of_candidate?_eq_some hd (by rw [hsize, halike.rva]; exact hend), hsize, halike.rva,
        if_pos hinside]
    · have hsize : max d.size 1 = 1 := by
        rw [halike.size, hempty]
        rfl
      have hfound := find_eq_of_candidate?_eq_some hd
        (by rw [hsize, halike.rva, UInt32.toNat_one]; omega)
      rw [hsize, halike.rva, UInt32.toNat_one] at hfound
      refine .inr ⟨hhidden, ?_⟩
      split at hfound
      · next hlt =>
        have heq : e.rva = rva := UInt32.toNat_inj.mp (by omega)
        exact .inr ⟨d, hfound, halike.size.trans hempty, halike.rva.trans heq⟩
      · exact .inl hfound

/-- Contributions that lie apart are looked up exactly, in whatever order they were added, unless an
empty one hides them: an address inside a contribution leads to it and to its object file if and
only if no empty one stands between its start and the address and none that was added before it
starts with it. Otherwise nothing is found there, or an empty one that starts at the address. -/
theorem covering_range_is_found_iff (hfits : ∀ d ∈ before ++ c :: after, d.Fits)
    (hapart : (before ++ c :: after).Pairwise Contribution.IsApart) (hcovers : c.Covers rva) :
    ((∃ d, (ofRanges (before ++ c :: after)).find rva = .ok (some d) ∧ d.IsAlike c ∧
        (ofRanges (before ++ c :: after)).objectAt rva = .ok (some d.object)) ↔
      IsUnhidden before c after rva) ∧
    (¬ IsUnhidden before c after rva →
      (ofRanges (before ++ c :: after)).find rva = .ok none ∨
        ∃ d, (ofRanges (before ++ c :: after)).find rva = .ok (some d) ∧ d.size = 0 ∧
          d.rva = rva) := by
  rcases find_ofRanges hfits hapart hcovers with ⟨hunhidden, d, hfound, halike⟩ | ⟨hhidden, hfound⟩
  · have hobject : (ofRanges (before ++ c :: after)).objectAt rva = .ok (some d.object) := by
      unfold objectAt
      rw [hfound]
      rfl
    exact ⟨⟨fun _ ↦ hunhidden, fun _ ↦ ⟨d, hfound, halike, hobject⟩⟩, fun h ↦ (h hunhidden).elim⟩
  · refine ⟨⟨fun ⟨d, hd, halike, _⟩ ↦ ?_, fun h ↦ (hhidden h).elim⟩, fun _ ↦ hfound⟩
    rcases hfound with hnone | ⟨e, he, hempty, -⟩
    · cases hnone.symm.trans hd
    · cases he.symm.trans hd
      have hsize := halike.size.symm.trans hempty ▸ hcovers.one_le_size
      cases hsize

namespace EmptyStart

/-- A range of code. -/
def code : Contribution := ⟨0x1000, 0x20, ⟨"a.obj"⟩⟩

/-- An empty range that starts with the one of the code. -/
def nothing : Contribution := ⟨0x1000, 0, ⟨"b.obj"⟩⟩

/-- A range of data. -/
def data : Contribution := ⟨0x2000, 0x10, ⟨"b.obj"⟩⟩

private theorem data_isApart_code : data.IsApart code :=
  (Contribution.isApart_of_le (by decide)).symm

/-- The code is found up to its last byte behind data that was added before it and under an empty
range that was added later. -/
theorem code_is_found_under_later_empty_range :
    (∀ d ∈ [data] ++ code :: [nothing], d.Fits) ∧
      ([data] ++ code :: [nothing]).Pairwise Contribution.IsApart ∧ code.Covers 0x101f ∧
      ∃ d, (ofRanges ([data] ++ code :: [nothing])).find 0x101f = .ok (some d) ∧ d.IsAlike code ∧
        (ofRanges ([data] ++ code :: [nothing])).objectAt 0x101f = .ok (some d.object) := by
  have hfits : ∀ d ∈ [data] ++ code :: [nothing], d.Fits := by
    unfold Contribution.Fits
    decide
  have hapart : ([data] ++ code :: [nothing]).Pairwise Contribution.IsApart := by
    simp [data_isApart_code, Contribution.isApart_of_empty (show nothing.size = 0 from rfl)]
  have hcovers : code.Covers 0x101f := ⟨by decide, by decide⟩
  have hunhidden : IsUnhidden [data] code [nothing] 0x101f := ⟨by decide, by decide⟩
  exact ⟨hfits, hapart, hcovers, (covering_range_is_found_iff hfits hapart hcovers).1.mpr hunhidden⟩

/-- The order matters: under an empty range that was added first, the code is not found at all
behind its first byte, and at that byte the empty range is found in its place. -/
theorem code_is_hidden_under_earlier_empty_range :
    (∀ d ∈ [nothing, code], d.Fits) ∧ [nothing, code].Pairwise Contribution.IsApart ∧
      code.Covers 0x1008 ∧ (ofRanges [nothing, code]).find 0x1008 = .ok none ∧
      (ofRanges [nothing, code]).objectAt 0x1008 = .ok none ∧
      code.Covers 0x1000 ∧ (ofRanges [nothing, code]).find 0x1000 = .ok (some nothing) ∧
      (ofRanges [nothing, code]).objectAt 0x1000 = .ok (some nothing.object) := by
  refine ⟨?_, ?_, ⟨by decide, by decide⟩, rfl, rfl, ⟨by decide, by decide⟩, rfl, rfl⟩
  · unfold Contribution.Fits
    decide
  · simp [(Contribution.isApart_of_empty (show nothing.size = 0 from rfl)).symm]

end EmptyStart
end ContributionTable
end LivePatch
