import LivePatch.Proofs.Build.Passes

/-!
# Sections that go

Which sections of an object file are dropped once their definitions were stripped. An emptied
section goes unless one that stays refers to it, and sections go along with those that they are
associated with. What cannot go is asked only then: a symbol that has to stay takes its section
back.
-/

namespace LivePatch

namespace Coff

/-- A section goes along with another one. -/
def EditorSection.GoesWith (s : EditorSection) (number : Nat) : Prop :=
  ∃ c, s.comdat = some c ∧ c.selection = selectAssociative ∧ c.associated = number

theorem EditorSection.isAssociatedWith_iff {s : EditorSection} {p : Nat → Bool} :
    s.isAssociatedWith p = true ↔ ∃ number, p number = true ∧ s.GoesWith number := by
  unfold isAssociatedWith GoesWith
  cases s.comdat with
  | none => simp
  | some c =>
    simp only [Option.any_some, Bool.and_eq_true, beq_iff_eq, Option.some.injEq]
    exact ⟨fun h ↦ ⟨c.associated, h.2, c, rfl, h.1, rfl⟩,
      fun ⟨_, hp, _, hc, hselection, hassociated⟩ ↦ hc ▸ ⟨hselection, hassociated ▸ hp⟩⟩

end Coff

namespace Stripping

open Coff

variable {e : Editor} {symbols : List EditorSymbol} {sections : List EditorSection}
  {number target n : Nat} {definitions : List (Nat × Nat)}

/-- A section refers to another one through the symbol that carries its definition. -/
def RefersTo (e : Editor) (symbols : List EditorSymbol) (number target : Nat) : Prop :=
  ∃ relocations, e.relocations number = .ok relocations ∧
    ∃ r ∈ relocations, (r.symbol, target) ∈ definitionSections symbols

/-! ### References of sections that stay -/

/-- Targets of the relocations of a section. -/
def IsTarget (definitions : List (Nat × Nat)) (number : Nat) (relocations : List RawRelocation)
    (n : Nat) : Prop :=
  ∃ r ∈ relocations, definitions.lookup r.symbol = some n ∧ n ≠ number

theorem isTarget_cons {r : RawRelocation} {relocations : List RawRelocation} :
    IsTarget definitions number (r :: relocations) n ↔
      (definitions.lookup r.symbol = some n ∧ n ≠ number) ∨
        IsTarget definitions number relocations n := by
  simp [IsTarget]

/-- The targets of a section move from the candidates to what is kept. -/
theorem keepTargets_spec (definitions : List (Nat × Nat)) (number : Nat)
    (relocations : List RawRelocation) (candidates kept : List Nat) :
    let left := keepTargets definitions number relocations (candidates, kept)
    (∀ n, n ∈ left.1 ↔ n ∈ candidates ∧ ¬ IsTarget definitions number relocations n) ∧
      (∀ n, n ∈ left.2 ↔ n ∈ kept ∨
        (n ∈ candidates ∧ IsTarget definitions number relocations n)) ∧
      left.1.length + left.2.length ≤ candidates.length + kept.length := by
  induction relocations generalizing candidates kept with
  | nil => simp [keepTargets, IsTarget]
  | cons r relocations ih =>
    simp only [isTarget_cons]
    unfold keepTargets
    cases hlookup : definitions.lookup r.symbol with
    | none =>
      simpa using ih candidates kept
    | some target =>
      dsimp only
      split
      · next hmoves =>
        simp only [Bool.and_eq_true, bne_iff_ne, ne_eq, List.contains_iff_mem] at hmoves
        obtain ⟨hleft, hkept, hlength⟩ := ih (candidates.filter (· != target)) (target :: kept)
        refine ⟨fun n ↦ ?_, fun n ↦ ?_, ?_⟩
        · rw [hleft, List.mem_filter]
          grind
        · rw [hkept, List.mem_filter]
          grind
        · have hshort : (candidates.filter (· != target)).length < candidates.length :=
            List.length_filter_lt_length_iff_exists.mpr ⟨target, hmoves.2, by simp⟩
          rw [List.length_cons] at hlength
          omega
      · next hstays =>
        obtain ⟨hleft, hkept, hlength⟩ := ih candidates kept
        have hnot : ∀ n, n ∈ candidates → ¬ (some target = some n ∧ n ≠ number) := by
          rintro n hn ⟨htarget, hne⟩
          cases htarget
          exact hstays (by simp [hne, hn])
        refine ⟨fun n ↦ ?_, fun n ↦ ?_, hlength⟩
        · rw [hleft]
          grind
        · rw [hkept]
          grind

/-- A section has a target that is another section. -/
def Targets (e : Editor) (definitions : List (Nat × Nat)) (number n : Nat) : Prop :=
  ∃ relocations, e.relocations number = .ok relocations ∧ IsTarget definitions number relocations n

/-- With enough fuel the candidates that are left are no targets of what is kept, and neither are
they of the candidates that are taken out. -/
theorem keepReferenced_closed {fuel : Nat} {candidates kept left : List Nat}
    (h : keepReferenced e definitions fuel candidates kept = .ok left)
    (hfuel : candidates.length + kept.length ≤ fuel) :
    (∀ n ∈ left, n ∈ candidates) ∧ ∀ number, number ∈ kept ∨ (number ∈ candidates ∧ number ∉ left) →
      ∀ n, Targets e definitions number n → n ∉ left := by
  induction fuel generalizing candidates kept with
  | zero =>
    have hkept : kept = [] := List.eq_nil_of_length_eq_zero (by omega)
    cases h
    subst hkept
    exact ⟨fun _ h ↦ h, fun number h ↦ by simp at h⟩
  | succ fuel ih =>
    cases kept with
    | nil =>
      cases h
      exact ⟨fun _ h ↦ h, fun number h ↦ by simp at h⟩
    | cons first kept =>
      obtain ⟨relocations, hrelocations, h⟩ := Outcome.bind_eq_ok_iff.mp h
      obtain ⟨hleft, hkept, hlength⟩ :=
        keepTargets_spec definitions first relocations candidates kept
      generalize keepTargets definitions first relocations (candidates, kept) = moved
        at h hleft hkept hlength
      rw [List.length_cons] at hfuel
      obtain ⟨hsub, hclosed⟩ := ih h (by omega)
      refine ⟨fun n hn ↦ ((hleft n).mp (hsub n hn)).1, fun number hnumber n htarget hn ↦ ?_⟩
      by_cases hfirst : number = first
      · subst hfirst
        obtain ⟨relocations', hrelocations', htarget⟩ := htarget
        cases hrelocations.symm.trans hrelocations'
        exact ((hleft n).mp (hsub n hn)).2 htarget
      · refine hclosed number ?_ n htarget hn
        rcases hnumber with hnumber | ⟨hnumber, hgone⟩
        · exact .inl ((hkept number).mpr (.inl ((List.mem_cons.mp hnumber).resolve_left hfirst)))
        · by_cases htarget : IsTarget definitions first relocations number
          · exact .inl ((hkept number).mpr (.inr ⟨hnumber, htarget⟩))
          · exact .inr ⟨(hleft number).mpr ⟨hnumber, htarget⟩, hgone⟩

/-- What holds of all that is kept, and passes on to targets, holds of what is taken out. -/
theorem keepReferenced_taken {fuel : Nat} {candidates kept left : List Nat} {P : Nat → Prop}
    (h : keepReferenced e definitions fuel candidates kept = .ok left)
    (hkept : ∀ n ∈ kept, P n)
    (hpass : ∀ number n, P number → n ∈ candidates → Targets e definitions number n → P n) :
    ∀ n ∈ candidates, n ∉ left → P n := by
  induction fuel generalizing candidates kept with
  | zero =>
    cases h
    exact fun n hn hnot ↦ (hnot hn).elim
  | succ fuel ih =>
    cases kept with
    | nil =>
      cases h
      exact fun n hn hnot ↦ (hnot hn).elim
    | cons first kept =>
      obtain ⟨relocations, hrelocations, h⟩ := Outcome.bind_eq_ok_iff.mp h
      obtain ⟨hfirst, hkept⟩ := List.forall_mem_cons.mp hkept
      obtain ⟨hleft, hmoved, -⟩ :=
        keepTargets_spec definitions first relocations candidates kept
      generalize keepTargets definitions first relocations (candidates, kept) = moved
        at h hleft hmoved
      have htaken : ∀ n ∈ candidates, IsTarget definitions first relocations n → P n :=
        fun n hn htarget ↦ hpass first n hfirst hn ⟨relocations, hrelocations, htarget⟩
      intro n hn hnot
      by_cases htarget : IsTarget definitions first relocations n
      · exact htaken n hn htarget
      · refine ih h (fun n hn ↦ ?_) (fun number n hnumber hn ↦ ?_) n ((hleft n).mpr ⟨hn, htarget⟩)
          hnot
        · rcases (hmoved n).mp hn with hn | ⟨hn, htarget⟩
          · exact hkept n hn
          · exact htaken n hn htarget
        · exact hpass number n hnumber ((hleft n).mp hn).1

/-! ### Sections that go along -/

/-- Sections that are not candidates. -/
def others (sections : List EditorSection) (candidates : List Nat) : List EditorSection :=
  sections.filter fun s ↦ !candidates.contains s.number

/-- Numbers of sections that go along with a candidate. -/
def associated (sections : List EditorSection) (candidates : List Nat) : List Nat :=
  (sections.filter fun s ↦ !candidates.contains s.number
    && s.isAssociatedWith candidates.contains).map EditorSection.number

theorem mem_associated_iff {candidates : List Nat} :
    n ∈ associated sections candidates ↔ ∃ s ∈ sections, s.number = n ∧ n ∉ candidates ∧
      ∃ number ∈ candidates, s.GoesWith number := by
  simp only [associated, List.mem_map, List.mem_filter, Bool.and_eq_true, Bool.not_eq_true',
    EditorSection.isAssociatedWith_iff, List.contains_iff_mem, ← Bool.not_eq_true]
  exact ⟨fun ⟨s, ⟨hs, hnot, hgoes⟩, hn⟩ ↦ ⟨s, hs, hn, hn ▸ hnot, hgoes⟩,
    fun ⟨s, hs, hn, hnot, hgoes⟩ ↦ ⟨s, ⟨hs, hn ▸ hnot, hgoes⟩, hn⟩⟩

/-- Every round leaves fewer sections over. -/
theorem length_others_append_lt {candidates : List Nat}
    (h : associated sections candidates ≠ []) :
    (others sections (candidates ++ associated sections candidates)).length
      < (others sections candidates).length := by
  have heq : others sections (candidates ++ associated sections candidates)
      = (others sections candidates).filter
        fun s ↦ !(associated sections candidates).contains s.number := by
    unfold others
    rw [List.filter_filter]
    refine List.filter_congr fun s _ ↦ ?_
    simp [Bool.and_comm]
  obtain ⟨number, hnumber⟩ := List.exists_mem_of_ne_nil _ h
  obtain ⟨s, hs, rfl, hnot, -⟩ := mem_associated_iff.mp hnumber
  rw [heq]
  refine List.length_filter_lt_length_iff_exists.mpr ⟨s, List.mem_filter.mpr ⟨hs, ?_⟩, ?_⟩
  · simpa using hnot
  · simpa using hnumber

theorem withAssociated_succ (fuel : Nat) (candidates : List Nat) :
    withAssociated sections (fuel + 1) candidates =
      if (associated sections candidates).isEmpty then candidates
      else withAssociated sections fuel (candidates ++ associated sections candidates) := rfl

/-- Adding associated sections adds all of them when there is enough fuel. -/
theorem withAssociated_closed {fuel : Nat} {candidates : List Nat}
    (hfuel : (others sections candidates).length < fuel) {s : EditorSection} (hs : s ∈ sections)
    (hn : n ∈ withAssociated sections fuel candidates) (hgoes : s.GoesWith n) :
    s.number ∈ withAssociated sections fuel candidates := by
  induction fuel generalizing candidates with
  | zero => omega
  | succ fuel ih =>
    rw [withAssociated_succ] at hn ⊢
    split at hn
    · next hnone =>
      rw [if_pos hnone]
      by_contra hnot
      have hmem := mem_associated_iff.mpr ⟨s, hs, rfl, hnot, n, hn, hgoes⟩
      rw [List.isEmpty_iff.mp hnone] at hmem
      cases hmem
    · next hsome =>
      rw [if_neg hsome]
      have hshorter := length_others_append_lt (mt List.isEmpty_iff.mpr hsome)
      exact ih (by omega) hn

/-- What holds of the candidates, and passes on to what goes along, holds of all that is added. -/
theorem forall_mem_withAssociated {fuel : Nat} {candidates : List Nat} {P : Nat → Prop}
    (hcandidates : ∀ n ∈ candidates, P n)
    (hpass : ∀ s ∈ sections, ∀ n, P n → s.GoesWith n → P s.number) :
    ∀ n ∈ withAssociated sections fuel candidates, P n := by
  induction fuel generalizing candidates with
  | zero => exact hcandidates
  | succ fuel ih =>
    rw [withAssociated_succ]
    split
    · exact hcandidates
    · refine ih fun n hn ↦ ?_
      rcases List.mem_append.mp hn with hn | hn
      · exact hcandidates n hn
      · obtain ⟨s, hs, rfl, -, number, hnumber, hgoes⟩ := mem_associated_iff.mp hn
        exact hpass s hs number (hcandidates number hnumber) hgoes

theorem subset_withAssociated {fuel : Nat} {candidates : List Nat} (hn : n ∈ candidates) :
    n ∈ withAssociated sections fuel candidates := by
  induction fuel generalizing candidates with
  | zero => exact hn
  | succ fuel ih =>
    rw [withAssociated_succ]
    split
    · exact hn
    · exact ih (List.mem_append_left _ hn)

/-! ### Sections that are taken back -/

/-- A symbol that lives in a section has to stay. -/
def IsPinned (registry : Registry) (t : ObjectTable) (symbols : List EditorSymbol) (n : Nat) :
    Prop :=
  ∃ raw ∈ symbols, livesIn n raw = true ∧ canLeave registry t raw (nameOf t raw) = false

theorem eq_toNat_of_livesIn {raw : EditorSymbol} (h : livesIn n raw = true) :
    n = raw.sectionNumber.toNat := by
  simp only [livesIn, Bool.and_eq_true, beq_iff_eq] at h
  omega

/-- Candidates in which a symbol has to stay are taken back, and no others. -/
theorem mem_leftovers_iff {registry : Registry} {t : ObjectTable} {symbols : List EditorSymbol}
    {candidates : List Nat} :
    n ∈ (leftovers registry t symbols candidates).1 ↔
      n ∈ candidates ∧ ¬ IsPinned registry t symbols n := by
  induction symbols generalizing candidates with
  | nil => simp [leftovers, IsPinned]
  | cons raw symbols ih =>
    have hpinned : IsPinned registry t (raw :: symbols) n ↔
        (livesIn n raw = true ∧ canLeave registry t raw (nameOf t raw) = false) ∨
          IsPinned registry t symbols n := by
      simp [IsPinned]
    unfold leftovers
    rw [hpinned]
    split
    · next hlives =>
      obtain ⟨number, hnumber, hlives⟩ := List.any_eq_true.mp hlives
      have hown := eq_toNat_of_livesIn hlives
      dsimp only
      split
      · next hleave =>
        rw [show canLeave registry t raw (nameOf t raw) = true from hleave, ih]
        simp
      · next hstays =>
        have hstays : canLeave registry t raw (nameOf t raw) = false := Bool.not_eq_true _ ▸ hstays
        rw [ih, List.mem_filter, hstays]
        by_cases hn : n = number
        · subst hn
          simp [hlives, ← hown]
        · have hother : livesIn n raw ≠ true := fun h ↦
            hn ((eq_toNat_of_livesIn h).trans hown.symm)
          simp [hother, ← hown, hn]
    · next hnone =>
      have hnot : n ∈ candidates → livesIn n raw ≠ true := fun hn h ↦
        hnone (List.any_eq_true.mpr ⟨n, hn, h⟩)
      rw [ih]
      grind

/-- The symbols that live in a candidate which is left over go along with it. -/
theorem mem_symbols_of_mem_leftovers {registry : Registry} {t : ObjectTable}
    {symbols : List EditorSymbol} {candidates : List Nat} {raw : EditorSymbol} (hraw : raw ∈ symbols)
    (hn : n ∈ (leftovers registry t symbols candidates).1) (hlives : livesIn n raw = true) :
    (raw, nameOf t raw) ∈ (leftovers registry t symbols candidates).2 := by
  induction symbols generalizing candidates with
  | nil => cases hraw
  | cons first symbols ih =>
    unfold leftovers at hn ⊢
    split at hn
    · next hany =>
      rw [if_pos hany]
      dsimp only at hn ⊢
      split at hn
      · next hleave =>
        rw [if_pos hleave]
        rcases List.mem_cons.mp hraw with rfl | hraw
        · exact List.mem_cons_self ..
        · exact List.mem_cons_of_mem _ (ih hraw hn)
      · next hstays =>
        rw [if_neg hstays]
        rcases List.mem_cons.mp hraw with rfl | hraw
        · have hkept := (List.mem_filter.mp (mem_leftovers_iff.mp hn).1).2
          rw [← eq_toNat_of_livesIn hlives] at hkept
          simp at hkept
        · exact ih hraw hn
    · next hnone =>
      rw [if_neg hnone]
      rcases List.mem_cons.mp hraw with rfl | hraw
      · exact (hnone (List.any_eq_true.mpr ⟨n, (mem_leftovers_iff.mp hn).1, hlives⟩)).elim
      · exact ih hraw hn

/-- What goes along with candidates that are left over are the symbols that live there. -/
theorem mem_leftovers_symbols_iff {registry : Registry} {t : ObjectTable}
    {symbols : List EditorSymbol} {candidates : List Nat} {raw : EditorSymbol} {name : String} :
    ((raw, name) ∈ (leftovers registry t symbols candidates).2 ∧
      raw.sectionNumber.toNat ∈ (leftovers registry t symbols candidates).1) ↔
    raw ∈ symbols ∧ nameOf t raw = name ∧
      ∃ n ∈ (leftovers registry t symbols candidates).1, livesIn n raw = true := by
  constructor
  · rintro ⟨hmem, hleft⟩
    obtain ⟨hraw, number, hlives⟩ := livesIn_of_mem_leftovers hmem
    refine ⟨hraw, (canLeave_of_mem_leftovers hmem).2.symm, number, ?_, hlives⟩
    rwa [eq_toNat_of_livesIn hlives]
  · rintro ⟨hraw, rfl, n, hn, hlives⟩
    exact ⟨mem_symbols_of_mem_leftovers hraw hn hlives, eq_toNat_of_livesIn hlives ▸ hn⟩

/-! ### The plan -/

/-- Symbols of different records carry definitions of their own. -/
theorem lookup_definitionSections_iff
    (hdistinct : symbols.Pairwise fun a b ↦ a.index ≠ b.index) {index : Nat} :
    (definitionSections symbols).lookup index = some n ↔
      (index, n) ∈ definitionSections symbols := by
  have hpairs : (definitionSections symbols).Pairwise fun a b ↦ a.1 ≠ b.1 := by
    unfold definitionSections
    rw [List.pairwise_map]
    exact hdistinct.filter _
  rw [List.lookup_eq_some_iff]
  constructor
  · rintro ⟨before, behind, heq, -⟩
    rw [heq]
    exact List.mem_append_right _ (List.mem_cons_self ..)
  · intro hmem
    obtain ⟨before, behind, heq⟩ := List.append_of_mem hmem
    rw [heq] at hpairs
    refine ⟨before, behind, heq, fun p hp ↦ ?_⟩
    have hne := (List.pairwise_append.mp hpairs).2.2 p hp _ (List.mem_cons_self ..)
    simpa using Ne.symm hne

theorem targets_iff (hdistinct : symbols.Pairwise fun a b ↦ a.index ≠ b.index) :
    Targets e (definitionSections symbols) number n ↔ RefersTo e symbols number n ∧ n ≠ number := by
  simp only [Targets, IsTarget, RefersTo, lookup_definitionSections_iff hdistinct]
  exact ⟨fun ⟨relocations, h, r, hr, hmem, hne⟩ ↦ ⟨⟨relocations, h, r, hr, hmem⟩, hne⟩,
    fun ⟨⟨relocations, h, r, hr, hmem⟩, hne⟩ ↦ ⟨relocations, h, r, hr, hmem, hne⟩⟩

section Plan

variable (s : Stripping) (symbols : List EditorSymbol) (sections : List EditorSection)

/-- A section of the image whose definitions were all stripped. -/
def IsEmptied (n : Nat) : Prop := n ∈ emptiedSections sections symbols s.emptied

/-- Sections of the image that are needed: those that were not emptied, and emptied ones that a
needed section refers to. -/
inductive IsNeeded : Nat → Prop where
  | full {c : EditorSection} (hc : c ∈ sections) (himage : c.isPartOfImage = true)
      (h : ¬ IsEmptied s symbols sections c.number) : IsNeeded c.number
  | referred {number n : Nat} (h : IsNeeded number) (hrefers : RefersTo s.editor symbols number n)
      (hemptied : IsEmptied s symbols sections n) : IsNeeded n

/-- Sections that go: emptied ones that are not needed, and what goes along with one that goes. -/
inductive Goes : Nat → Prop where
  | emptied {n : Nat} (h : IsEmptied s symbols sections n)
      (hfree : ¬ IsNeeded s symbols sections n) : Goes n
  | along {c : EditorSection} {n : Nat} (hc : c ∈ sections) (h : Goes n) (hgoes : c.GoesWith n) :
      Goes c.number

variable {s symbols sections}

theorem exists_section_of_isEmptied (h : IsEmptied s symbols sections n) :
    ∃ c ∈ sections, c.number = n ∧ c.isPartOfImage = true := by
  obtain ⟨c, hc, rfl⟩ := List.mem_map.mp h
  obtain ⟨hc, hemptied⟩ := List.mem_filter.mp hc
  simp only [Bool.and_eq_true] at hemptied
  exact ⟨c, hc, rfl, hemptied.1.2⟩

/-- What goes is a section that is in the image or goes along with another one. -/
theorem exists_section_of_goes (h : Goes s symbols sections n) :
    ∃ c ∈ sections, c.number = n ∧ (c.isPartOfImage = true ∨ ∃ number, c.GoesWith number) := by
  cases h with
  | emptied h =>
    obtain ⟨c, hc, hn, himage⟩ := exists_section_of_isEmptied h
    exact ⟨c, hc, hn, .inl himage⟩
  | along hc _ hgoes => exact ⟨_, hc, rfl, .inr ⟨_, hgoes⟩⟩

/-- Nothing goes from a file of which nothing was stripped. -/
theorem not_goes_of_emptied_eq_nil (h : s.emptied = []) : ¬ Goes s symbols sections n := by
  have hnone : ∀ n, ¬ IsEmptied s symbols sections n := by
    intro n hn
    simp [IsEmptied, emptiedSections, h] at hn
  intro hgoes
  induction hgoes with
  | emptied h _ => exact hnone _ h
  | along _ _ _ ih => exact ih

/-- A section is emptied or kept, so that both lists together are not longer than the sections. -/
theorem length_emptiedSections_add_le (emptied : List Nat) :
    (emptiedSections sections symbols emptied).length + (sections.filter fun c ↦ c.isPartOfImage
      && !(emptiedSections sections symbols emptied).contains c.number).length
        ≤ sections.length := by
  have hkept : (sections.filter fun c ↦ c.isPartOfImage
      && !(emptiedSections sections symbols emptied).contains c.number).length
        ≤ (sections.filter fun c ↦ !(emptied.contains c.number && c.isPartOfImage
          && !symbols.any (livesIn c.number))).length := by
    rw [← List.countP_eq_length_filter, ← List.countP_eq_length_filter]
    refine List.countP_mono_left fun c hc hkept ↦ ?_
    by_contra hnot
    rw [Bool.not_eq_true, Bool.not_eq_false'] at hnot
    have hmem : c.number ∈ emptiedSections sections symbols emptied :=
      List.mem_map_of_mem (List.mem_filter.mpr ⟨hc, hnot⟩)
    simp [hmem] at hkept
  have hall := sections.length_eq_length_filter_add fun c ↦ emptied.contains c.number
    && c.isPartOfImage && !symbols.any (livesIn c.number)
  rw [hall, emptiedSections, List.length_map]
  exact Nat.add_le_add_left hkept _

/-- The emptied sections that are left over are those that are not needed. -/
theorem mem_keepReferenced_iff (hdistinct : symbols.Pairwise fun a b ↦ a.index ≠ b.index)
    {left : List Nat}
    (h : keepReferenced s.editor (definitionSections symbols) (sections.length + 1)
      (emptiedSections sections symbols s.emptied)
      ((sections.filter fun c ↦ c.isPartOfImage
        && !(emptiedSections sections symbols s.emptied).contains c.number).map
          EditorSection.number).reverse = .ok left) :
    n ∈ left ↔ IsEmptied s symbols sections n ∧ ¬ IsNeeded s symbols sections n := by
  have hkept : ∀ n, n ∈ ((sections.filter fun c ↦ c.isPartOfImage
      && !(emptiedSections sections symbols s.emptied).contains c.number).map
        EditorSection.number).reverse ↔
      ∃ c ∈ sections, c.number = n ∧ c.isPartOfImage = true ∧
        ¬ IsEmptied s symbols sections c.number := by
    intro n
    simp only [List.mem_reverse, List.mem_map, List.mem_filter, Bool.and_eq_true,
      Bool.not_eq_true', ← Bool.not_eq_true, List.contains_iff_mem, IsEmptied]
    exact ⟨fun ⟨c, ⟨hc, h⟩, hn⟩ ↦ ⟨c, hc, hn, h⟩, fun ⟨c, hc, hn, h⟩ ↦ ⟨c, ⟨hc, h⟩, hn⟩⟩
  obtain ⟨hsub, hclosed⟩ := keepReferenced_closed h (by
    rw [List.length_reverse, List.length_map]
    exact Nat.le_succ_of_le (length_emptiedSections_add_le s.emptied))
  constructor
  · intro hn
    refine ⟨hsub n hn, fun hneeded ↦ ?_⟩
    induction hneeded with
    | full hc himage hnot => exact hnot (hsub _ hn)
    | @referred number n hneeded hrefers hemptied ih =>
      by_cases hsame : n = number
      · exact ih (hsame ▸ hn)
      · refine hclosed number ?_ n ((targets_iff hdistinct).mpr ⟨hrefers, hsame⟩) hn
        by_cases hnumber : IsEmptied s symbols sections number
        · exact .inr ⟨hnumber, ih⟩
        · cases hneeded with
          | full hc himage hnot => exact .inl ((hkept _).mpr ⟨_, hc, rfl, himage, hnot⟩)
          | referred _ _ h => exact (hnumber h).elim
  · rintro ⟨hemptied, hfree⟩
    by_contra hnot
    refine hfree (keepReferenced_taken h (P := IsNeeded s symbols sections) (fun n hn ↦ ?_)
      (fun number n hnumber hn htarget ↦ ?_) n hemptied hnot)
    · obtain ⟨c, hc, rfl, himage, hnot⟩ := (hkept n).mp hn
      exact .full hc himage hnot
    · exact .referred hnumber ((targets_iff hdistinct).mp htarget).1 hn

/-- A section is dropped if it goes and no symbol in it has to stay. -/
theorem mem_planSections_iff {registry : Registry} {plan : List Nat × List (EditorSymbol × String)}
    (hdistinct : symbols.Pairwise fun a b ↦ a.index ≠ b.index)
    (hsymbols : s.editor.symbols = .ok symbols) (hsections : s.editor.sections = .ok sections)
    (hplan : s.planSections registry = .ok plan) :
    n ∈ plan.1 ↔ Goes s symbols sections n ∧ ¬ IsPinned registry s.table symbols n := by
  obtain ⟨symbols', hsymbols', hplan⟩ := Outcome.bind_eq_ok_iff.mp hplan
  cases hsymbols.symm.trans hsymbols'
  obtain ⟨sections', hsections', hplan⟩ := Outcome.bind_eq_ok_iff.mp hplan
  cases hsections.symm.trans hsections'
  obtain ⟨left, hleft, hplan⟩ := Outcome.bind_eq_ok_iff.mp hplan
  cases hplan
  have hmem : n ∈ withAssociated sections (sections.length + 1) left
      ↔ Goes s symbols sections n := by
    constructor
    · refine forall_mem_withAssociated (P := Goes s symbols sections) (fun n hn ↦ ?_)
        (fun c hc _ h hgoes ↦ .along hc h hgoes) n
      obtain ⟨hemptied, hfree⟩ := (mem_keepReferenced_iff hdistinct hleft).mp hn
      exact .emptied hemptied hfree
    · intro hgoes
      induction hgoes with
      | emptied h hfree =>
        exact subset_withAssociated ((mem_keepReferenced_iff hdistinct hleft).mpr ⟨h, hfree⟩)
      | along hc _ hgoes ih =>
        exact withAssociated_closed (Nat.lt_succ_of_le (List.length_filter_le ..)) hc ih hgoes
  simp only [List.mem_filter, List.contains_iff_mem, mem_leftovers_iff, hmem]
  refine ⟨And.right, fun h ↦ ⟨?_, h⟩⟩
  obtain ⟨c, hc, hn, -⟩ := exists_section_of_goes h.1
  exact List.mem_map.mpr ⟨c, hc, hn⟩

/-- What holds of emptied sections, and passes on to what goes along, holds of all that are dropped.
The symbols that go with them live there. -/
theorem forall_mem_planSections {registry : Registry}
    {plan : List Nat × List (EditorSymbol × String)} {P : Nat → Prop}
    (hsymbols : s.editor.symbols = .ok symbols) (hsections : s.editor.sections = .ok sections)
    (hplan : s.planSections registry = .ok plan)
    (hemptied : ∀ n, IsEmptied s symbols sections n → P n)
    (hpass : ∀ c ∈ sections, ∀ n, P n → c.GoesWith n → P c.number) : ∀ n ∈ plan.1, P n := by
  obtain ⟨symbols', hsymbols', hplan⟩ := Outcome.bind_eq_ok_iff.mp hplan
  cases hsymbols.symm.trans hsymbols'
  obtain ⟨sections', hsections', hplan⟩ := Outcome.bind_eq_ok_iff.mp hplan
  cases hsections.symm.trans hsections'
  obtain ⟨left, hleft, hplan⟩ := Outcome.bind_eq_ok_iff.mp hplan
  cases hplan
  obtain ⟨hsub, -⟩ := keepReferenced_closed hleft (by
    rw [List.length_reverse, List.length_map]
    exact Nat.le_succ_of_le (length_emptiedSections_add_le s.emptied))
  intro n hn
  have hn := (mem_leftovers_iff.mp (List.contains_iff_mem.mp (List.mem_filter.mp hn).2)).1
  exact forall_mem_withAssociated (fun n hn ↦ hemptied n (hsub n hn)) hpass n hn

/-- The symbols that go along with sections are those that live in one that is dropped. -/
theorem mem_planSections_symbols_iff {registry : Registry}
    {plan : List Nat × List (EditorSymbol × String)} (hsymbols : s.editor.symbols = .ok symbols)
    (hplan : s.planSections registry = .ok plan) {raw : EditorSymbol} {name : String} :
    (raw, name) ∈ plan.2 ↔ raw ∈ symbols ∧ nameOf s.table raw = name ∧
      ∃ number ∈ plan.1, livesIn number raw = true := by
  obtain ⟨symbols', hsymbols', hplan⟩ := Outcome.bind_eq_ok_iff.mp hplan
  cases hsymbols.symm.trans hsymbols'
  obtain ⟨sections, -, hplan⟩ := Outcome.bind_eq_ok_iff.mp hplan
  obtain ⟨left, hleft, hplan⟩ := Outcome.bind_eq_ok_iff.mp hplan
  cases hplan
  obtain ⟨hsub, -⟩ := keepReferenced_closed hleft (by
    rw [List.length_reverse, List.length_map]
    exact Nat.le_succ_of_le (length_emptiedSections_add_le s.emptied))
  generalize hcandidates : withAssociated sections (sections.length + 1) left = candidates
  have hlisted : ∀ n ∈ candidates, n ∈ sections.map EditorSection.number := by
    rw [← hcandidates]
    refine forall_mem_withAssociated (fun n hn ↦ ?_) fun c hc _ _ _ ↦ List.mem_map_of_mem hc
    obtain ⟨c, hc, rfl, -⟩ := exists_section_of_isEmptied (hsub n hn)
    exact List.mem_map_of_mem hc
  have hdropped : ∀ n, n ∈ (sections.map EditorSection.number).filter
      (leftovers registry s.table symbols candidates).1.contains ↔
        n ∈ (leftovers registry s.table symbols candidates).1 := by
    intro n
    rw [List.mem_filter, List.contains_iff_mem]
    exact ⟨And.right, fun h ↦ ⟨hlisted n (mem_leftovers_iff.mp h).1, h⟩⟩
  rw [List.mem_filter, List.contains_iff_mem]
  simp only [hdropped]
  exact mem_leftovers_symbols_iff

/-- Symbols go along with sections only if they can. -/
theorem canLeave_of_mem_planSections {registry : Registry}
    {plan : List Nat × List (EditorSymbol × String)} (hplan : s.planSections registry = .ok plan)
    {raw : EditorSymbol} {name : String} (h : (raw, name) ∈ plan.2) :
    canLeave registry s.table raw name = true := by
  obtain ⟨symbols, -, hplan⟩ := Outcome.bind_eq_ok_iff.mp hplan
  obtain ⟨sections, -, hplan⟩ := Outcome.bind_eq_ok_iff.mp hplan
  obtain ⟨left, -, hplan⟩ := Outcome.bind_eq_ok_iff.mp hplan
  cases hplan
  exact (canLeave_of_mem_leftovers (List.mem_filter.mp h).1).1

/-- What is taken along are symbols that do not stand for their sections. -/
theorem kind_of_mem_planSections {registry : Registry}
    {plan : List Nat × List (EditorSymbol × String)} (hsymbols : s.editor.symbols = .ok symbols)
    (hplan : s.planSections registry = .ok plan) {p : EditorSymbol × String} (hp : p ∈ plan.2) :
    p.1 ∈ symbols ∧ p.1.isSectionDefinition = false := by
  obtain ⟨symbols', hsymbols', hplan⟩ := Outcome.bind_eq_ok_iff.mp hplan
  cases hsymbols.symm.trans hsymbols'
  obtain ⟨sections', -, hplan⟩ := Outcome.bind_eq_ok_iff.mp hplan
  obtain ⟨left, -, hplan⟩ := Outcome.bind_eq_ok_iff.mp hplan
  cases hplan
  obtain ⟨hraw, number, hlives⟩ := livesIn_of_mem_leftovers (List.mem_filter.mp hp).1
  exact ⟨hraw, (alive_of_livesIn hlives).2.1⟩

end Plan

/-- Symbols of a file have records of their own. -/
theorem pairwise_index (ho : Editor.Outline e symbols) :
    symbols.Pairwise fun a b ↦ a.index ≠ b.index :=
  (Editor.pairwise_symbolsFrom ho.listing).imp fun h ↦ by omega

end Stripping
end LivePatch
