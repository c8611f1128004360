import LivePatch.Proofs.Build.Sections
import LivePatch.Proofs.Coff.Sparing

/-!
# Dropping emptied sections

What is left of an object file once its emptied sections were dropped. A section that stays because
it was not emptied refers to no emptied one that is dropped. That is settled before sections go
along with others and before any are taken back, so that it holds neither of references to sections
that went along, nor of those from sections that were taken back.
-/

namespace LivePatch

namespace Stripping

open Coff

variable {registry : Registry} {s s' : Stripping} {symbols : List EditorSymbol}
  {sections : List EditorSection} {n : Nat}

/-- A section was dropped by edits of a file. -/
def IsDropped (e e' : Editor) (n : Nat) : Prop :=
  ∃ h h', e.header n = .ok h ∧ e'.header n = .ok h' ∧
    h.characteristics ≠ flagRemove ||| flagDiscardable ∧
    h'.characteristics = flagRemove ||| flagDiscardable

/-- No section of the image refers to one that was dropped, or goes along with one. -/
def IsSelfContained (e e' : Editor) : Prop :=
  ∃ symbols sections, e'.symbols = .ok symbols ∧ e'.sections = .ok sections ∧
    ∀ c ∈ sections, c.isPartOfImage = true → ∀ n, IsDropped e e' n →
      ¬ RefersTo e' symbols c.number n ∧ ¬ c.GoesWith n

/-! ### What is done to the file -/

/-- What a section of a file was found to be. -/
theorem exists_header_of_mem {e : Editor} (hsections : e.sections = .ok sections)
    {c : EditorSection} (hc : c ∈ sections) :
    ∃ h, e.header c.number = .ok h ∧ h.characteristics = c.characteristics ∧
      ∀ n, c.GoesWith n → hasFlag c.characteristics flagComdat = true := by
  obtain ⟨symbols, -, hsections⟩ := Outcome.bind_eq_ok_iff.mp hsections
  obtain ⟨definitions, -, hsections⟩ := Outcome.bind_eq_ok_iff.mp hsections
  obtain ⟨number, -, hc⟩ := (Outcome.mem_mapM_iff hsections).mp hc
  obtain ⟨h, hh, hc⟩ := Outcome.bind_eq_ok_iff.mp hc
  cases hc
  refine ⟨h, hh, rfl, fun n hgoes ↦ ?_⟩
  obtain ⟨comdat, hcomdat, -⟩ := hgoes
  dsimp only at hcomdat ⊢
  split at hcomdat
  · assumption
  · cases hcomdat

/-- Edits of a file's bytes. -/
theorem triple_editor {α : Type} {act : EditM α} {P stop : Editor → Prop} {Q : α → Editor → Prop}
    (h : Triple P act Q stop) :
    Triple (fun s : Stripping ↦ P s.editor) (edit act) (fun a s ↦ Q a s.editor)
      fun s ↦ stop s.editor := by
  intro s hs
  have hact := h s.editor hs
  have hrun : (edit act).run s
      = ((act.run s.editor).1, { s with editor := (act.run s.editor).2 }) := rfl
  rw [hrun]
  generalize act.run s.editor = r at hact
  rcases r with ⟨_ | a, e⟩
  · exact hact
  · exact hact

/-- A file of which symbols were neutralized that carry no definitions of sections, and certain
sections were dropped. -/
def IsLeft (e₀ : Editor) (listed : List EditorSymbol) (dropped : List Nat) (e : Editor) : Prop :=
  ∃ gone, (∀ raw ∈ listed, raw.index ∈ gone → raw.isSectionDefinition = false) ∧
    Editor.Edited e₀ listed gone dropped e ∧ Editor.Spared e₀ listed e

section Steps

variable {e₀ : Editor} {listed : List EditorSymbol} {dropped : List Nat}

theorem isLeft_remove (ho : Editor.Outline e₀ listed) {raw : EditorSymbol} (hraw : raw ∈ listed)
    (hkind : raw.isSectionDefinition = false) (name : String) :
    Triple (fun s ↦ IsLeft e₀ listed dropped s.editor) (remove raw name)
      (fun _ s ↦ IsLeft e₀ listed dropped s.editor) fun _ ↦ True := by
  have hedit : Triple (IsLeft e₀ listed dropped) (Editor.removeSymbol raw.index)
      (fun _ ↦ IsLeft e₀ listed dropped) fun _ ↦ True := by
    refine Triple.of_pre fun e ⟨gone, hgone, hedited, hspared⟩ ↦ ?_
    have hremove : Triple (Editor.Edited e₀ listed gone dropped) (Editor.removeSymbol raw.index)
        (fun _ ↦ Editor.Edited e₀ listed (raw.index :: gone) dropped) fun _ ↦ True :=
      Editor.triple_removeSymbol ho hraw
    refine (Triple.and hremove (Editor.spared_removeSymbol ho hraw)).mono
      (fun _ h ↦ h ▸ ⟨hedited, hspared⟩) (fun _ _ h ↦ ⟨_, ?_, h⟩) fun _ _ ↦ trivial
    intro other hother hindex
    rcases List.mem_cons.mp hindex with hindex | hindex
    · exact ho.eq_of_index hother hraw hindex ▸ hkind
    · exact hgone other hother hindex
  exact (triple_editor hedit).bind fun _ ↦ Triple.modify fun _ h ↦ h

theorem isLeft_removeSection (ho : Editor.Outline e₀ listed) (number : Nat) :
    Triple (fun s ↦ IsLeft e₀ listed dropped s.editor) (edit (Editor.removeSection number))
      (fun _ s ↦ IsLeft e₀ listed (number :: dropped) s.editor) fun _ ↦ True := by
  have hedit : Triple (IsLeft e₀ listed dropped) (Editor.removeSection number)
      (fun _ ↦ IsLeft e₀ listed (number :: dropped)) fun _ ↦ True := by
    refine Triple.of_pre fun e ⟨gone, hgone, h⟩ ↦ ?_
    have hdrop : Triple (fun e ↦ Editor.Edited e₀ listed gone dropped e ∧ Editor.Spared e₀ listed e)
      (Editor.removeSection number) _ _ := Editor.spared_removeSection ho
    exact hdrop.mono (fun _ heq ↦ heq ▸ h) (fun _ _ h ↦ ⟨gone, hgone, h⟩) fun _ h ↦ h
  exact triple_editor hedit

end Steps

/-- Dropping emptied sections leaves a file in which exactly those are dropped that go and are not
taken back. -/
theorem exists_isLeft (ho : Editor.Outline s.editor symbols)
    (hsections : s.editor.sections = .ok sections)
    (hrun : (removeEmptied registry).run s = (.ok (), s')) :
    ∃ dropped, IsLeft s.editor symbols dropped s'.editor ∧
      ∀ n, n ∈ dropped ↔ Goes s symbols sections n ∧ ¬ IsPinned registry s.table symbols n := by
  have hstart : IsLeft s.editor symbols [] s.editor := ⟨[], by simp, .refl, .refl⟩
  unfold removeEmptied at hrun
  rw [run_bind, run_get] at hrun
  dsimp only at hrun
  split at hrun
  · next hnone =>
    cases hrun
    exact ⟨[], hstart, fun n ↦ ⟨nofun, fun h ↦
      (not_goes_of_emptied_eq_nil (List.isEmpty_iff.mp hnone) h.1).elim⟩⟩
  · rw [run_bind, run_lift] at hrun
    rcases hplan : s.planSections registry with _ | ⟨numbers, leaving⟩ <;> rw [hplan] at hrun
    · cases hrun
    · refine ⟨numbers.reverse, ?_, fun n ↦ List.mem_reverse.trans
        (mem_planSections_iff (pairwise_index ho) ho.listing hsections hplan)⟩
      have hremove : Triple (fun s' ↦ IsLeft s.editor symbols [] s'.editor)
          (leaving.forM fun p ↦ remove p.1 p.2) (fun _ s' ↦ IsLeft s.editor symbols [] s'.editor)
          fun _ ↦ True := by
        refine Triple.forM_keeps fun p hp ↦ ?_
        obtain ⟨hraw, hkind⟩ := kind_of_mem_planSections ho.listing hplan hp
        exact isLeft_remove ho hraw hkind p.2
      have hdrop : Triple (fun s' ↦ IsLeft s.editor symbols [] s'.editor)
          (numbers.forM fun number ↦ edit (Editor.removeSection number))
          (fun _ s' ↦ IsLeft s.editor symbols numbers.reverse s'.editor) fun _ ↦ True := by
        refine Triple.forM_along
          (I := fun done (s' : Stripping) ↦ IsLeft s.editor symbols done.reverse s'.editor)
          fun done number rest _ ↦ ?_
        rw [List.reverse_append]
        exact isLeft_removeSection ho number
      exact (hremove.bind fun _ ↦ hdrop).ok hstart hrun

section Returning

variable {e₀ : Editor} {listed : List EditorSymbol}

/-- A file of which symbols were neutralized and sections were dropped. -/
def IsEdited (e₀ : Editor) (listed : List EditorSymbol) (e : Editor) : Prop :=
  ∃ gone dropped, Editor.Edited e₀ listed gone dropped e

theorem total_remove (ho : Editor.Outline e₀ listed) {raw : EditorSymbol} (hraw : raw ∈ listed)
    (name : String) :
    Triple (fun s ↦ IsEdited e₀ listed s.editor) (remove raw name)
      (fun _ s ↦ IsEdited e₀ listed s.editor) fun _ ↦ False := by
  have hedit : Triple (IsEdited e₀ listed) (Editor.removeSymbol raw.index)
      (fun _ ↦ IsEdited e₀ listed) fun _ ↦ False := by
    refine Triple.of_pre fun e ⟨gone, dropped, hedited⟩ ↦ ?_
    have hremove : Triple (Editor.Edited e₀ listed gone dropped) (Editor.removeSymbol raw.index)
        (fun _ ↦ Editor.Edited e₀ listed (raw.index :: gone) dropped) fun _ ↦ False :=
      Editor.total_removeSymbol ho hraw
    exact hremove.mono (fun _ h ↦ h ▸ hedited) (fun _ _ h ↦ ⟨_, _, h⟩) fun _ h ↦ h
  exact (triple_editor hedit).bind fun _ ↦ Triple.modify fun _ h ↦ h

theorem total_dropSection (ho : Editor.Outline e₀ listed) {number : Nat} (hpos : 0 < number)
    (hle : number ≤ e₀.sectionCount)
    (hdefinitions : ∀ raw ∈ listed, raw.isSectionDefinition = true →
      raw.index + 1 < e₀.symbolCount) :
    Triple (fun s ↦ IsEdited e₀ listed s.editor) (edit (Editor.removeSection number))
      (fun _ s ↦ IsEdited e₀ listed s.editor) fun _ ↦ False := by
  have hedit : Triple (IsEdited e₀ listed) (Editor.removeSection number)
      (fun _ ↦ IsEdited e₀ listed) fun _ ↦ False := by
    refine Triple.of_pre fun e ⟨gone, dropped, hedited⟩ ↦ ?_
    have hdrop : Triple (Editor.Edited e₀ listed gone dropped) (Editor.removeSection number)
        (fun _ ↦ Editor.Edited e₀ listed gone (number :: dropped)) fun _ ↦ False :=
      Editor.total_removeSection ho hpos hle hdefinitions
    exact hdrop.mono (fun _ h ↦ h ▸ hedited) (fun _ _ h ↦ ⟨_, _, h⟩) fun _ h ↦ h
  exact triple_editor hedit

/-- Once it is settled what is dropped, dropping it does not fail. -/
theorem removeEmptied_returns (ho : Editor.Outline s.editor symbols)
    (hsections : s.editor.sections = .ok sections)
    {plan : List Nat × List (EditorSymbol × String)} (hplan : s.planSections registry = .ok plan)
    (hdefinitions : ∀ raw ∈ symbols, raw.isSectionDefinition = true →
      raw.index + 1 < s.editor.symbolCount) :
    ∃ s', (removeEmptied registry).run s = (.ok (), s') := by
  have hremove : Triple (fun s' ↦ IsEdited s.editor symbols s'.editor)
      (plan.2.forM fun p ↦ remove p.1 p.2) (fun _ s' ↦ IsEdited s.editor symbols s'.editor)
      fun _ ↦ False :=
    Triple.forM_keeps fun p hp ↦
      total_remove ho (kind_of_mem_planSections ho.listing hplan hp).1 p.2
  have hdrop : Triple (fun s' ↦ IsEdited s.editor symbols s'.editor)
      (plan.1.forM fun number ↦ edit (Editor.removeSection number))
      (fun _ s' ↦ IsEdited s.editor symbols s'.editor) fun _ ↦ False := by
    refine Triple.forM_keeps fun n hn ↦ ?_
    have hgoes := ((mem_planSections_iff (pairwise_index ho) ho.listing hsections hplan).mp hn).1
    obtain ⟨c, hc, rfl, -⟩ := exists_section_of_goes hgoes
    obtain ⟨header, hh, -⟩ := exists_header_of_mem hsections hc
    obtain ⟨hpos, hle⟩ := Editor.range_of_header hh
    exact total_dropSection ho hpos hle hdefinitions
  have hall : Triple (· = s) (removeEmptied registry) (fun _ _ ↦ True) fun _ ↦ False := by
    refine Triple.bind_get fun s' heq ↦ ?_
    subst heq
    split
    · exact Triple.pure fun _ _ ↦ trivial
    · refine Triple.bind_ok hplan ?_
      exact (hremove.bind fun _ ↦ hdrop).mono (fun _ h ↦ h ▸ ⟨[], [], .refl⟩) (fun _ _ _ ↦ trivial)
        fun _ h ↦ h
  have hreturns := hall s rfl
  rcases hrun : (removeEmptied registry).run s with ⟨_ | ⟨⟩, s'⟩ <;> rw [hrun] at hreturns
  · exact hreturns.elim
  · exact ⟨s', rfl⟩

end Returning

/-! ### What is left -/

section Left

variable {e₀ e : Editor} {listed : List EditorSymbol} {dropped : List Nat}

/-- Section symbols and relocations of the sections that are left are read as they were. -/
theorem IsLeft.refersTo_iff (ho : Editor.Outline e₀ listed) (h : IsLeft e₀ listed dropped e) :
    ∃ listed', e.symbols = .ok listed' ∧ ∀ number ∉ dropped, ∀ n,
      RefersTo e listed' number n ↔ RefersTo e₀ listed number n := by
  obtain ⟨gone, hgone, hedited, hspared⟩ := h
  refine ⟨_, hedited.symbols_eq ho, fun number hkept n ↦ ?_⟩
  have hdefinitions : definitionSections (listed.map (EditorSymbol.after e₀.strategy gone))
      = definitionSections listed := by
    unfold definitionSections
    rw [Editor.filter_after _ hgone]
  rw [RefersTo, RefersTo, hedited.relocations_eq ho hspared hkept, hdefinitions]

/-- A section was dropped from a file that is left if and only if it is one of those. -/
theorem IsLeft.isDropped_iff (ho : Editor.Outline s.editor symbols)
    (hsections : s.editor.sections = .ok sections) (h : IsLeft s.editor symbols dropped e)
    (hdropped : ∀ n ∈ dropped, Goes s symbols sections n) :
    IsDropped s.editor e n ↔ n ∈ dropped := by
  obtain ⟨gone, -, hedited, -⟩ := h
  constructor
  · rintro ⟨header, header', hh, hh', hne, heq⟩
    by_contra hkept
    cases (hh'.symm.trans (hedited.header_eq ho hkept)).trans hh
    exact hne heq
  · intro hn
    obtain ⟨c, hc, rfl, hkind⟩ := exists_section_of_goes (hdropped n hn)
    obtain ⟨header, hh, hflags, hcomdat⟩ := exists_header_of_mem hsections hc
    obtain ⟨hpos, hle⟩ := Editor.range_of_header hh
    obtain ⟨header', hh'⟩ := (hedited.fits ho).exists_header hpos (hedited.sectionCount_eq ▸ hle)
    have hmarked := hedited.headers _ _ hh'
    rw [if_pos hn] at hmarked
    refine ⟨header, header', hh, hh', fun heq ↦ ?_, hmarked⟩
    rw [hflags] at heq
    rcases hkind with himage | ⟨number, hgoes⟩
    · rw [EditorSection.isPartOfImage, heq] at himage
      exact absurd himage (by decide)
    · have := hcomdat number hgoes
      rw [heq] at this
      exact absurd this (by decide)

end Left

/-- A section that goes along with another one, and does not go by itself. -/
def IsDragged (s : Stripping) (symbols : List EditorSymbol) (sections : List EditorSection)
    (n : Nat) : Prop :=
  Goes s symbols sections n ∧ (IsEmptied s symbols sections n → IsNeeded s symbols sections n)

/-- A section that would go, had no symbol in it to stay. -/
def IsTakenBack (registry : Registry) (s : Stripping) (symbols : List EditorSymbol)
    (sections : List EditorSection) (n : Nat) : Prop :=
  Goes s symbols sections n ∧ IsPinned registry s.table symbols n

/-- A section of the image that does not go refers to no section that goes by itself, and goes along
with none that goes. -/
theorem isDragged_of_refersTo {c : EditorSection} (hc : c ∈ sections)
    (himage : c.isPartOfImage = true) (hstays : ¬ Goes s symbols sections c.number)
    (hgoes : Goes s symbols sections n) :
    (RefersTo s.editor symbols c.number n → IsDragged s symbols sections n) ∧ ¬ c.GoesWith n := by
  refine ⟨fun hrefers ↦ ⟨hgoes, fun hemptied ↦ ?_⟩, fun hwith ↦ hstays (.along hc hgoes hwith)⟩
  have hneeded : IsNeeded s symbols sections c.number := by
    by_contra hfree
    by_cases hempty : IsEmptied s symbols sections c.number
    · exact hstays (.emptied hempty hfree)
    · exact hfree (.full hc himage hempty)
  exact .referred hneeded hrefers hemptied

/-- When what is left is self-contained, no section that was left referred to a dropped one. -/
theorem IsSelfContained.of_kept (ho : Editor.Outline s.editor symbols)
    (hsections : s.editor.sections = .ok sections) {dropped : List Nat} {e : Editor}
    (hleft : IsLeft s.editor symbols dropped e) (h : IsSelfContained s.editor e)
    {c : EditorSection} (hc : c ∈ sections) (himage : c.isPartOfImage = true)
    (hkept : c.number ∉ dropped) (hn : IsDropped s.editor e n) :
    ¬ RefersTo s.editor symbols c.number n ∧ ¬ c.GoesWith n := by
  obtain ⟨symbols', hsymbols, hrefers⟩ := hleft.refersTo_iff ho
  obtain ⟨gone, hgone, hedited, hspared⟩ := hleft
  obtain ⟨sections', hsections', -, hstays⟩ :=
    hedited.exists_sections ho hspared hsections hgone
  obtain ⟨_, _, hsymbols', hsections'', hself⟩ := h
  cases hsymbols.symm.trans hsymbols'
  cases hsections'.symm.trans hsections''
  rw [← hrefers c.number hkept n]
  exact hself c (hstays c hc hkept) himage n hn

/-- Dropping emptied sections drops exactly those that go and are not taken back. What is left of
the image then refers to none of them if and only if no section that does not go refers to a dropped
one that was dragged along, and no section that was taken back refers to a dropped one or goes along
with one. -/
theorem left_sections_are_self_contained_iff
    (hparse : Editor.parse s.editor.data s.editor.strategy = .ok s.editor)
    (hparts : s.editor.IsLaidOut) (hsymbols : s.editor.symbols = .ok symbols)
    (hsections : s.editor.sections = .ok sections)
    (hrun : (removeEmptied registry).run s = (.ok (), s')) :
    (∀ n, IsDropped s.editor s'.editor n ↔
      Goes s symbols sections n ∧ ¬ IsPinned registry s.table symbols n) ∧
    (IsSelfContained s.editor s'.editor ↔ ∀ c ∈ sections, c.isPartOfImage = true → ∀ n,
      IsDropped s.editor s'.editor n →
        (¬ Goes s symbols sections c.number → IsDragged s symbols sections n →
          ¬ RefersTo s.editor symbols c.number n) ∧
        (IsTakenBack registry s symbols sections c.number →
          ¬ RefersTo s.editor symbols c.number n ∧ ¬ c.GoesWith n)) := by
  have ho : Editor.Outline s.editor symbols :=
    ⟨Editor.fits_of_parse hparse, hparts.clearances, hsymbols⟩
  obtain ⟨dropped, hleft, hdropped⟩ := exists_isLeft ho hsections hrun
  have hiff : ∀ n, IsDropped s.editor s'.editor n ↔ n ∈ dropped := fun n ↦
    hleft.isDropped_iff ho hsections fun n hn ↦ ((hdropped n).mp hn).1
  refine ⟨fun n ↦ (hiff n).trans (hdropped n), ?_⟩
  constructor
  · intro hself c hc himage n hn
    have hrest := fun hkept ↦ hself.of_kept ho hsections hleft hc himage hkept hn
    exact ⟨fun hstays _ ↦ (hrest fun h ↦ hstays ((hdropped _).mp h).1).1,
      fun hback ↦ hrest fun h ↦ ((hdropped _).mp h).2 hback.2⟩
  · intro hsources
    obtain ⟨symbols', hsymbols', hrefers⟩ := hleft.refersTo_iff ho
    obtain ⟨gone, hgone, hedited, hspared⟩ := hleft
    obtain ⟨sections', hsections', himage, -⟩ :=
      hedited.exists_sections ho hspared hsections hgone
    refine ⟨symbols', sections', hsymbols', hsections', fun c hc hpart n hn ↦ ?_⟩
    obtain ⟨hc, hstays⟩ := himage c hc hpart
    obtain ⟨hstaying, hback⟩ := hsources c hc hpart n hn
    have hgoes := ((hdropped n).mp ((hiff n).mp hn)).1
    rw [hrefers c.number hstays n]
    by_cases hgoing : Goes s symbols sections c.number
    · refine hback ⟨hgoing, ?_⟩
      by_contra hfree
      exact hstays ((hdropped _).mpr ⟨hgoing, hfree⟩)
    · obtain ⟨hdragged, hwith⟩ := isDragged_of_refersTo hc hpart hgoing hgoes
      exact ⟨fun href ↦ hstaying hgoing (hdragged href) href, hwith⟩

/-! A unit whose code refers to `.rdata`. Its only variable was stripped, which emptied `.data`. -/

namespace Hollow

/-- The object file. Flags tell whether `.rdata` is chosen among several, along with `.data`. -/
def data (flags : UInt8) : Bytes :=
  -- The header of the file, and those of its sections.
  ([0x64, 0x86, 0x03, 0x00, 0x00, 0x00, 0x00, 0x00, 0xa6, 0x00, 0x00, 0x00, 0x04, 0x00, 0x00, 0x00,
    0x00, 0x00, 0x00, 0x00]
  ++ [0x2e, 0x74, 0x65, 0x78, 0x74, 0x00, 0x00, 0x00, 0x00, 0x00, 0x00, 0x00, 0x00, 0x00, 0x00,
    0x00, 0x08, 0x00, 0x00, 0x00, 0x8c, 0x00, 0x00, 0x00, 0x94, 0x00, 0x00, 0x00, 0x00, 0x00, 0x00,
    0x00, 0x01, 0x00, 0x00, 0x00, 0x20, 0x00, 0x50, 0x60]
  ++ [0x2e, 0x64, 0x61, 0x74, 0x61, 0x00, 0x00, 0x00, 0x00, 0x00, 0x00, 0x00, 0x00, 0x00, 0x00,
    0x00, 0x04, 0x00, 0x00, 0x00, 0x9e, 0x00, 0x00, 0x00, 0x00, 0x00, 0x00, 0x00, 0x00, 0x00, 0x00,
    0x00, 0x00, 0x00, 0x00, 0x00, 0x40, 0x00, 0x30, 0xc0]
  ++ [0x2e, 0x72, 0x64, 0x61, 0x74, 0x61, 0x00, 0x00, 0x00, 0x00, 0x00, 0x00, 0x00, 0x00, 0x00,
    0x00, 0x04, 0x00, 0x00, 0x00, 0xa2, 0x00, 0x00, 0x00, 0x00, 0x00, 0x00, 0x00, 0x00, 0x00, 0x00,
    0x00, 0x00, 0x00, 0x00, 0x00, 0x40, flags, 0x30, 0x40]
  -- The code of the function and its relocation, the variable and a constant.
  ++ [0x48, 0x8d, 0x05, 0x00, 0x00, 0x00, 0x00, 0xc3]
  ++ [0x03, 0x00, 0x00, 0x00, 0x00, 0x00, 0x00, 0x00, 0x04, 0x00]
  ++ [0x00, 0x00, 0x00, 0x00] ++ [0x01, 0x00, 0x00, 0x00]
  -- The symbol of `.rdata` with its definition, `GetX`, what is left of the variable's symbol, and
  -- an empty string table.
  ++ [0x2e, 0x72, 0x64, 0x61, 0x74, 0x61, 0x00, 0x00, 0x00, 0x00, 0x00, 0x00, 0x03, 0x00, 0x00,
    0x00, 0x03, 0x01]
  ++ [0x04, 0x00, 0x00, 0x00, 0x00, 0x00, 0x00, 0x00, 0x00, 0x00, 0x00, 0x00, 0x02, 0x00, 0x05,
    0x00, 0x00, 0x00]
  ++ [0x47, 0x65, 0x74, 0x58, 0x00, 0x00, 0x00, 0x00, 0x00, 0x00, 0x00, 0x00, 0x01, 0x00, 0x20,
    0x00, 0x02, 0x00]
  ++ [0x26, 0x00, 0x00, 0x00, 0x00, 0x00, 0x00, 0x00, 0x00, 0x00, 0x00, 0x00, 0xfe, 0xff, 0x00,
    0x00, 0x00, 0x00]
  ++ [0x04, 0x00, 0x00, 0x00]).toArray

/-- The file behind stripping the variable. -/
def file (flags : UInt8) (emptied : List Nat) : Stripping where
  path := ⟨"/b.obj"⟩
  editor := ⟨data flags, .debugSection, 20, 3, 166, 4, 238⟩
  table := ⟨⟨"/b.obj"⟩, Fingerprint.ofPath ⟨"/b.obj"⟩,
    [⟨2, "GetX", some 1, 0, true, true, false, false, []⟩,
      ⟨3, "g_x", some 2, 0, false, true, false, false, []⟩], [], []⟩
  removed := ["g_x"]
  forced := []
  emptied := emptied

/-- The symbols of the file. -/
def records : List EditorSymbol :=
  [⟨0, ".rdata", 0, 3, 3, 1⟩, ⟨2, "GetX", 0, 1, 2, 0⟩, ⟨3, "&", 0, -2, 0, 0⟩]

/-- Both sections were emptied, and the code refers to one of them. -/
def read : Stripping := file 0x00 [2, 3]

/-- The code refers to the section that goes along with the emptied one. -/
def dragged : Stripping := file 0x10 [2]

/-- The sections of the file whose sections are not chosen among several. -/
def plainSections : List EditorSection :=
  [⟨1, ".text", 0x60500020, none⟩, ⟨2, ".data", 0xc0300040, none⟩,
    ⟨3, ".rdata", 0x40300040, none⟩]

/-- The sections of the file of which one is chosen along with another one. -/
def chosenSections : List EditorSection :=
  [⟨1, ".text", 0x60500020, none⟩, ⟨2, ".data", 0xc0300040, none⟩,
    ⟨3, ".rdata", 0x40301040, some ⟨5, 2⟩⟩]

/-- What is read from a file, and which of its sections are to be dropped. -/
structure Shows (s : Stripping) (sections : List EditorSection) (numbers : List Nat) : Prop where
  tables : (Editor.parse s.editor.data s.editor.strategy).map Editor.tables = .ok s.editor.tables
  windows : s.editor.windows = .ok [⟨166, 76⟩, ⟨0, 140⟩, ⟨148, 10⟩, ⟨0, 0⟩, ⟨0, 0⟩]
  symbols : s.editor.symbols = .ok records
  sections : s.editor.sections = .ok sections
  targets : (s.editor.relocations 1).map (List.map RawRelocation.symbol) = .ok [0]
  plan : s.planSections Registry.empty = .ok (numbers, [])

instance (s : Stripping) (sections : List EditorSection) (numbers : List Nat) :
    Decidable (Shows s sections numbers) :=
  decidable_of_iff (_ ∧ _ ∧ _ ∧ _ ∧ _ ∧ _)
    ⟨fun ⟨ht, hw, hsy, hse, hta, hp⟩ ↦ ⟨ht, hw, hsy, hse, hta, hp⟩,
      fun h ↦ ⟨h.tables, h.windows, h.symbols, h.sections, h.targets, h.plan⟩⟩

theorem shows_read : Shows read plainSections [2] := by decide +kernel

theorem shows_dragged : Shows dragged chosenSections [2, 3] := by decide +kernel

section Showing

variable {numbers : List Nat} (h : Shows s sections numbers)

include h

theorem Shows.parse : Editor.parse s.editor.data s.editor.strategy = .ok s.editor :=
  Editor.parse_eq_ok h.tables

theorem Shows.parts : s.editor.IsLaidOut := ⟨_, h.windows, by decide⟩

theorem Shows.outline : Editor.Outline s.editor records :=
  ⟨Editor.fits_of_parse h.parse, h.parts.clearances, h.symbols⟩

/-- The code refers to `.rdata`. -/
theorem Shows.refersTo : RefersTo s.editor records 1 3 := by
  have htargets := h.targets
  rcases hrelocations : s.editor.relocations 1 with _ | relocations <;>
    rw [hrelocations] at htargets
  · cases htargets
  · have hmem : 0 ∈ relocations.map RawRelocation.symbol := Except.ok.inj htargets ▸ .head []
    obtain ⟨r, hr, hsymbol⟩ := List.mem_map.mp hmem
    exact ⟨relocations, hrelocations, r, hr, hsymbol ▸ by decide⟩

theorem Shows.goes_iff (n : Nat) :
    Goes s records sections n ∧ ¬ IsPinned Registry.empty s.table records n ↔ n ∈ numbers :=
  (mem_planSections_iff (pairwise_index h.outline) h.symbols h.sections h.plan).symm

theorem Shows.returns (hcount : 2 ≤ s.editor.symbolCount) :
    ∃ s', (removeEmptied Registry.empty).run s = (.ok (), s') := by
  refine removeEmptied_returns h.outline h.sections h.plan fun raw hraw hkind ↦ ?_
  have hindex : ∀ raw ∈ records, raw.isSectionDefinition = true → raw.index = 0 := by decide
  rw [hindex raw hraw hkind]
  exact hcount

end Showing

end Hollow

open Hollow in
/-- The section that the code refers to stays, although it was emptied. -/
theorem read_section_stays_next_to_dropped : ∃ s',
    (removeEmptied Registry.empty).run read = (.ok (), s') ∧ IsDropped read.editor s'.editor 2 ∧
      ¬ IsDropped read.editor s'.editor 3 ∧ IsSelfContained read.editor s'.editor := by
  obtain ⟨s', hrun⟩ := shows_read.returns (by decide)
  obtain ⟨hdropped, hself⟩ := left_sections_are_self_contained_iff shows_read.parse
    shows_read.parts shows_read.symbols shows_read.sections hrun
  have hiff : ∀ n, IsDropped read.editor s'.editor n ↔ n ∈ [2] := fun n ↦
    (hdropped n).trans (shows_read.goes_iff n)
  refine ⟨s', hrun, (hiff 2).mpr (by decide), fun h ↦ absurd ((hiff 3).mp h) (by decide),
    hself.mpr fun c hc _ n hn ↦ ?_⟩
  cases List.mem_singleton.mp ((hiff n).mp hn)
  -- No symbol carries the definition of `.data`, and no section goes along with another one.
  have hrefers : ¬ RefersTo read.editor records c.number 2 := by
    rintro ⟨_, -, r, -, hmem⟩
    have heq : (r.symbol, 2) = (0, 3) := List.mem_singleton.mp hmem
    exact absurd (Prod.mk.inj heq).2 (by decide)
  have halone : ¬ c.GoesWith 2 := by
    rintro ⟨comdat, hcomdat, -⟩
    have hnone : ∀ c ∈ plainSections, c.comdat = none := by decide
    cases (hnone c hc).symm.trans hcomdat
  exact ⟨fun _ _ ↦ hrefers, fun _ ↦ ⟨hrefers, halone⟩⟩

open Hollow in
/-- The section that the code refers to goes, dragged along with an emptied one. -/
theorem code_refers_to_dragged_section : ∃ s',
    Editor.parse dragged.editor.data dragged.editor.strategy = .ok dragged.editor ∧
      dragged.editor.IsLaidOut ∧ (removeEmptied Registry.empty).run dragged = (.ok (), s') ∧
      ¬ IsSelfContained dragged.editor s'.editor := by
  have ho := shows_dragged.outline
  have hsections := shows_dragged.sections
  obtain ⟨s', hrun⟩ := shows_dragged.returns (by decide)
  obtain ⟨dropped, hleft, hdropped⟩ := exists_isLeft ho hsections hrun
  have hiff : ∀ n, n ∈ dropped ↔ n ∈ [2, 3] := fun n ↦
    (hdropped n).trans (shows_dragged.goes_iff n)
  have hgone : IsDropped dragged.editor s'.editor 3 :=
    (hleft.isDropped_iff ho hsections fun n hn ↦ ((hdropped n).mp hn).1).mpr
      ((hiff 3).mpr (by decide))
  have hkept : 1 ∉ dropped := fun h ↦ absurd ((hiff 1).mp h) (by decide)
  refine ⟨s', shows_dragged.parse, shows_dragged.parts, hrun, fun hself ↦ ?_⟩
  exact (hself.of_kept ho hsections hleft (.head _) (by decide) hkept hgone).1
    shows_dragged.refersTo

end Stripping
end LivePatch
