import LivePatch.Proofs.Coff.Edits

/-!
# Files whose parts are separate

What an object file is edited by: its header, the headers of its sections, the symbol table with the
texts that names are read from, the relocations of every section and the directives. Nothing is said
of what lies between them or where in the file they are.
-/

namespace LivePatch.Coff.Editor

open Bytes

/-- The numbers of the sections. -/
def numbers (e : Editor) : List Nat := (List.range e.sectionCount).map (· + 1)

/-- Where a text behind the symbol table is read from: up to the zero byte behind it, or the end. -/
def textWindow (e : Editor) (offset : Nat) : Window :=
  let rest := (e.data.suffix (e.stringsAt + offset)).toList
  ⟨e.stringsAt + offset, min ((beforeNul rest).length + 1) rest.length⟩

/-- Where the name of a symbol is read from that does not fit its record. -/
def symbolTexts (e : Editor) (r : SymbolRecord) : List Window :=
  if r.name.take 4 = [0, 0, 0, 0] then [e.textWindow (number (r.name.drop 4))] else []

/-- Where the name of a section is read from that does not fit its header. -/
def sectionTexts (e : Editor) (h : SectionHeader) : List Window :=
  match shortName h.name with
  | '/' :: digits =>
    match decimal? digits with
    | some offset => [e.textWindow offset]
    | none => []
  | _ => []

/-- Where names are read from that do not fit their records. -/
def texts (e : Editor) (listed : List EditorSymbol) : List Window :=
  listed.flatMap (fun raw ↦ ((e.record raw.index).toOption.map e.symbolTexts).getD [])
    ++ e.numbers.flatMap fun number ↦ ((e.header number).toOption.map e.sectionTexts).getD []

/-- Where the headers of the sections lie. -/
def headersWindow (e : Editor) : Window := ⟨e.sectionsAt, e.sectionCount * sectionHeaderSize⟩

/-- Where the records of the symbol table lie. -/
def recordsWindow (e : Editor) : Window := ⟨e.symbolsAt, e.symbolCount * symbolSize⟩

/-- The parts that a file with these symbols is made of, each as the windows that it takes. -/
def parts (e : Editor) (listed : List EditorSymbol) : List (List Window) :=
  [⟨0, headerSize⟩] :: [e.headersWindow] :: (e.recordsWindow :: e.texts listed)
    :: (e.numbers.map (fun number ↦ (e.relocationWindow number).toOption.toList)
      ++ e.numbers.map fun number ↦ (e.directiveWindow number).toOption.getD [])

/-- Different parts of a file share no byte. -/
def IsSeparate (e : Editor) (listed : List EditorSymbol) : Prop :=
  (e.parts listed).Pairwise fun part other ↦ ∀ w ∈ part, ∀ v ∈ other, w.IsClear v

instance (e : Editor) (listed : List EditorSymbol) : Decidable (e.IsSeparate listed) :=
  inferInstanceAs (Decidable (List.Pairwise _ _))

variable {e : Editor} {listed : List EditorSymbol} {number : Nat} {h : SectionHeader}

/-- A header lies among the headers. -/
theorem contains_headers {at' i : Nat} (hat : e.headerAt number = .ok at')
    (hi : (Window.mk at' sectionHeaderSize).Contains i) : e.headersWindow.Contains i := by
  obtain ⟨hpos, hle, rfl⟩ := headerAt_eq_ok_iff.mp hat
  obtain ⟨hlo, hhi⟩ := hi
  unfold headersWindow Window.Contains
  unfold sectionHeaderSize at *
  dsimp only at *
  omega

/-- A record lies among the records. -/
theorem contains_records {index i : Nat} (hindex : index < e.symbolCount)
    (hi : (Window.mk (e.recordAt index) symbolSize).Contains i) : e.recordsWindow.Contains i := by
  obtain ⟨hlo, hhi⟩ := hi
  unfold recordsWindow Window.Contains
  unfold recordAt symbolSize at *
  dsimp only at *
  omega

/-- Texts lie behind the symbol table. -/
theorem isClear_texts (hfits : e.Fits) {w : Window} (hw : w ∈ e.texts listed) :
    e.recordsWindow.IsClear w := by
  have hstart : ∀ offset, e.recordsWindow.IsClear (e.textWindow offset) := by
    intro offset
    have hsymbols := hfits.symbols
    unfold recordsWindow textWindow
    exact .inr (.inr (.inl (by dsimp only; omega)))
  rcases List.mem_append.mp hw with hw | hw
  · obtain ⟨raw, -, hw⟩ := List.mem_flatMap.mp hw
    cases hr : e.record raw.index with
    | error stop =>
      rw [hr] at hw
      cases hw
    | ok r =>
      rw [hr] at hw
      change w ∈ e.symbolTexts r at hw
      unfold symbolTexts at hw
      split at hw
      · cases List.mem_singleton.mp hw
        exact hstart _
      · cases hw
  · obtain ⟨number, -, hw⟩ := List.mem_flatMap.mp hw
    cases hh : e.header number with
    | error stop =>
      rw [hh] at hw
      cases hw
    | ok h =>
      rw [hh] at hw
      change w ∈ e.sectionTexts h at hw
      unfold sectionTexts at hw
      split at hw
      · split at hw
        · cases List.mem_singleton.mp hw
          exact hstart _
        · cases hw
      · cases hw

/-- Where the relocations of a section start, and the record that may count them. -/
theorem relocationWindow_eq {offset count : Nat} (hh : e.header number = .ok h)
    (htable : e.relocationTable number = .ok (offset, count)) :
    e.relocationWindow number
      = .ok ⟨h.relocationPointer, offset + count * relocationSize - h.relocationPointer⟩ ∧
      h.relocationPointer ≤ offset ∧ (hasFlag h.characteristics flagOverflow = true →
        h.relocationPointer + relocationSize = offset) := by
  refine ⟨Outcome.bind_eq_ok_iff.mpr ⟨h, hh, Outcome.bind_eq_ok_iff.mpr ⟨_, htable, rfl⟩⟩, ?_⟩
  obtain ⟨h', hh', htable⟩ := Outcome.bind_eq_ok_iff.mp htable
  cases hh.symm.trans hh'
  split at htable
  · obtain ⟨first, -, htable⟩ := Outcome.bind_eq_ok_iff.mp htable
    cases htable
    exact ⟨Nat.le_add_right _ _, fun _ ↦ rfl⟩
  · next hflag =>
    cases htable
    exact ⟨Nat.le_refl _, fun h ↦ (hflag h).elim⟩

/-- A relocation lies in the window of its section. -/
theorem contains_relocation {offset count i : Nat}
    (htable : e.relocationTable number = .ok (offset, count)) (hi : i < count) :
    ∃ w, e.relocationWindow number = .ok w ∧
      ∀ j, (Window.mk (offset + i * relocationSize) relocationSize).Contains j → w.Contains j := by
  obtain ⟨h, hh, -⟩ := Outcome.bind_eq_ok_iff.mp htable
  obtain ⟨hwindow, hle, -⟩ := relocationWindow_eq hh htable
  refine ⟨_, hwindow, ?_⟩
  rintro j ⟨hlo, hhi⟩
  have hlast : (i + 1) * relocationSize ≤ count * relocationSize := Nat.mul_le_mul_right _ hi
  rw [Nat.succ_mul] at hlast
  unfold Window.Contains
  dsimp only at *
  omega

/-- The record that counts the relocations of a section lies in their window. -/
theorem exists_window_of_count {first : RawRelocation} (hh : e.header number = .ok h)
    (hflag : hasFlag h.characteristics flagOverflow = true)
    (hfirst : RawRelocation.read? e.data h.relocationPointer = some first) :
    ∃ w, e.relocationWindow number = .ok w ∧
      ∀ j, (Window.mk h.relocationPointer relocationSize).Contains j → w.Contains j := by
  have htable : e.relocationTable number
      = .ok (h.relocationPointer + relocationSize, first.rva.toNat - 1) := by
    refine Outcome.bind_eq_ok_iff.mpr ⟨h, hh, ?_⟩
    rw [if_pos hflag, hfirst]
    rfl
  obtain ⟨hwindow, -⟩ := relocationWindow_eq hh htable
  exact ⟨_, hwindow, fun j hj ↦ contains_count hh hflag hwindow hj⟩

/-- What is known of a file whose parts are separate. -/
structure Separation (e : Editor) (listed : List EditorSymbol) : Prop where
  fits : e.Fits
  listing : e.symbols = .ok listed
  /-- The header of the file keeps clear of everything else. -/
  start : ∀ w ∈ e.headersWindow :: e.recordsWindow :: e.texts listed,
    (Window.mk 0 headerSize).IsClear w
  headers : ∀ w ∈ e.recordsWindow :: e.texts listed, e.headersWindow.IsClear w
  relocation : ∀ number w, e.relocationWindow number = .ok w →
    ∀ v ∈ ⟨0, headerSize⟩ :: e.headersWindow :: e.recordsWindow :: e.texts listed, w.IsClear v
  relocations : ∀ number w other v, e.relocationWindow number = .ok w →
    e.relocationWindow other = .ok v → number ≠ other → w.IsClear v
  directive : ∀ number h, e.header number = .ok h → e.sectionName h = ".drectve" →
    (∀ v ∈ ⟨0, headerSize⟩ :: e.headersWindow :: e.recordsWindow :: e.texts listed,
      (Window.mk h.rawPointer h.rawSize).IsClear v) ∧
    ∀ other v, e.relocationWindow other = .ok v → (Window.mk h.rawPointer h.rawSize).IsClear v

theorem mem_of_relocationWindow {w : Window} (hw : e.relocationWindow number = .ok w) :
    number ∈ e.numbers ∧ w ∈ (e.relocationWindow number).toOption.toList := by
  obtain ⟨h, hh⟩ := header_of_relocationWindow hw
  refine ⟨mem_numbers_iff.mpr (range_of_header hh), ?_⟩
  rw [hw]
  exact List.mem_singleton_self w

theorem mem_directivePart (hh : e.header number = .ok h) (hname : e.sectionName h = ".drectve") :
    Window.mk h.rawPointer h.rawSize ∈ (e.directiveWindow number).toOption.getD [] := by
  have hwindow : e.directiveWindow number = .ok [⟨h.rawPointer, h.rawSize⟩] := by
    unfold directiveWindow
    rw [hh]
    change (pure _ : Outcome (List Window)) = _
    rw [if_pos hname]
    rfl
  rw [hwindow]
  exact List.mem_singleton_self _

theorem separation_of_isSeparate (hfits : e.Fits) (hlisted : e.symbols = .ok listed)
    (hseparate : e.IsSeparate listed) : e.Separation listed := by
  obtain ⟨hstart, hseparate⟩ := List.pairwise_cons.mp hseparate
  obtain ⟨hheaders, hseparate⟩ := List.pairwise_cons.mp hseparate
  obtain ⟨htable, hseparate⟩ := List.pairwise_cons.mp hseparate
  obtain ⟨hpairs, -, hcross⟩ := List.pairwise_append.mp hseparate
  have hclear : ∀ part ∈ e.numbers.map (fun number ↦ (e.relocationWindow number).toOption.toList)
      ++ e.numbers.map fun number ↦ (e.directiveWindow number).toOption.getD [],
      ∀ w ∈ part, ∀ v ∈ ⟨0, headerSize⟩ :: e.headersWindow :: e.recordsWindow :: e.texts listed,
        w.IsClear v := by
    intro part hpart w hw v hv
    rcases List.mem_cons.mp hv with rfl | hv
    · exact (hstart part (by simp [hpart]) _ (List.mem_singleton_self _) w hw).symm
    · rcases List.mem_cons.mp hv with rfl | hv
      · exact (hheaders part (by simp [hpart]) _ (List.mem_singleton_self _) w hw).symm
      · exact (htable part hpart v hv w hw).symm
  have hrelocation : ∀ {number w}, e.relocationWindow number = .ok w →
      (e.relocationWindow number).toOption.toList
        ∈ e.numbers.map (fun number ↦ (e.relocationWindow number).toOption.toList) ∧
      w ∈ (e.relocationWindow number).toOption.toList := by
    intro number w hw
    obtain ⟨hnumber, hmem⟩ := mem_of_relocationWindow hw
    exact ⟨List.mem_map.mpr ⟨number, hnumber, rfl⟩, hmem⟩
  have hdirective : ∀ {number h}, e.header number = .ok h →
      (e.directiveWindow number).toOption.getD []
        ∈ e.numbers.map (fun number ↦ (e.directiveWindow number).toOption.getD []) ∧
      number ∈ e.numbers := by
    intro number h hh
    have hnumber : number ∈ e.numbers := mem_numbers_iff.mpr (range_of_header hh)
    exact ⟨List.mem_map.mpr ⟨number, hnumber, rfl⟩, hnumber⟩
  refine ⟨hfits, hlisted, fun w hw ↦ ?_, fun w hw ↦ ?_, fun number w hw ↦ ?_,
    fun number w other v hw hv hne ↦ ?_, fun number h hh hname ↦ ⟨?_, fun other v hv ↦ ?_⟩⟩
  · rcases List.mem_cons.mp hw with rfl | hw
    · exact hstart [e.headersWindow] (by simp) _ (List.mem_singleton_self _) _
        (List.mem_singleton_self _)
    · exact hstart (e.recordsWindow :: e.texts listed) (by simp) _ (List.mem_singleton_self _) w hw
  · exact hheaders (e.recordsWindow :: e.texts listed) (by simp) _ (List.mem_singleton_self _) w hw
  · obtain ⟨hpart, hmem⟩ := hrelocation hw
    exact hclear _ (List.mem_append_left _ hpart) w hmem
  · obtain ⟨hnumber, hmem⟩ := mem_of_relocationWindow hw
    obtain ⟨hother, hmem'⟩ := mem_of_relocationWindow hv
    have hsymm : Std.Symm fun number other : Nat ↦
        ∀ w ∈ (e.relocationWindow number).toOption.toList,
          ∀ v ∈ (e.relocationWindow other).toOption.toList, w.IsClear v :=
      ⟨fun _ _ h v hv w hw ↦ (h w hw v hv).symm⟩
    exact (List.pairwise_map.mp hpairs).forall hnumber hother hne w hmem v hmem'
  · exact hclear _ (List.mem_append_right _ (hdirective hh).1) _ (mem_directivePart hh hname)
  · obtain ⟨hpart, hmem⟩ := hrelocation hv
    exact (hcross _ hpart _ (hdirective hh).1 v hmem _ (mem_directivePart hh hname)).symm

end LivePatch.Coff.Editor
