import LivePatch.Proofs.Build.Stripping
import LivePatch.Proofs.Coff.Edits

/-!
# Records of stripped files

Which records of a file each pass of stripping takes away. The first one asks for every record by
itself, the second one takes references away whose names were stripped elsewhere, and the last one
what lives in sections that are dropped. A record that is gone stays gone.
-/

namespace LivePatch

namespace Stripping

open Coff

variable {registry : Registry} {recompiled : PathSet} {owners : SymbolOwners} {t : ObjectTable}

/-- A record stands for a symbol of a name that other files see: a reference to it if it is
undefined, else a definition. -/
def StandsFor (t : ObjectTable) (name : String) (undefined : Bool) (raw : EditorSymbol) : Prop :=
  ∃ s, symbolAt? t raw = some s ∧ s.isExternal = true ∧ s.name = name ∧ s.isUndefined = undefined

/-- A file while it is stripped: which records were neutralized, which sections were dropped, and
under which names. -/
structure Tracks (e₀ : Editor) (listed : List EditorSymbol) (t : ObjectTable)
    (gone dropped : List Nat) (removed : List String) (s : Stripping) : Prop where
  table : s.table = t
  editor : Editor.Edited e₀ listed gone dropped s.editor
  removed : ∀ name, name ∈ s.removed ↔ name ∈ removed

section Steps

variable {e₀ : Editor} {listed : List EditorSymbol} {gone dropped : List Nat}
  {removed : List String}

/-- Edits of a file's bytes. -/
theorem triple_edit {α : Type} {act : EditM α} {gone' dropped' : List Nat}
    (h : Triple (Editor.Edited e₀ listed gone dropped) act
      (fun _ ↦ Editor.Edited e₀ listed gone' dropped') fun _ ↦ True) :
    Triple (Tracks e₀ listed t gone dropped removed) (edit act)
      (fun _ ↦ Tracks e₀ listed t gone' dropped' removed) fun _ ↦ True := by
  intro s hs
  have hact := h s.editor hs.editor
  have hrun : (edit act).run s
      = ((act.run s.editor).1, { s with editor := (act.run s.editor).2 }) := rfl
  rw [hrun]
  generalize act.run s.editor = r at hact
  rcases r with ⟨_ | a, e⟩
  · trivial
  · exact ⟨hs.table, hact, hs.removed⟩

/-- Removing a listed symbol neutralizes its record. -/
theorem triple_remove (ho : Editor.Outline e₀ listed) {raw : EditorSymbol} (hraw : raw ∈ listed)
    (name : String) :
    Triple (Tracks e₀ listed t gone dropped removed) (remove raw name)
      (fun _ ↦ Tracks e₀ listed t (raw.index :: gone) dropped (name :: removed)) fun _ ↦ True := by
  refine (triple_edit (Editor.triple_removeSymbol ho hraw)).bind fun _ ↦
    Triple.modify fun s hs ↦ ⟨hs.table, hs.editor, fun other ↦ ?_⟩
  dsimp only
  have hremoved := hs.removed
  split
  · next hmem =>
    rw [List.contains_iff_mem, hremoved] at hmem
    rw [hremoved, List.mem_cons]
    exact ⟨.inr, fun h ↦ h.elim (· ▸ hmem) id⟩
  · rw [List.mem_cons, List.mem_cons, hremoved]

/-- Noting a name for all files changes nothing about this one. -/
theorem triple_force (name : String) :
    Triple (Tracks e₀ listed t gone dropped removed) (force name)
      (fun _ ↦ Tracks e₀ listed t gone dropped removed) fun _ ↦ True :=
  Triple.modify fun _ hs ↦ ⟨hs.table, hs.editor, hs.removed⟩

end Steps

section Verdicts

variable {raw : EditorSymbol} {s : ObjectSymbol}

/-- What a file's own look at a reference comes to. -/
theorem goes_iff_of_reference (hs : symbolAt? t raw = some s) (hundefined : s.isUndefined = true)
    (hclass : raw.storageClass ≠ classStatic) (hnumber : raw.sectionNumber = 0) :
    verdict registry recompiled owners t raw ≠ .stays ↔
      Names.isCompilerGenerated s.name = false ∧
        (isForced registry recompiled owners s.name = true ∨
          (owners.lookup s.name).any recompiled.contains = true ∧
            t.canStrip registry s.name = true) := by
  have hdefinition : raw.isSectionDefinition = false := by
    simp [EditorSymbol.isSectionDefinition, hclass]
  rw [verdict_ne_stays_iff]
  constructor
  · rintro ⟨name, h⟩
    cases h with
    | data h _ hdefined =>
      cases hs.symm.trans h.symbol
      rw [hundefined] at hdefined
      cases hdefined
    | recompiled h hname _ howner hcheck =>
      cases hs.symm.trans h.symbol
      exact ⟨h.made, .inr (hname ▸ ⟨howner, hcheck⟩)⟩
    | outside h hname _ hforced =>
      cases hs.symm.trans h.symbol
      exact ⟨h.made, .inl (hname ▸ hforced)⟩
  · rintro ⟨hmade, hforced | ⟨howner, hcheck⟩⟩
    · exact ⟨_, .outside ⟨hs, by omega, hdefinition, hmade⟩ rfl hundefined hforced⟩
    · exact ⟨_, .recompiled ⟨hs, by omega, hdefinition, hmade⟩ rfl hundefined howner hcheck⟩

/-- What a file's own look at a definition of data comes to. -/
theorem goes_iff_of_definition (hs : symbolAt? t raw = some s) (hdefined : s.isUndefined = false)
    (hdata : s.isFunction = false) (hclass : raw.storageClass ≠ classStatic)
    (hnumber : 0 < raw.sectionNumber) :
    verdict registry recompiled owners t raw ≠ .stays ↔ t.canStrip registry s.name = true := by
  have hdefinition : raw.isSectionDefinition = false := by
    simp [EditorSymbol.isSectionDefinition, hclass]
  rw [verdict_ne_stays_iff]
  constructor
  · rintro ⟨name, h⟩
    rcases h with ⟨h, rfl, -, -, hcheck⟩ | ⟨h, -, hundefined, -⟩ | ⟨h, -, hundefined, -⟩
    · cases hs.symm.trans h.symbol
      exact hcheck
    · cases hs.symm.trans h.symbol
      rw [hdefined] at hundefined
      cases hundefined
    · cases hs.symm.trans h.symbol
      rw [hdefined] at hundefined
      cases hundefined
  · intro hcheck
    have hmade : Names.isCompilerGenerated s.name = false := by
      by_contra hmade
      simp [ObjectTable.canStrip, Names.isRedirectable, (Bool.not_eq_false _).mp hmade] at hcheck
    exact ⟨_, .data ⟨hs, by omega, hdefinition, hmade⟩ rfl hdefined hdata hcheck⟩

end Verdicts

section Passes

variable {e₀ : Editor} {listed : List EditorSymbol} {gone : List Nat} {removed : List String}
  {s : Stripping}

/-- A file of which the verdicts on some records were carried out. -/
structure IsJudged (registry : Registry) (recompiled : PathSet) (owners : SymbolOwners)
    (e₀ : Editor) (listed : List EditorSymbol) (t : ObjectTable) (done : List EditorSymbol)
    (gone : List Nat) (removed : List String) (s : Stripping) : Prop where
  tracks : Tracks e₀ listed t gone [] removed s
  gone : ∀ index, index ∈ gone ↔
    ∃ raw ∈ done, raw.index = index ∧ verdict registry recompiled owners t raw ≠ .stays
  removed : ∀ name, name ∈ removed ↔
    ∃ raw ∈ done, (verdict registry recompiled owners t raw).name? = some name

/-- A file of which the verdicts on all records were carried out. -/
theorem IsJudged.mem_gone_iff
    (h : IsJudged registry recompiled owners e₀ listed t listed gone removed s)
    (ho : Editor.Outline e₀ listed) {raw : EditorSymbol} (hraw : raw ∈ listed) :
    raw.index ∈ gone ↔ verdict registry recompiled owners t raw ≠ .stays := by
  rw [h.gone]
  constructor
  · rintro ⟨other, hother, hindex, hgoes⟩
    exact ho.eq_of_index hother hraw hindex ▸ hgoes
  · exact fun hgoes ↦ ⟨raw, hraw, rfl, hgoes⟩

/-- Carrying out the verdict on a record neutralizes it, or not. -/
theorem triple_execute (ho : Editor.Outline e₀ listed) {raw : EditorSymbol} (hraw : raw ∈ listed)
    (v : Verdict) :
    Triple (Tracks e₀ listed t gone [] removed) (execute raw v)
      (fun _ ↦ Tracks e₀ listed t ((v.name?.map fun _ ↦ raw.index).toList ++ gone) []
        (v.name?.toList ++ removed)) fun _ ↦ True := by
  cases v with
  | stays => exact Triple.pure fun _ h ↦ h
  | goes name => exact triple_remove ho hraw name
  | goesEverywhere name => exact (triple_force name).bind fun _ ↦ triple_remove ho hraw name

theorem map_after_nil (strategy : RemovalStrategy) :
    listed.map (EditorSymbol.after strategy []) = listed := by
  conv_rhs => rw [← List.map_id listed]
  exact List.map_congr_left fun raw _ ↦ if_neg (List.not_mem_nil)

/-- Stripping a symbol carries out the verdict on its record. -/
theorem triple_stripSymbol (ho : Editor.Outline e₀ listed) {raw : EditorSymbol}
    (hraw : raw ∈ listed) (done : List EditorSymbol) :
    Triple
      (fun s ↦ ∃ gone removed,
        IsJudged registry recompiled owners e₀ listed t done gone removed s)
      (stripSymbol registry recompiled owners raw)
      (fun _ s ↦ ∃ gone removed,
        IsJudged registry recompiled owners e₀ listed t (done ++ [raw]) gone removed s)
      fun _ ↦ True := by
  rw [stripSymbol_eq]
  refine Triple.bind_get fun s hs ↦ ?_
  obtain ⟨gone, removed, hs⟩ := hs
  rw [hs.tracks.table]
  have hexecute : Triple (Tracks e₀ listed t gone [] removed) _ _ _ :=
    triple_execute ho hraw (verdict registry recompiled owners t raw)
  refine hexecute.mono (fun _ heq ↦ heq ▸ hs.tracks) (fun _ s' hs' ↦ ⟨_, _, hs', fun index ↦ ?_,
    fun name ↦ ?_⟩) fun _ h ↦ h
  · simp only [List.mem_append, List.mem_singleton, or_and_right, exists_or, exists_eq_left,
      Option.mem_toList, Option.map_eq_some_iff, hs.gone, ← Verdict.exists_name?_iff]
    exact or_comm.trans (or_congr_right (exists_and_right.trans and_comm))
  · simp only [List.mem_append, List.mem_singleton, or_and_right, exists_or, exists_eq_left,
      Option.mem_toList, hs.removed]
    exact or_comm

/-- Stripping a file of what is known takes the records away for which their verdicts speak. -/
theorem triple_stripKnown (ho : Editor.Outline e₀ listed) :
    Triple (Tracks e₀ listed t [] [] []) (stripKnown registry recompiled owners)
      (fun _ s ↦ ∃ gone removed,
        IsJudged registry recompiled owners e₀ listed t listed gone removed s) fun _ ↦ True := by
  refine Triple.bind_get fun s hs ↦ Triple.bind_lift (fun symbols hlisted ↦ ?_) fun _ _ ↦ trivial
  have hsame := (hs.editor.symbols_eq ho).symm.trans hlisted
  rw [map_after_nil] at hsame
  cases hsame
  have hstart : IsJudged registry recompiled owners e₀ listed t [] [] [] s :=
    ⟨hs, by simp, by simp⟩
  refine Triple.bind ((Triple.forM_along fun done raw rest heq ↦ triple_stripSymbol ho
    (heq ▸ List.mem_append_right _ (List.mem_cons_self ..)) done).mono
      (fun s' h ↦ ⟨[], [], h ▸ hstart⟩) (fun _ _ h ↦ h) fun _ h ↦ h) fun _ ↦ Triple.of_pre ?_
  rintro s' ⟨gone, removed, hs'⟩
  refine Triple.bind (R := fun _ s ↦ ∃ gone removed,
    IsJudged registry recompiled owners e₀ listed t listed gone removed s) ?_ fun _ ↦
      Triple.pure fun _ h ↦ h
  refine (triple_edit (Editor.triple_filterDirectives ho (keepsDirective registry))).mono
    (fun _ h ↦ h ▸ hs'.tracks) (fun _ _ h ↦ ⟨gone, removed, h, hs'.gone, hs'.removed⟩) fun _ h ↦ h

/-- What records say of symbols that other files see. -/
def Agrees (t : ObjectTable) (listed : List EditorSymbol) : Prop :=
  ∀ raw ∈ listed, ∀ name undefined, StandsFor t name undefined raw →
    (raw.storageClass = classExternal ∨ raw.storageClass = classWeak) ∧
      (undefined = true ∧ raw.sectionNumber = 0 ∨ undefined = false ∧ 0 < raw.sectionNumber)

/-- A file of which some references were stripped, since their names were stripped elsewhere. -/
structure IsSpread (e₀ : Editor) (listed : List EditorSymbol) (t : ObjectTable)
    (everywhere : List String) (gone₁ : List Nat) (removed₁ : List String)
    (done : List EditorSymbol) (gone : List Nat) (removed : List String) (s : Stripping) :
    Prop where
  tracks : Tracks e₀ listed t gone [] removed s
  kept : ∀ index ∈ gone₁, index ∈ gone
  cause : ∀ raw ∈ listed, raw.index ∈ gone → raw.index ∈ gone₁ ∨ raw.sectionNumber = 0 ∧
    ∃ s, symbolAt? t raw = some s ∧ s.name ∈ everywhere
  removed : ∀ name ∈ removed, name ∈ removed₁ ∨ ∃ raw ∈ done, ∃ s,
    symbolAt? t raw = some s ∧ s.isUndefined = true ∧ s.name = name
  reached : ∀ raw ∈ done, raw.sectionNumber = 0 → raw.isRemoved = false → ∀ s,
    symbolAt? t raw = some s → s.isUndefined = true → s.name ∈ everywhere → s.name ∉ removed₁ →
      raw.index ∈ gone

/-- A record that is not looked at any closer. -/
theorem IsSpread.skip {everywhere : List String} {gone₁ : List Nat} {removed₁ : List String}
    {done : List EditorSymbol} {raw : EditorSymbol}
    (h : IsSpread e₀ listed t everywhere gone₁ removed₁ done gone removed s)
    (hskip : raw.sectionNumber = 0 → raw.isRemoved = false → ∀ s, symbolAt? t raw = some s →
      s.isUndefined = true → s.name ∈ everywhere → s.name ∉ removed₁ → False) :
    IsSpread e₀ listed t everywhere gone₁ removed₁ (done ++ [raw]) gone removed s where
  tracks := h.tracks
  kept := h.kept
  cause := h.cause
  removed name hname := (h.removed name hname).imp_right fun ⟨other, hother, hs⟩ ↦
    ⟨other, List.mem_append_left _ hother, hs⟩
  reached other hother hzero halive s hs hundefined hmem hnew := by
    rcases List.mem_append.mp hother with hother | hother
    · exact h.reached other hother hzero halive s hs hundefined hmem hnew
    · cases List.mem_singleton.mp hother
      exact (hskip hzero halive s hs hundefined hmem hnew).elim

/-- A file refers to a name by one record. -/
theorem index_eq_of_once (honce : (t.undefined.map ObjectSymbol.name).Nodup)
    {raw other : EditorSymbol} {a b : ObjectSymbol} (ha : symbolAt? t raw = some a)
    (hb : symbolAt? t other = some b) (hundefined : a.isUndefined = true)
    (hundefined' : b.isUndefined = true) (hname : a.name = b.name) : raw.index = other.index := by
  have hmem : ∀ {raw : EditorSymbol} {s : ObjectSymbol}, symbolAt? t raw = some s →
      s.isUndefined = true → s ∈ t.undefined ∧ s.index = raw.index := fun hs hundefined ↦
    ⟨List.mem_filter.mpr ⟨List.mem_of_find?_eq_some hs, hundefined⟩, by
      simpa using List.find?_some hs⟩
  obtain ⟨ha, hraw⟩ := hmem ha hundefined
  obtain ⟨hb, hother⟩ := hmem hb hundefined'
  rw [← hraw, ← hother, List.inj_on_of_nodup_map honce ha hb hname]

/-- Stripping a reference whose name was stripped elsewhere. -/
theorem triple_stripReference (ho : Editor.Outline e₀ listed)
    (honce : (t.undefined.map ObjectSymbol.name).Nodup) {everywhere : List String}
    {gone₁ : List Nat} {removed₁ : List String} {done rest : List EditorSymbol} {raw : EditorSymbol}
    (heq : listed.map (EditorSymbol.after e₀.strategy gone₁) = done ++ raw :: rest) :
    Triple (fun s ↦ ∃ gone removed,
        IsSpread e₀ listed t everywhere gone₁ removed₁ done gone removed s)
      (stripReference everywhere raw)
      (fun _ s ↦ ∃ gone removed,
        IsSpread e₀ listed t everywhere gone₁ removed₁ (done ++ [raw]) gone removed s)
      fun _ ↦ True := by
  unfold stripReference
  split
  · next hskip =>
    refine Triple.pure fun s ⟨gone, removed, hs⟩ ↦ ⟨gone, removed, hs.skip fun hzero halive ↦ ?_⟩
    simp [hzero, halive] at hskip
  · next hlook =>
    obtain ⟨hzero, halive⟩ : raw.sectionNumber = 0 ∧ raw.isRemoved = false := by simpa using hlook
    have hraw : raw ∈ listed := by
      have hmem : raw ∈ listed.map (EditorSymbol.after e₀.strategy gone₁) :=
        heq ▸ List.mem_append_right _ (List.mem_cons_self ..)
      obtain ⟨original, horiginal, rfl⟩ := List.mem_map.mp hmem
      rw [(EditorSymbol.after_eq_self halive).2]
      exact horiginal
    have hearlier : ∀ other ∈ done, other.index ≠ raw.index := by
      have hpairs : (listed.map (EditorSymbol.after e₀.strategy gone₁)).Pairwise
          fun a b ↦ a.index < b.index :=
        List.pairwise_map.mpr ((Editor.pairwise_symbolsFrom ho.listing).imp fun h ↦ by
          rw [EditorSymbol.index_after, EditorSymbol.index_after]
          omega)
      rw [heq] at hpairs
      exact fun other hother ↦
        Nat.ne_of_lt ((List.pairwise_append.mp hpairs).2.2 other hother raw (List.mem_cons_self ..))
    refine Triple.bind_get fun s ⟨gone, removed, hs⟩ ↦ ?_
    rw [hs.tracks.table]
    split
    · next hnone =>
      refine Triple.pure fun s' h ↦ ⟨gone, removed, h ▸ hs.skip ?_⟩
      intro _ _ symbol hsymbol hundefined
      simp [hsymbol, hundefined] at hnone
    · next symbol hsymbol =>
      obtain ⟨hsymbol, hundefined⟩ := Option.filter_eq_some_iff.mp hsymbol
      split
      · next hgo =>
        have hmem : symbol.name ∈ everywhere := by simpa using (Bool.and_eq_true_iff.mp hgo).1
        have hremove : Triple (Tracks e₀ listed t gone [] removed) _ _ _ :=
          triple_remove ho hraw symbol.name
        refine (hremove.bind fun _ ↦ triple_force symbol.name).mono (fun _ h ↦ h ▸ hs.tracks)
          (fun _ s' hs' ↦ ⟨_, _, hs',
            fun index hindex ↦ List.mem_cons_of_mem _ (hs.kept index hindex),
            fun other hother hgone ↦ ?_, fun name hname ↦ ?_, fun other hother ↦ ?_⟩) fun _ h ↦ h
        · rcases List.mem_cons.mp hgone with hindex | hgone
          · cases ho.eq_of_index hother hraw hindex
            exact .inr ⟨hzero, symbol, hsymbol, hmem⟩
          · exact hs.cause other hother hgone
        · rcases List.mem_cons.mp hname with rfl | hname
          · exact .inr ⟨raw, List.mem_append_right _ (List.mem_singleton_self _), symbol, hsymbol,
              hundefined, rfl⟩
          · exact (hs.removed name hname).imp_right fun ⟨other, hother, h⟩ ↦
              ⟨other, List.mem_append_left _ hother, h⟩
        · rcases List.mem_append.mp hother with hother | hother
          · exact fun hzero halive symbol hsymbol hundefined hmem hnew ↦
              List.mem_cons_of_mem _
                (hs.reached other hother hzero halive symbol hsymbol hundefined hmem hnew)
          · cases List.mem_singleton.mp hother
            exact fun _ _ _ _ _ _ _ ↦ List.mem_cons_self ..
      · next hstay =>
        refine Triple.pure fun s' h ↦ ⟨gone, removed, h ▸ hs.skip ?_⟩
        intro _ _ symbol' hsymbol' _ hmem hnew
        cases hsymbol.symm.trans hsymbol'
        -- The name was stripped from this file already, so by another record.
        have hremoved : symbol.name ∈ removed := by
          rw [← hs.tracks.removed]
          simpa [hmem] using hstay
        rcases hs.removed _ hremoved with hold | ⟨other, hother, _, hsymbol', hundefined', hname⟩
        · exact hnew hold
        · exact hearlier other hother
            (index_eq_of_once honce hsymbol' hsymbol hundefined' hundefined hname)

/-- Stripping the references of a file whose names were stripped elsewhere. -/
theorem triple_stripReferences (ho : Editor.Outline e₀ listed)
    (honce : (t.undefined.map ObjectSymbol.name).Nodup) (everywhere : List String) :
    Triple (Tracks e₀ listed t gone [] removed) (stripReferences everywhere)
      (fun _ s ↦ ∃ gone' removed', IsSpread e₀ listed t everywhere gone removed
        (listed.map (EditorSymbol.after e₀.strategy gone)) gone' removed' s) fun _ ↦ True := by
  refine Triple.bind_get fun s hs ↦ Triple.bind_lift (fun symbols hsymbols ↦ ?_) fun _ _ ↦ trivial
  cases (hs.editor.symbols_eq ho).symm.trans hsymbols
  have hstart : IsSpread e₀ listed t everywhere gone removed [] gone removed s :=
    ⟨hs, fun _ h ↦ h, fun _ _ h ↦ .inl h, fun _ h ↦ .inl h, fun _ h ↦ (List.not_mem_nil h).elim⟩
  exact (Triple.forM_along fun _ _ _ heq ↦ triple_stripReference ho honce heq).mono
    (fun _ h ↦ ⟨gone, removed, h ▸ hstart⟩) (fun _ _ h ↦ h) fun _ h ↦ h

/-- What goes along with dropped sections lives in one. -/
theorem livesIn_of_mem_leftovers {raws : List EditorSymbol} {candidates : List Nat}
    {raw : EditorSymbol} {name : String}
    (h : (raw, name) ∈ (leftovers registry t raws candidates).2) :
    raw ∈ raws ∧ ∃ number, livesIn number raw = true := by
  induction raws generalizing candidates with
  | nil => cases h
  | cons first rest ih =>
    unfold leftovers at h
    split at h
    · next hlives =>
      dsimp only at h
      split at h
      · rcases List.mem_cons.mp h with heq | h
        · cases heq
          obtain ⟨number, -, hlives⟩ := List.any_eq_true.mp hlives
          exact ⟨List.mem_cons_self .., number, hlives⟩
        · exact (ih h).imp_left (List.mem_cons_of_mem first)
      · exact (ih h).imp_left (List.mem_cons_of_mem first)
    · exact (ih h).imp_left (List.mem_cons_of_mem first)

/-- A symbol that lives in a section is alive and does not stand for the section. -/
theorem alive_of_livesIn {raw : EditorSymbol} {number : Nat} (h : livesIn number raw = true) :
    0 < raw.sectionNumber ∧ raw.isSectionDefinition = false ∧ raw.isRemoved = false := by
  unfold livesIn at h
  simp only [Bool.and_eq_true, decide_eq_true_eq, Bool.not_eq_true'] at h
  exact ⟨h.1.1.2, h.1.2, h.2⟩

/-- A file that lost symbols along with sections. -/
structure IsFinished (registry : Registry) (e₀ : Editor) (listed : List EditorSymbol)
    (t : ObjectTable) (gone₂ gone dropped : List Nat) (removed : List String) (s : Stripping) :
    Prop where
  tracks : Tracks e₀ listed t gone dropped removed s
  kept : ∀ index ∈ gone₂, index ∈ gone
  cause : ∀ raw ∈ listed, raw.index ∈ gone → raw.index ∈ gone₂ ∨
    0 < raw.sectionNumber ∧ canLeave registry t raw (nameOf t raw) = true

/-- Dropping emptied sections takes symbols away that can go and live in sections. -/
theorem triple_removeEmptied (ho : Editor.Outline e₀ listed) :
    Triple (Tracks e₀ listed t gone [] removed) (removeEmptied registry)
      (fun _ s ↦ ∃ gone' dropped removed',
        IsFinished registry e₀ listed t gone gone' dropped removed' s) fun _ ↦ True := by
  refine Triple.bind_get fun s hs ↦ ?_
  have hstart : IsFinished registry e₀ listed t gone gone [] removed s :=
    ⟨hs, fun _ h ↦ h, fun _ _ h ↦ .inl h⟩
  split
  · exact Triple.pure fun _ h ↦ ⟨gone, [], removed, h ▸ hstart⟩
  · refine Triple.bind_lift (fun plan hplan ↦ ?_) fun _ _ ↦ trivial
    obtain ⟨symbols, hsymbols, hplan⟩ := Outcome.bind_eq_ok_iff.mp hplan
    obtain ⟨sections, -, hplan⟩ := Outcome.bind_eq_ok_iff.mp hplan
    obtain ⟨candidates, -, hplan⟩ := Outcome.bind_eq_ok_iff.mp hplan
    cases hplan
    cases (hs.editor.symbols_eq ho).symm.trans hsymbols
    rw [hs.table]
    refine Triple.bind (R := fun _ s ↦ ∃ gone' removed',
      IsFinished registry e₀ listed t gone gone' [] removed' s) ?_ fun _ ↦ ?_
    · refine (Triple.forM_keeps fun leftover hleftover ↦ ?_).mono
        (fun _ h ↦ ⟨gone, removed, h ▸ hstart⟩) (fun _ _ h ↦ h) fun _ h ↦ h
      obtain ⟨raw, name⟩ := leftover
      have hmem := (List.mem_filter.mp hleftover).1
      obtain ⟨hleave, rfl⟩ := canLeave_of_mem_leftovers hmem
      obtain ⟨hraw, number, hlives⟩ := livesIn_of_mem_leftovers hmem
      obtain ⟨hpos, -, halive⟩ := alive_of_livesIn hlives
      obtain ⟨original, horiginal, rfl⟩ := List.mem_map.mp hraw
      rw [(EditorSymbol.after_eq_self halive).2] at hpos hleave ⊢
      refine Triple.of_pre fun s' ⟨gone', removed', hs'⟩ ↦ ?_
      have hremove : Triple (Tracks e₀ listed t gone' [] removed') _ _ _ :=
        triple_remove ho horiginal (nameOf t original)
      refine hremove.mono (fun _ h ↦ h ▸ hs'.tracks) (fun _ _ h ↦ ⟨_, _, h, fun index hindex ↦
        List.mem_cons_of_mem _ (hs'.kept index hindex), fun other hother hgone ↦ ?_⟩) fun _ h ↦ h
      rcases List.mem_cons.mp hgone with hindex | hgone
      · cases ho.eq_of_index hother horiginal hindex
        exact .inr ⟨hpos, hleave⟩
      · exact hs'.cause other hother hgone
    · refine (Triple.forM_keeps fun number _ ↦ ?_).mono
        (fun _ ⟨gone', removed', h⟩ ↦ ⟨gone', [], removed', h⟩) (fun _ _ h ↦ h) fun _ h ↦ h
      refine Triple.of_pre fun s' ⟨gone', dropped, removed', hs'⟩ ↦ ?_
      have hdrop : Triple (Editor.Edited e₀ listed gone' dropped) (Editor.removeSection number) _ _ :=
        Editor.triple_removeSection ho
      exact (triple_edit hdrop).mono (fun _ h ↦ h ▸ hs'.tracks)
        (fun _ _ h ↦ ⟨gone', _, removed', h, hs'.kept, hs'.cause⟩) fun _ h ↦ h

/-- Finishing a file takes symbols away that can go and live in sections. -/
theorem triple_finish (ho : Editor.Outline e₀ listed) (strategy : RemovalStrategy) :
    Triple (Tracks e₀ listed t gone [] removed) (finish registry strategy)
      (fun _ s ↦ ∃ gone' dropped removed',
        IsFinished registry e₀ listed t gone gone' dropped removed' s) fun _ ↦ True := by
  refine (triple_removeEmptied ho).bind fun _ ↦ Triple.of_pre ?_
  rintro s ⟨gone', dropped, removed', hs⟩
  split
  · have hretarget : Triple (Tracks e₀ listed t gone' dropped removed') _ _ _ :=
      triple_edit (Editor.triple_retarget ho)
    exact hretarget.mono (fun _ h ↦ h ▸ hs.tracks)
      (fun _ _ h ↦ ⟨gone', dropped, removed', h, hs.kept, hs.cause⟩) fun _ h ↦ h
  · exact Triple.pure fun _ h ↦ ⟨gone', dropped, removed', h ▸ hs⟩

end Passes

end Stripping
end LivePatch
