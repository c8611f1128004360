import LivePatch.Build.Strip
import LivePatch.Proofs.Triple

/-!
# Verdicts on records

The first pass of stripping asks for every record of a file by itself whether it goes: data goes and
references to recompiled units go when the file's own check allows that, and references to what is
defined outside the recompiled units go whatever refers to them.
-/

namespace LivePatch.Stripping

/-- What becomes of a record of a file, by itself. -/
inductive Verdict where
  | stays
  /-- It goes, since its existing instance is to be used. -/
  | goes (name : String)
  /-- It goes from every file, since it is not defined in the recompiled units. -/
  | goesEverywhere (name : String)

/-- The name that goes. -/
def Verdict.name? : Verdict → Option String
  | .stays => none
  | .goes name => some name
  | .goesEverywhere name => some name

/-- A verdict under which a record goes names it. -/
theorem Verdict.exists_name?_iff {v : Verdict} : (∃ name, v.name? = some name) ↔ v ≠ .stays := by
  cases v <;> simp [name?]

variable (registry : Registry) (recompiled : PathSet) (owners : SymbolOwners)

/-- What becomes of a record of a file that has tables. -/
def verdict (t : ObjectTable) (raw : Coff.EditorSymbol) : Verdict :=
  if raw.sectionNumber < 0 || raw.isSectionDefinition then .stays
  else match symbolAt? t raw with
  | none => .stays
  | some s =>
    if Names.isCompilerGenerated s.name then .stays
    else if s.isUndefined then
      if isForced registry recompiled owners s.name then .goesEverywhere s.name
      else if (owners.lookup s.name).any recompiled.contains && t.canStrip registry s.name then
        .goes s.name
      else .stays
    else if !s.isFunction && t.canStrip registry s.name then .goes s.name
    else .stays

/-- Carries out what becomes of a record. -/
def execute (raw : Coff.EditorSymbol) : Verdict → StripM Unit
  | .stays => pure ()
  | .goes name => remove raw name
  | .goesEverywhere name => do
    force name
    remove raw name

/-- Stripping a symbol carries out what becomes of its record. -/
theorem stripSymbol_eq (raw : Coff.EditorSymbol) :
    stripSymbol registry recompiled owners raw
      = get >>= fun s ↦ execute raw (verdict registry recompiled owners s.table raw) := by
  unfold stripSymbol verdict
  split
  · rfl
  · refine bind_congr fun s ↦ ?_
    dsimp only
    generalize symbolAt? s.table raw = found
    cases found with
    | none => rfl
    | some symbol =>
      dsimp only
      repeat' split
      all_goals rfl

/-- A record that is asked for: it stands for a symbol which compilers did not make up, and not for
a section. -/
structure IsAskedFor (t : ObjectTable) (raw : Coff.EditorSymbol) (s : ObjectSymbol) : Prop where
  symbol : symbolAt? t raw = some s
  number : 0 ≤ raw.sectionNumber
  definition : raw.isSectionDefinition = false
  made : Names.isCompilerGenerated s.name = false

/-- Reasons for which a record goes by itself, under a name. -/
inductive GoesByItself (t : ObjectTable) (raw : Coff.EditorSymbol) (name : String) : Prop where
  /-- It is data, all references of the file to which would be redirected. -/
  | data {s : ObjectSymbol} (h : IsAskedFor t raw s) (hname : s.name = name)
      (hdefined : s.isUndefined = false) (hdata : s.isFunction = false)
      (hcheck : t.canStrip registry name = true)
  /-- It refers to a recompiled unit, and all references of the file to it would be redirected. -/
  | recompiled {s : ObjectSymbol} (h : IsAskedFor t raw s) (hname : s.name = name)
      (hundefined : s.isUndefined = true)
      (howner : (owners.lookup name).any recompiled.contains = true)
      (hcheck : t.canStrip registry name = true)
  /-- It refers to what is defined outside the recompiled units, whatever else does. -/
  | outside {s : ObjectSymbol} (h : IsAskedFor t raw s) (hname : s.name = name)
      (hundefined : s.isUndefined = true)
      (hforced : isForced registry recompiled owners name = true)

variable {registry recompiled owners} {t : ObjectTable} {raw : Coff.EditorSymbol} {name : String}
  {s : ObjectSymbol}

/-- What becomes of a record that is asked for. -/
theorem IsAskedFor.verdict_eq (h : IsAskedFor t raw s) :
    verdict registry recompiled owners t raw =
      if s.isUndefined then
        if isForced registry recompiled owners s.name then .goesEverywhere s.name
        else if (owners.lookup s.name).any recompiled.contains && t.canStrip registry s.name then
          .goes s.name
        else .stays
      else if !s.isFunction && t.canStrip registry s.name then .goes s.name
      else .stays := by
  have hnumber := h.number
  unfold verdict
  rw [if_neg (by simp [h.definition]; omega), h.symbol]
  dsimp only
  rw [if_neg (by simp [h.made])]

/-- A record that goes by itself was asked for. -/
theorem isAskedFor_of_verdict (h : verdict registry recompiled owners t raw ≠ .stays) :
    ∃ s, IsAskedFor t raw s := by
  unfold verdict at h
  split at h
  · exact (h rfl).elim
  · next hlook =>
    simp only [Bool.or_eq_true, decide_eq_true_eq, not_or, Bool.not_eq_true, Int.not_lt] at hlook
    split at h
    · exact (h rfl).elim
    · next s hs =>
      split at h
      · exact (h rfl).elim
      · next hmade => exact ⟨s, hs, hlook.1, hlook.2, Bool.not_eq_true _ ▸ hmade⟩

/-- A record goes by itself exactly when there is a reason. -/
theorem name?_verdict_iff : (verdict registry recompiled owners t raw).name? = some name ↔
    GoesByItself registry recompiled owners t raw name := by
  constructor
  · intro hname
    obtain ⟨s, h⟩ := isAskedFor_of_verdict (Verdict.exists_name?_iff.mp ⟨name, hname⟩)
    rw [h.verdict_eq] at hname
    split at hname
    · next hundefined =>
      split at hname
      · next hforced =>
        cases hname
        exact .outside h rfl hundefined hforced
      · split at hname
        · next hcheck =>
          cases hname
          obtain ⟨howner, hcheck⟩ := Bool.and_eq_true_iff.mp hcheck
          exact .recompiled h rfl hundefined howner hcheck
        · cases hname
    · next hdefined =>
      split at hname
      · next hcheck =>
        cases hname
        obtain ⟨hdata, hcheck⟩ := Bool.and_eq_true_iff.mp hcheck
        exact .data h rfl (Bool.not_eq_true _ ▸ hdefined) (by simpa using hdata) hcheck
      · cases hname
  · intro hgoes
    cases hgoes with
    | data h hname hdefined hdata hcheck =>
      subst hname
      rw [h.verdict_eq, if_neg (by simp [hdefined]), if_pos (by simp [hdata, hcheck])]
      rfl
    | recompiled h hname hundefined howner hcheck =>
      subst hname
      rw [h.verdict_eq, if_pos hundefined, if_neg (by simp [isForced, howner]),
        if_pos (by rw [howner, hcheck]; rfl)]
      rfl
    | outside h hname hundefined hforced =>
      subst hname
      rw [h.verdict_eq, if_pos hundefined, if_pos hforced]
      rfl

/-- A record stays exactly when there is no reason for it to go. -/
theorem verdict_ne_stays_iff : verdict registry recompiled owners t raw ≠ .stays ↔
    ∃ name, GoesByItself registry recompiled owners t raw name := by
  simp only [← name?_verdict_iff, Verdict.exists_name?_iff]

/-- The name under which a record goes is that of its symbol, which the compiler did not make up. -/
theorem GoesByItself.exists_symbol (h : GoesByItself registry recompiled owners t raw name) :
    ∃ s, symbolAt? t raw = some s ∧ s.name = name ∧ Names.isCompilerGenerated name = false := by
  rcases h with ⟨h, rfl, -⟩ | ⟨h, rfl, -⟩ | ⟨h, rfl, -⟩ <;> exact ⟨_, h.symbol, rfl, h.made⟩

/-- A name that goes may go by the file's own check, or is defined outside the recompiled units. -/
theorem GoesByItself.canStrip_or_isForced (h : GoesByItself registry recompiled owners t raw name) :
    t.canStrip registry name = true ∨ isForced registry recompiled owners name = true := by
  cases h with
  | data _ _ _ _ hcheck => exact .inl hcheck
  | recompiled _ _ _ _ hcheck => exact .inl hcheck
  | outside _ _ _ hforced => exact .inr hforced

/-- The name under which a record is noted when it goes along with its section. -/
def nameOf (t : ObjectTable) (raw : Coff.EditorSymbol) : String :=
  ((symbolAt? t raw).map ObjectSymbol.name).getD raw.name

/-- What goes along with dropped sections can go. -/
theorem canLeave_of_mem_leftovers {raws : List Coff.EditorSymbol} {candidates : List Nat}
    (h : (raw, name) ∈ (leftovers registry t raws candidates).2) :
    canLeave registry t raw name = true ∧ name = nameOf t raw := by
  induction raws generalizing candidates with
  | nil => cases h
  | cons first rest ih =>
    unfold leftovers at h
    split at h
    · dsimp only at h
      split at h
      · next hleave =>
        rcases List.mem_cons.mp h with heq | h
        · cases heq
          exact ⟨hleave, rfl⟩
        · exact ih h
      · exact ih h
    · exact ih h

end LivePatch.Stripping
