import LivePatch.Failure
import LivePatch.Proofs.Pointwise

/-!
# Results that are there

What is known of the parts of a computation that came to a result.
-/

namespace LivePatch.Outcome

variable {α β : Type}

instance (x : Option α) (P : α → Prop) [DecidablePred P] : Decidable (∀ a, x = some a → P a) :=
  match x with
  | some a => decidable_of_iff (P a) ⟨fun h _ heq ↦ Option.some.inj heq ▸ h, fun h ↦ h a rfl⟩
  | none => isTrue nofun

instance (x : Outcome α) (P : α → Prop) [DecidablePred P] : Decidable (∀ a, x = .ok a → P a) :=
  match x with
  | .ok a => decidable_of_iff (P a) ⟨fun h _ heq ↦ Except.ok.inj heq ▸ h, fun h ↦ h a rfl⟩
  | .error _ => isTrue nofun

/-- A computation in two parts comes to a result when both parts do. -/
theorem bind_eq_ok_iff {x : Outcome α} {f : α → Outcome β} {b : β} :
    x >>= f = .ok b ↔ ∃ a, x = .ok a ∧ f a = .ok b := by
  cases x with
  | error e => simp [bind, Except.bind]
  | ok a => simp [bind, Except.bind]

/-- A value that is not missing. -/
theorem orFault_eq_ok_iff {x : Option α} {a : α} : orFault x = .ok a ↔ x = some a := by
  cases x <;> simp [orFault]

/-- A value that is missing is a fault. -/
theorem orFault_eq_error_iff {x : Option α} {stop : Stop} :
    orFault x = .error stop ↔ x = none ∧ stop = .fault := by
  cases x <;> simp [orFault, eq_comm]

/-- A value that is not missing, whatever its absence would have been called. -/
theorem orFail_eq_ok_iff {c : Cause} {x : Option α} {a : α} : orFail c x = .ok a ↔ x = some a := by
  cases x <;> simp [orFail]

/-- A computation in two parts stays within its range when both parts do. -/
theorem bind_ne_fault {x : Outcome α} {f : α → Outcome β} (hx : x ≠ .error .fault)
    (hf : ∀ a, x = .ok a → f a ≠ .error .fault) : x >>= f ≠ .error .fault := by
  cases x with
  | error stop =>
    intro h
    cases h
    exact hx rfl
  | ok a => exact hf a rfl

/-- A value that is missing for a cause is an error. -/
theorem orFail_ne_fault {c : Cause} {x : Option α} : orFail c x ≠ .error .fault := by
  cases x <;> exact fun h ↦ by cases h

/-- A context changes nothing about a result that is there. -/
theorem inContext_eq_ok_iff {c : Context} {x : Outcome α} {a : α} :
    inContext c x = .ok a ↔ x = .ok a := by
  cases x with
  | ok b => exact Iff.rfl
  | error e =>
    change Except.error (e.within c) = Except.ok a ↔ _
    simp

/-- Results for the entries of a list, entry by entry. -/
theorem forall₂_of_mapM {f : α → Outcome β} {as : List α} {bs : List β}
    (h : as.mapM f = .ok bs) : List.Forall₂ (fun a b ↦ f a = .ok b) as bs := by
  induction as generalizing bs with
  | nil =>
    rw [List.mapM_nil] at h
    cases h
    exact .nil
  | cons a as ih =>
    rw [List.mapM_cons] at h
    obtain ⟨b, hb, h⟩ := bind_eq_ok_iff.mp h
    obtain ⟨bs, hbs, h⟩ := bind_eq_ok_iff.mp h
    cases h
    exact .cons hb (ih hbs)

/-- Results for the entries of a list that each have a counterpart have them together. -/
theorem exists_mapM_of_mapM {γ : Type} {f : α → Outcome β} {g : α → Outcome γ} {S : β → γ → Prop}
    {as : List α} {bs : List β} (h : as.mapM f = .ok bs)
    (hfg : ∀ a ∈ as, ∀ b, f a = .ok b → ∃ c, g a = .ok c ∧ S b c) :
    ∃ cs, as.mapM g = .ok cs ∧ List.Forall₂ S bs cs := by
  induction as generalizing bs with
  | nil =>
    rw [List.mapM_nil] at h
    cases h
    exact ⟨[], rfl, .nil⟩
  | cons a as ih =>
    rw [List.mapM_cons] at h
    obtain ⟨b, hb, h⟩ := bind_eq_ok_iff.mp h
    obtain ⟨bs, hbs, h⟩ := bind_eq_ok_iff.mp h
    cases h
    obtain ⟨hfirst, hrest⟩ := List.forall_mem_cons.mp hfg
    obtain ⟨c, hc, hS⟩ := hfirst b hb
    obtain ⟨cs, hcs, hSs⟩ := ih hbs hrest
    exact ⟨c :: cs, by rw [List.mapM_cons, hc, hcs]; rfl, .cons hS hSs⟩

/-- An entry of the results for the entries of a list. -/
theorem mem_mapM_iff {f : α → Outcome β} {as : List α} {bs : List β} (h : as.mapM f = .ok bs)
    {b : β} : b ∈ bs ↔ ∃ a ∈ as, f a = .ok b := by
  have hpointwise := forall₂_of_mapM h
  constructor
  · intro hb
    exact Pointwise.exists_left hpointwise hb
  · rintro ⟨a, ha, hab⟩
    obtain ⟨b', hb', hab'⟩ := Pointwise.exists_right hpointwise ha
    cases hab.symm.trans hab'
    exact hb'

/-- An entry of the lists that the entries of a list result in. -/
theorem mem_flatten_mapM_iff {f : α → Outcome (List β)} {as : List α} {bss : List (List β)}
    (h : as.mapM f = .ok bss) {b : β} :
    b ∈ bss.flatten ↔ ∃ a ∈ as, ∃ bs, f a = .ok bs ∧ b ∈ bs := by
  rw [List.mem_flatten]
  constructor
  · rintro ⟨bs, hbs, hb⟩
    obtain ⟨a, ha, hab⟩ := (mem_mapM_iff h).mp hbs
    exact ⟨a, ha, bs, hab, hb⟩
  · rintro ⟨a, ha, bs, hab, hb⟩
    exact ⟨bs, (mem_mapM_iff h).mpr ⟨a, ha, hab⟩, hb⟩

end LivePatch.Outcome
