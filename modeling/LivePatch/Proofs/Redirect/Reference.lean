import LivePatch.Proofs.Memory.Writes
import LivePatch.Proofs.Process.Writing
import LivePatch.Proofs.Relocation.Field
import LivePatch.Redirect.Reference

/-!
# Where redirected references lead

Redirecting a reference is one write of one field, and behind it the field resolves to the
destination. Which references are redirected is decided by the kind of their field and the names at
both of their ends; among those, the ones to stripped names are all redirected before the entry
point runs.
-/

namespace LivePatch

namespace ReferenceRedirection

/-- The write that a redirection makes, if the destination is mapped and within the field's range. -/
def writing? (r : ReferenceRedirection) (patch : Mapping) (bases : List (Option UInt64)) :
    Option (UInt64 × Bytes) := do
  let base ← Registry.baseOf? bases r.target
  let p ← (patch.address r.patchRva).toOption
  let s ← Word.add64? base r.targetRva.toUInt64
  let value ← (Field.value? r.kind p s r.addend patch.base).toOption
  value.map (p, ·)

/-- Whether the field of a redirection resolves to its destination, whose image lies at a base. -/
def ResolvesIn (r : ReferenceRedirection) (patch : Mapping) (base : UInt64) (m : Memory) : Prop :=
  ∃ p field, patch.address r.patchRva = .ok p ∧ m.read p r.kind.size = .ok field ∧
    Field.resolve? r.kind p patch.base field = some (base + r.targetRva.toUInt64 + r.addend.toUInt64)

variable {r : ReferenceRedirection} {patch : Mapping} {bases : List (Option UInt64)}
  {write : UInt64 × Bytes}

private theorem toOption_eq_some_iff {α : Type} {x : Outcome α} {a : α} :
    x.toOption = some a ↔ x = .ok a := by
  cases x <;> simp [Except.toOption]

/-- What the write of a redirection is made of. -/
theorem writing?_eq_some_iff : r.writing? patch bases = some write ↔
    ∃ base s, Registry.baseOf? bases r.target = some base ∧
      patch.address r.patchRva = .ok write.1 ∧ Word.add64? base r.targetRva.toUInt64 = some s ∧
      Field.value? r.kind write.1 s r.addend patch.base = .ok (some write.2) := by
  obtain ⟨p, value⟩ := write
  constructor
  · intro h
    obtain ⟨base, hbase, h⟩ := Option.bind_eq_some_iff.mp h
    obtain ⟨p', hp, h⟩ := Option.bind_eq_some_iff.mp h
    obtain ⟨s, hs, h⟩ := Option.bind_eq_some_iff.mp h
    obtain ⟨value', hvalue, h⟩ := Option.bind_eq_some_iff.mp h
    obtain ⟨bytes, rfl, h⟩ := Option.map_eq_some_iff.mp h
    cases h
    exact ⟨base, s, hbase, toOption_eq_some_iff.mp hp, hs, toOption_eq_some_iff.mp hvalue⟩
  · rintro ⟨base, s, hbase, hp, hs, hvalue⟩
    simp only [writing?, hbase, hp, hs, hvalue, Except.toOption, Option.bind_eq_bind,
      Option.bind_some, Option.map_some]

/-- The write of a redirection fills its field. -/
theorem size_of_writing? (h : r.writing? patch bases = some write) :
    write.2.size = r.kind.size := by
  obtain ⟨_, _, -, -, -, hvalue⟩ := writing?_eq_some_iff.mp h
  exact Field.size_of_value? hvalue

/-- Where the write of a redirection is, the field resolves to the destination. -/
theorem resolvesIn_of_has (h : r.writing? patch bases = some write) {base : UInt64}
    (hbase : Registry.baseOf? bases r.target = some base) {m : Memory} (hm : m.Has write) :
    r.ResolvesIn patch base m := by
  obtain ⟨base', s, hbase', hp, hs, hvalue⟩ := writing?_eq_some_iff.mp h
  cases hbase.symm.trans hbase'
  refine ⟨write.1, write.2, hp, size_of_writing? h ▸ hm, ?_⟩
  rw [Field.resolve?_of_value? hvalue]
  unfold Word.add64? at hs
  split at hs
  · cases hs
    rfl
  · cases hs

/-- What a field resolves to depends on nothing but its bytes. -/
theorem resolvesIn_congr {base : UInt64} {m m' : Memory}
    (h : ∀ p field, patch.address r.patchRva = .ok p →
      (m'.read p r.kind.size = .ok field ↔ m.read p r.kind.size = .ok field)) :
    r.ResolvesIn patch base m' ↔ r.ResolvesIn patch base m := by
  constructor
  · rintro ⟨p, field, hp, hread, hresolve⟩
    exact ⟨p, field, hp, (h p field hp).mp hread, hresolve⟩
  · rintro ⟨p, field, hp, hread, hresolve⟩
    exact ⟨p, field, hp, (h p field hp).mpr hread, hresolve⟩

/-- The field that a redirection computes is the one that it writes. -/
theorem writing?_of_relocate (hkind : r.kind.isPatchable = true) {base p s : UInt64}
    (hbase : Registry.baseOf? bases r.target = some base) (hp : patch.address r.patchRva = .ok p)
    (hs : orFault (Word.add64? base r.targetRva.toUInt64) = .ok s) {old field : Bytes}
    (h : Field.relocate r.kind p s r.addend patch.base old = .ok field) :
    r.writing? patch bases = some (p, field) := by
  obtain ⟨value, hvalue, h⟩ := Outcome.bind_eq_ok_iff.mp h
  have hsome := Field.isSome_of_value? hvalue
  rw [hkind] at hsome
  obtain ⟨bytes, rfl⟩ := Option.isSome_iff_exists.mp hsome
  dsimp only at h
  split at h
  · cases h
    exact writing?_eq_some_iff.mpr ⟨base, s, hbase, hp, Outcome.orFault_eq_ok_iff.mp hs, hvalue⟩
  · cases h

/-- Redirecting a reference turns what holds of the process into what holds behind its write; when
it stops short, one of both holds. -/
theorem triple_apply {P Q : UInt32 × Memory → Prop} (hkind : r.kind.isPatchable = true)
    (h : ∀ write pid m m', r.writing? patch bases = some write → P (pid, m) →
      m.write write.1 write.2 = .ok m' → Q (pid, m')) :
    Triple (fun t ↦ P t.sight) (r.apply patch bases) (fun _ t ↦ Q t.sight)
      fun t ↦ P t.sight ∨ Q t.sight := by
  have hP : ∀ t : Target, P t.sight → P t.sight ∨ Q t.sight := fun _ ↦ Or.inl
  unfold apply
  split
  · exact Triple.bind_get fun t ht ↦ Triple.fail fun _ hs ↦ hP _ (hs ▸ ht)
  · next base hbase =>
    refine Triple.bind_lift (fun p hp ↦ Triple.bind_lift (fun s hs ↦ ?_) hP) hP
    refine Triple.bind (((patch.quiet_read _ _).keeps P).mono (fun _ h ↦ h) (fun _ _ h ↦ h) hP)
      fun old ↦ Triple.bind_lift (fun field hfield ↦ patch.triple_write ?_) hP
    intro address pid m m' haddress hm hwrite
    cases hp.symm.trans haddress
    exact h (p, field) pid m m' (writing?_of_relocate hkind hbase hp hs hfield) hm hwrite

end ReferenceRedirection

namespace PatchView

variable {v : PatchView} {object : ObjectTable} {stripped : List String} {r : Relocation}
  {ref : ReferenceRedirection}

/-- Whether the linker took a symbol of an object file, and where it lies in the patch. -/
structure Links (v : PatchView) (object : ObjectTable) (name : String) (rva : UInt32) : Prop where
  found : v.tables.symbols.find? name = some rva
  contributed : v.tables.isContributedBy rva object.path = .ok true

/-- What is known of a reference that is redirected. -/
theorem redirects_of_resolve {source : String} {rva : UInt32}
    (h : v.resolve r source rva stripped = .ok (some ref)) : r.isRedirectable source = true ∧
    ∃ existing, v.registry.findSymbol? (some v.token) r.target = some existing ∧
      ∃ field, Word.add32? rva r.offset = some field ∧
      ref = ⟨r.kind, field, existing.token, existing.rva, r.addend⟩ := by
  unfold resolve at h
  split at h
  · cases h
  · next hredirectable =>
    split at h
    · cases h
    · next existing hexisting =>
      have hdecided : ∀ isFresh : Bool, (if isFresh = true then (pure none : Outcome _) else do
          let field ← orFault (Word.add32? rva r.offset)
          pure (some ⟨r.kind, field, existing.token, existing.rva, r.addend⟩)) = .ok (some ref) →
          ∃ field, Word.add32? rva r.offset = some field ∧
            ref = ⟨r.kind, field, existing.token, existing.rva, r.addend⟩ := by
        intro isFresh h
        cases isFresh with
        | true => cases h
        | false =>
          obtain ⟨field, hfield, h⟩ := Outcome.bind_eq_ok_iff.mp h
          cases h
          exact ⟨field, Outcome.orFault_eq_ok_iff.mp hfield, rfl⟩
      refine ⟨by simpa using hredirectable, existing, ?_⟩
      simp only [hexisting, true_and]
      split at h
      · exact hdecided false h
      · obtain ⟨isFresh, -, h⟩ := Outcome.bind_eq_ok_iff.mp h
        exact hdecided isFresh h

/-- A reference to a stripped name is redirected when it can be. -/
theorem resolve_of_stripped {source : String} {rva : UInt32} (hstripped : r.target ∈ stripped)
    (hredirectable : r.isRedirectable source = true) {existing : FoundSymbol}
    (hexisting : v.registry.findSymbol? (some v.token) r.target = some existing) :
    v.resolve r source rva stripped = (do
      let field ← orFault (Word.add32? rva r.offset)
      pure (some ⟨r.kind, field, existing.token, existing.rva, r.addend⟩)) := by
  have hcontains : stripped.contains r.target = true := by simpa using hstripped
  unfold resolve
  rw [hredirectable, hexisting, hcontains]
  rfl

/-- A reference to a stripped name is redirected before the entry point runs. -/
theorem phaseOf_of_stripped (hstripped : r.target ∈ stripped) :
    phaseOf object stripped r = .preEntry := by
  have hcontains : stripped.contains r.target = true := by simpa using hstripped
  unfold phaseOf Phase.of
  rw [hcontains, Bool.not_true, Bool.and_false]
  rfl

/-- The redirections of one phase for a symbol that the linker took. -/
theorem mem_collectSymbol_iff {phase : Phase} {s : ObjectSymbol}
    {records : List ReferenceRedirection}
    (h : v.collectSymbol phase object stripped s = .ok records) :
    ref ∈ records ↔ ∃ rva, v.Links object s.name rva ∧ ∃ r ∈ s.relocations,
      phaseOf object stripped r = phase ∧ v.resolve r s.name rva stripped = .ok (some ref) := by
  unfold collectSymbol at h
  split at h
  · next hempty =>
    cases h
    rw [List.isEmpty_iff.mp hempty]
    simp
  · split at h
    · next hnone =>
      cases h
      refine ⟨fun hmem ↦ (by cases hmem), ?_⟩
      rintro ⟨rva, hlinks, -⟩
      cases hnone.symm.trans hlinks.found
    · next rva hfound =>
      obtain ⟨isOwn, hown, h⟩ := Outcome.bind_eq_ok_iff.mp h
      cases isOwn with
      | false =>
        cases h
        refine ⟨fun hmem ↦ (by cases hmem), ?_⟩
        rintro ⟨rva', hlinks, -⟩
        cases hfound.symm.trans hlinks.found
        cases hown.symm.trans hlinks.contributed
      | true =>
        obtain ⟨found, hmap, h⟩ := Outcome.bind_eq_ok_iff.mp h
        cases h
        simp only [List.mem_filterMap, id_eq, exists_eq_right, Outcome.mem_mapM_iff hmap,
          List.mem_filter, beq_iff_eq, and_assoc]
        constructor
        · rintro ⟨r, hr, hphase, hresolve⟩
          exact ⟨rva, ⟨hfound, hown⟩, r, hr, hphase, hresolve⟩
        · rintro ⟨rva', hlinks, r, hr, hphase, hresolve⟩
          cases hfound.symm.trans hlinks.found
          exact ⟨r, hr, hphase, hresolve⟩

/-- Every reference of a symbol that the linker took is looked at in its phase. -/
theorem resolve_of_collectSymbol {phase : Phase} {s : ObjectSymbol}
    {records : List ReferenceRedirection}
    (h : v.collectSymbol phase object stripped s = .ok records) {rva : UInt32}
    (hlinks : v.Links object s.name rva) (hr : r ∈ s.relocations)
    (hphase : phaseOf object stripped r = phase) :
    ∃ found, v.resolve r s.name rva stripped = .ok found := by
  unfold collectSymbol at h
  split at h
  · next hempty =>
    rw [List.isEmpty_iff.mp hempty] at hr
    cases hr
  · rw [hlinks.found] at h
    obtain ⟨isOwn, hown, h⟩ := Outcome.bind_eq_ok_iff.mp h
    cases hlinks.contributed.symm.trans hown
    obtain ⟨found, hmap, -⟩ := Outcome.bind_eq_ok_iff.mp h
    have hmem : r ∈ s.relocations.filter fun r ↦ phaseOf object stripped r == phase :=
      List.mem_filter.mpr ⟨hr, beq_iff_eq.mpr hphase⟩
    obtain ⟨result, -, hresult⟩ := Pointwise.exists_right (Outcome.forall₂_of_mapM hmap) hmem
    exact ⟨result, hresult⟩

/-- The redirections of one phase for an object file. -/
theorem mem_collect_iff {phase : Phase} {records : List ReferenceRedirection}
    (h : v.collect phase object stripped = .ok records) :
    ref ∈ records ↔ ∃ s ∈ object.defined, ∃ rva, v.Links object s.name rva ∧ ∃ r ∈ s.relocations,
      phaseOf object stripped r = phase ∧ v.resolve r s.name rva stripped = .ok (some ref) := by
  obtain ⟨lists, hlists, h⟩ := Outcome.bind_eq_ok_iff.mp h
  cases h
  rw [Outcome.mem_flatten_mapM_iff hlists]
  constructor
  · rintro ⟨s, hs, records, hrecords, hmem⟩
    exact ⟨s, hs, (mem_collectSymbol_iff hrecords).mp hmem⟩
  · rintro ⟨s, hs, hrefs⟩
    obtain ⟨records, -, hrecords⟩ := Pointwise.exists_right (Outcome.forall₂_of_mapM hlists) hs
    exact ⟨s, hs, records, hrecords, (mem_collectSymbol_iff hrecords).mpr hrefs⟩

end PatchView
end LivePatch
