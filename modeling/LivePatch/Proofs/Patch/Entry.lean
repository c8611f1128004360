import LivePatch.Proofs.Patch.Phases
import LivePatch.Proofs.Patch.Redirecting
import LivePatch.Proofs.Redirect.Reference
import LivePatch.Proofs.Session.Identity

/-!
# References before the entry point runs

References are redirected one after another, and a few more bytes of a patch are replaced before its
entry point runs. A redirection that worked in every process is still there when the entry point is
about to run, unless one of the other edits reaches into its field.
-/

namespace LivePatch

/-- Two spans of an image, each a first byte and a length, that do not overlap. -/
def Mapping.AreClear (s s' : UInt32 × Nat) : Prop :=
  s.1.toNat + s.2 ≤ s'.1.toNat ∨ s'.1.toNat + s'.2 ≤ s.1.toNat

/-- Addresses in an image lie as far apart as the bytes there. -/
theorem Mapping.toNat_address {m : Mapping} {rva : UInt32} {address : UInt64}
    (h : m.address rva = .ok address) : address.toNat = m.base.toNat + rva.toNat := by
  unfold Mapping.address at h
  split at h
  · have h := Outcome.orFault_eq_ok_iff.mp h
    unfold Word.add64? at h
    split at h
    · next hlt =>
      cases h
      rw [UInt64.toNat_add, UInt32.toNat_toUInt64, Nat.mod_eq_of_lt]
      rwa [UInt32.toNat_toUInt64] at hlt
    · cases h
  · cases h

namespace ReferenceRedirection

variable {r r' : ReferenceRedirection} {registry : Registry} {token : Token}

/-- The bytes of a patch that a redirection replaces. -/
def span (r : ReferenceRedirection) : UInt32 × Nat := (r.patchRva, r.kind.size)

/-- In a process that has the patch and the image of the destination, the field of a redirection
resolves to the destination. -/
def HoldsIn (r : ReferenceRedirection) (registry : Registry) (token : Token)
    (seen : UInt32 × Memory) : Prop :=
  ∀ patch base, registry.mapping? seen.1 token = some patch →
    Registry.baseOf? (registry.bases seen.1) r.target = some base → r.ResolvesIn patch base seen.2

/-- A write that is clear of a field leaves it resolved. -/
theorem HoldsIn.write {pid : UInt32} {m m' : Memory} (h : r.HoldsIn registry token (pid, m))
    {patch : Mapping} (hpatch : registry.mapping? pid token = some patch) {rva : UInt32}
    {address : UInt64} {bytes : Bytes} (haddress : patch.address rva = .ok address)
    (hclear : Mapping.AreClear (rva, bytes.size) r.span) (hwrite : m.write address bytes = .ok m') :
    r.HoldsIn registry token (pid, m') := by
  intro patch' base hpatch' hbase
  cases hpatch.symm.trans hpatch'
  refine (resolvesIn_congr fun p field hp ↦ ?_).mp (h patch base hpatch hbase)
  have hwrite : m.write (address, bytes).1 (address, bytes).2 = .ok m' := hwrite
  refine (Memory.read_eq_ok_iff_of_write hwrite ?_).symm
  have haddress := Mapping.toNat_address haddress
  have hp := Mapping.toNat_address hp
  unfold Mapping.AreClear span at hclear
  dsimp only at hclear ⊢
  omega

/-- A process of an identifier in which the field of a redirection is resolved. -/
def IsDone (r : ReferenceRedirection) (registry : Registry) (token : Token) (pid : UInt32)
    (seen : UInt32 × Memory) : Prop :=
  seen.1 = pid ∧ r.HoldsIn registry token seen

end ReferenceRedirection

namespace Target

variable {α : Type} {act : TargetM α} {P : UInt32 × Memory → Prop}
  {Q : α → UInt32 × Memory → Prop}

/-- Suspending a process around work changes nothing of what the work guarantees there. -/
theorem triple_suspended_sight
    (h : Triple (fun t ↦ P t.sight) act (fun a t ↦ Q a t.sight) fun _ ↦ True) :
    Triple (fun t ↦ P t.sight) (suspended act) (fun a t ↦ Q a t.sight) fun _ ↦ True :=
  Triple.bind ((quiet_suspend.keeps P).mono (fun _ h ↦ h) (fun _ _ h ↦ h) fun _ _ ↦ trivial) fun _ ↦
    h.ensuring (fun a _ hs ↦ (quiet_resume.keeps (Q a)).run hs) fun _ h ↦ h

/-- Suspending a process around work keeps what the work keeps there. -/
theorem keeps_suspended_sight (h : Keeps (fun t : Target ↦ P t.sight) act) :
    Keeps (fun t : Target ↦ P t.sight) (suspended act) :=
  (quiet_suspend.keeps P).bind fun _ ↦ h.ensuring (quiet_resume.keeps P)

end Target

namespace PatchSteps

open ReferenceRedirection

variable {registry : Registry} {token : Token} {pid : UInt32} {patch : Mapping}
  {r r' : ReferenceRedirection}

/-- When redirecting a reference did not fail, its field is resolved. -/
theorem triple_redirectReference (hpatch : registry.mapping? pid token = some patch)
    (hkind : r.kind.isPatchable = true) :
    Triple (Target.Is pid) (redirectReference patch (registry.bases pid) r)
      (fun failed t ↦ failed = false → r.IsDone registry token pid t.sight) fun _ ↦ True := by
  have happly : Triple (Target.Is pid) (r.apply patch (registry.bases pid)) _ _ :=
    triple_apply (P := (·.1 = pid)) (Q := r.IsDone registry token pid) hkind
      fun write pid' m m' hwrite hpid hm' ↦ by
        subst hpid
        refine ⟨rfl, fun patch' base hpatch' hbase ↦ ?_⟩
        cases hpatch.symm.trans hpatch'
        exact resolvesIn_of_has hwrite hbase (Memory.has_of_write hm')
  intro t ht
  have := happly t ht
  rw [run_redirectReference]
  generalize (r.apply patch (registry.bases pid)).run t = result at this ⊢
  rcases result with ⟨(_ | _) | _, t'⟩
  · exact fun h ↦ (by cases h)
  · trivial
  · exact fun _ ↦ this

/-- Redirecting another reference leaves a field resolved that it is clear of. -/
theorem keeps_redirectReference_of_clear (hpatch : registry.mapping? pid token = some patch)
    (hkind : r'.kind.isPatchable = true)
    (hclear : r' = r ∨ Mapping.AreClear r'.span r.span) :
    Keeps (fun t : Target ↦ r.IsDone registry token pid t.sight)
      (redirectReference patch (registry.bases pid) r') := by
  have happly : Keeps (fun t : Target ↦ r.IsDone registry token pid t.sight)
      (r'.apply patch (registry.bases pid)) := by
    refine (triple_apply (P := r.IsDone registry token pid) (Q := r.IsDone registry token pid) hkind
      fun write pid' m m' hwrite hdone hm' ↦ ?_).mono (fun _ h ↦ h) (fun _ _ h ↦ h)
      fun _ h ↦ h.elim id id
    obtain ⟨hpid, hholds⟩ := hdone
    cases hpid
    refine ⟨rfl, ?_⟩
    rcases hclear with rfl | hclear
    · intro patch' base hpatch' hbase
      cases hpatch.symm.trans hpatch'
      exact resolvesIn_of_has hwrite hbase (Memory.has_of_write hm')
    · obtain ⟨-, -, -, haddress, -⟩ := writing?_eq_some_iff.mp hwrite
      refine hholds.write hpatch haddress ?_ hm'
      rw [size_of_writing? hwrite]
      exact hclear
  refine Keeps.of_run fun t ht ↦ ?_
  rw [run_redirectReference]
  exact happly.run ht

/-- Behind redirections that worked in a process, a field is resolved that the others are clear
of. -/
theorem triple_redirectReferences {records : List ReferenceRedirection}
    (hkinds : ∀ r' ∈ records, r'.kind.isPatchable = true)
    (hclear : ∀ r' ∈ records, r' = r ∨ Mapping.AreClear r'.span r.span) :
    Triple (AttachedProcess.Is pid) (redirectReferences registry token records)
      (fun failures p ↦ AttachedProcess.Is pid p ∧ failures.length = records.length ∧
        ((r, false) ∈ records.zip failures → r.HoldsIn registry token p.target.sight))
      fun _ ↦ True := by
  refine Triple.bind_get fun p hp ↦ ?_
  rw [show p.pid = pid from hp]
  dsimp only
  cases hpatch : registry.mapping? pid token with
  | none =>
    refine Triple.pure fun q hq ↦ ⟨hq ▸ hp, by simp, fun _ patch' base hpatch' ↦ ?_⟩
    rw [hq, show p.target.sight.1 = pid from hp, hpatch] at hpatch'
    cases hpatch'
  | some patch =>
    have hreach : ∀ r' ∈ records, Triple (Target.Is pid)
        (redirectReference patch (registry.bases pid) r')
        (fun failed t ↦ Target.Is pid t ∧
          ((r' = r ∧ failed = false) → r.IsDone registry token pid t.sight)) fun _ ↦ True := by
      intro r' hr'
      refine (((Target.is_allowsPatch registry token).redirectReference hpatch _ r').and
        (triple_redirectReference hpatch (hkinds r' hr'))).mono (fun _ h ↦ ⟨h, h⟩) ?_ fun _ _ ↦ trivial
      rintro failed t ⟨ht, hdone⟩
      refine ⟨ht, ?_⟩
      rintro ⟨rfl, hfailed⟩
      exact hdone hfailed
    have hall : Triple (fun t : Target ↦ t.sight.1 = pid)
        (records.mapM (redirectReference patch (registry.bases pid)))
        (fun failures t ↦ t.sight.1 = pid ∧ List.length failures = records.length ∧
          ((∃ e ∈ records.zip failures, e.1 = r ∧ e.2 = false) →
            r.IsDone registry token pid t.sight)) fun _ ↦ True :=
      Triple.mapM_reaches (fun r' hr' ↦ (keeps_redirectReference_of_clear hpatch (hkinds r' hr')
        (hclear r' hr')).mono (fun _ h ↦ h) (fun _ _ h ↦ h) fun _ _ ↦ trivial) hreach
    have hsuspended := AttachedProcess.triple_target (Target.triple_suspended_sight
      (P := (·.1 = pid)) (Q := fun failures seen ↦ seen.1 = pid ∧
        List.length failures = records.length ∧ ((∃ e ∈ records.zip failures, e.1 = r ∧ e.2 = false) →
          r.IsDone registry token pid seen)) hall)
    refine hsuspended.mono (fun _ hq ↦ hq ▸ hp) ?_ fun _ h ↦ h
    rintro failures q ⟨hq, hlength, hdone⟩
    exact ⟨hq, hlength, fun hmem ↦ (hdone ⟨_, hmem, rfl, rfl⟩).2⟩

/-- A write that a field is clear of leaves it resolved. -/
theorem keeps_write_of_clear (hpatch : registry.mapping? pid token = some patch) {rva : UInt32}
    {bytes : Bytes} (hclear : Mapping.AreClear (rva, bytes.size) r.span) :
    Keeps (fun t : Target ↦ r.IsDone registry token pid t.sight) (patch.write rva bytes) := by
  refine patch.keeps_write_sight fun address pid' m m' haddress hdone hm' ↦ ?_
  obtain ⟨hpid, hholds⟩ := hdone
  cases hpid
  exact ⟨rfl, hholds.write hpatch haddress hclear hm'⟩

end PatchSteps

namespace PatchRecord

/-- The bytes of a patch that are replaced before its entry point runs, other than references. -/
def entrySpans (p : PatchRecord) : List (UInt32 × Nat) :=
  p.neutered.map (·, 8) ++ (p.cookie.map fun c ↦ (c.patchRva, 8)).toList
    ++ (p.dllMain.map fun rva ↦ (rva, X86.successStub.size)).toList

end PatchRecord

namespace PatchSteps

open ReferenceRedirection

variable {registry : Registry} {pid : UInt32} {r : ReferenceRedirection}

/-- Preparing a patch for its entry point leaves fields resolved that it reaches not into. -/
theorem keeps_prepareEntry_of_clear {patch : PatchRecord}
    (hclear : ∀ s ∈ patch.entrySpans, Mapping.AreClear s r.span) :
    Keeps (fun p : AttachedProcess ↦ r.IsDone registry patch.token pid p.target.sight)
      (prepareEntry registry patch) := by
  have hsize : ∀ w : UInt64, (Bytes.ofU64 w).size = 8 := fun w ↦ by
    simp [Bytes.ofU64, Bytes.length_ofNumber]
  refine Triple.bind_get fun p hp ↦ ?_
  rw [show p.pid = pid from hp.1]
  dsimp only
  cases himage : registry.mapping? pid patch.token with
  | none => exact Triple.pure fun _ h ↦ h ▸ hp
  | some image =>
    have hslots : Keeps (fun t : Target ↦ r.IsDone registry patch.token pid t.sight)
        (patch.neutered.forM fun slot ↦ image.writeWord slot 0) := by
      refine Keeps.forM fun slot hslot ↦ keeps_write_of_clear himage ?_
      rw [hsize]
      exact hclear _ (by simp [PatchRecord.entrySpans, hslot])
    have hentry : ∀ rva, patch.dllMain = some rva →
        Keeps (fun t : Target ↦ r.IsDone registry patch.token pid t.sight)
          (disableFunction image rva) := fun rva hmain ↦
      keeps_write_of_clear himage (hclear _ (by simp [PatchRecord.entrySpans, hmain]))
    have hcookie : ∀ module : Mapping, ∀ cookie, patch.cookie = some cookie →
        Keeps (fun t : Target ↦ r.IsDone registry patch.token pid t.sight)
          (copyCookie image module cookie) := by
      intro module cookie hcookie
      have hread : Quiet Target.sight (module.readWord cookie.moduleRva) :=
        (module.quiet_read _ _).bind fun _ ↦ Quiet.pure _
      refine (hread.keeps _).bind fun value ↦ keeps_write_of_clear himage ?_
      rw [hsize]
      exact hclear _ (by simp [PatchRecord.entrySpans, hcookie])
    refine (AttachedProcess.triple_target (Target.keeps_suspended_sight ?_)).mono (fun _ h ↦ h ▸ hp)
      (fun _ _ h ↦ h) fun _ h ↦ h
    refine hslots.bind fun _ ↦ ?_
    cases hmain : patch.dllMain with
    | none =>
      split
      · next cookie module hsome _ => exact (hcookie module cookie hsome).bind fun _ ↦ Keeps.pure _
      · exact Keeps.pure _
    | some rva =>
      split
      · next cookie module hsome _ =>
        exact (hcookie module cookie hsome).bind fun _ ↦ hentry rva hmain
      · exact hentry rva hmain

end PatchSteps

namespace Activation

open ReferenceRedirection

/-- A record that worked everywhere has a place at which nothing failed. -/
theorem exists_of_mem_workedEverywhere {α : Type} {records : List α} {failures : List (List Bool)}
    {r : α} (h : r ∈ workedEverywhere records failures) :
    ∃ i : Nat, records[i]? = some r ∧ ∀ f : List Bool, f ∈ failures → f[i]?.getD false = false := by
  unfold workedEverywhere at h
  obtain ⟨⟨r', i⟩, hmem, rfl⟩ := List.mem_map.mp h
  obtain ⟨hmem, hworked⟩ := List.mem_filter.mp hmem
  refine ⟨i, List.mem_zipIdx_iff_getElem?.mp hmem, fun f hf ↦ ?_⟩
  exact Bool.eq_false_iff.mpr (List.any_eq_false.mp (by simpa using hworked) f hf)

variable (a : Activation)

/-- Activation up to the entry point. -/
def beforeEntry (objects : List (ObjectTable × List String)) (patch : PatchRecord) :
    EachM Staged BeforeEntry := do
  a.holdAll
  a.prepareAll objects patch

/-- Activation from the entry point on. -/
def fromEntry (objects : List (ObjectTable × List String)) (patch : PatchRecord) :
    EachM Staged PatchRecord := do
  a.callAll patch
  let patch ← a.completeAll objects patch
  a.letGoAll
  pure patch

/-- Activation is what comes before the entry point and what comes from there on. -/
theorem run_eq (objects : List (ObjectTable × List String)) (patch : PatchRecord) :
    a.run objects patch
      = a.beforeEntry objects patch >>= fun before ↦ a.fromEntry objects before.patch := by
  simp only [run_eq_phases, beforeEntry, fromEntry, bind_assoc]

variable {a} {r : ReferenceRedirection} {objects : List (ObjectTable × List String)}

/-- The references of one phase in object files. -/
theorem mem_references_iff {phase : Phase} {records : List ReferenceRedirection}
    (h : a.references phase objects = .ok records) {record : ReferenceRedirection} :
    record ∈ records ↔ ∃ e ∈ objects, ∃ s ∈ e.1.defined, ∃ rva, a.view.Links e.1 s.name rva ∧
      ∃ r ∈ s.relocations, PatchView.phaseOf e.1 e.2 r = phase ∧
        a.view.resolve r s.name rva e.2 = .ok (some record) := by
  obtain ⟨lists, hlists, h⟩ := Outcome.bind_eq_ok_iff.mp h
  cases h
  rw [Outcome.mem_flatten_mapM_iff hlists]
  constructor
  · rintro ⟨e, he, records, hrecords, hmem⟩
    exact ⟨e, he, (PatchView.mem_collect_iff hrecords).mp hmem⟩
  · rintro ⟨e, he, hrefs⟩
    obtain ⟨records, -, hrecords⟩ := Pointwise.exists_right (Outcome.forall₂_of_mapM hlists) he
    exact ⟨e, he, records, hrecords, (PatchView.mem_collect_iff hrecords).mpr hrefs⟩

/-- Only fields that can be computed anew are redirected. -/
theorem isPatchable_of_mem_references {phase : Phase} {records : List ReferenceRedirection}
    (h : a.references phase objects = .ok records) {record : ReferenceRedirection}
    (hmem : record ∈ records) : record.kind.isPatchable = true := by
  obtain ⟨e, -, s, -, rva, -, r, -, -, hresolve⟩ := (mem_references_iff h).mp hmem
  obtain ⟨hredirectable, existing, -, field, -, rfl⟩ := PatchView.redirects_of_resolve hresolve
  unfold Relocation.isRedirectable at hredirectable
  simp only [Bool.and_eq_true] at hredirectable
  exact hredirectable.1.1.1

/-- Redirecting references in all processes: where one did not fail, its field is resolved, if the
others are clear of it. -/
theorem triple_redirectAll {records : List ReferenceRedirection}
    (hkinds : ∀ r' ∈ records, r'.kind.isPatchable = true)
    (hclear : ∀ r' ∈ records, r' = r ∨ Mapping.AreClear r'.span r.span) :
    Triple (fun _ ↦ True)
      (Each.collect fun _ ↦ Staged.onProcess
        (PatchSteps.redirectReferences a.view.registry a.view.token records))
      (fun failures staged ↦ List.Forall₂ (fun f s ↦ (r, false) ∈ records.zip f →
        r.HoldsIn a.view.registry a.view.token (Staged.sight s)) failures staged) fun _ ↦ True := by
  refine (Each.triple_collect_pointwise (P := fun _ ↦ True) fun _ s _ ↦ ?_).mono
    (fun _ _ _ _ ↦ trivial) (fun _ _ h ↦ h) fun _ h ↦ h
  have hrun : Triple (AttachedProcess.Is s.process.pid)
      (PatchSteps.redirectReferences a.view.registry a.view.token records) _ _ :=
    PatchSteps.triple_redirectReferences hkinds hclear
  replace hrun := hrun s.process rfl
  rw [Staged.run_onProcess]
  generalize (PatchSteps.redirectReferences a.view.registry a.view.token records).run s.process
    = result at hrun ⊢
  rcases result with ⟨_ | failures, p⟩
  · trivial
  · exact hrun.2.2

/-- Preparing a patch for its entry point in all processes keeps what is resolved in some, if it is
clear of that. -/
theorem keeps_prepareEach_of_clear {patch : PatchRecord}
    (hclear : ∀ s ∈ patch.entrySpans, Mapping.AreClear s r.span) (registry : Registry)
    {counts : List Bool → Prop} {failures : List (List Bool)} :
    Keeps (List.Forall₂ (fun f s ↦ counts f → r.HoldsIn registry patch.token (Staged.sight s))
      failures) (Each.forEach (Staged.onProcess (PatchSteps.prepareEntry registry patch))) := by
  refine Each.keeps_forEach fun f _ ↦ Keeps.of_run fun s hs hf ↦ ?_
  rw [Staged.run_onProcess]
  exact ((PatchSteps.keeps_prepareEntry_of_clear hclear).run (s := s.process) ⟨rfl, hs hf⟩).2

/-- When the entry point is about to run, the fields of all redirections that did not fail are
resolved, process by process, if nothing else that was edited reaches into them. -/
theorem triple_beforeEntry {patch : PatchRecord} (hpatch : patch.token = a.view.token)
    (r : ReferenceRedirection) :
    Triple (fun _ ↦ True) (a.beforeEntry objects patch)
      (fun before staged ↦ a.references .preEntry objects = .ok before.records ∧
        ((∀ r' ∈ before.records, r' = r ∨ Mapping.AreClear r'.span r.span) →
          (∀ s ∈ before.patch.entrySpans, Mapping.AreClear s r.span) →
          List.Forall₂ (fun f s ↦ (r, false) ∈ before.records.zip f →
            r.HoldsIn a.view.registry a.view.token (Staged.sight s)) before.failures staged))
      fun _ ↦ True := by
  refine Keeps.triv_bind fun _ ↦ Keeps.triv_bind fun preHooks ↦
    Triple.bind_lift (fun records hrecords ↦ ?_) fun _ _ ↦ trivial
  by_cases hclear : ∀ r' ∈ records, r' = r ∨ Mapping.AreClear r'.span r.span
  · refine (triple_redirectAll (fun _ ↦ isPatchable_of_mem_references hrecords) hclear).bind fun failures ↦ ?_
    generalize hedited : a.entryEdits { patch with
      preHooks := preHooks, preEntry := workedEverywhere records failures } = edited
    have htoken : edited.token = a.view.token := by
      rw [← hedited]
      exact hpatch
    by_cases hentry : ∀ s ∈ edited.entrySpans, Mapping.AreClear s r.span
    · refine Triple.bind ((keeps_prepareEach_of_clear hentry a.view.registry).mono
        (fun _ h ↦ htoken.symm ▸ h) (fun _ _ h ↦ htoken ▸ h) fun _ _ ↦ trivial) fun _ ↦
        Triple.pure fun _ h ↦ ⟨hrecords, fun _ _ ↦ h⟩
    · refine Triple.bind ((Keeps.triv _).mono (fun _ _ ↦ trivial) (fun _ _ h ↦ h) fun _ h ↦ h)
        fun _ ↦ Triple.pure fun _ _ ↦ ⟨hrecords, fun _ h ↦ (hentry h).elim⟩
  · exact Keeps.triv_bind fun failures ↦ Keeps.triv_bind fun _ ↦
      Triple.pure fun _ _ ↦ ⟨hrecords, fun h ↦ (hclear h).elim⟩

end Activation
end LivePatch
