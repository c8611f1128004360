import LivePatch.Proofs.Patch.Dangling
import LivePatch.Proofs.Patch.Planning

/-!
# Patches refer back

Whatever a patch is connected to lies in an image that is older than the patch: every look-up that an
activation makes leaves out the patch itself, which is the newest image while it is activated. Only
the hooks that are called at the very end may be the patch's own.
-/

namespace LivePatch

namespace Registry

variable {r : Registry} {exclude : Option Token} {name : String}

/-- The images that are looked through are those of the registry that were not excluded. -/
theorem index_of_mem_newestFirst {e : Token × RegisteredImage} (h : e ∈ r.newestFirst exclude) :
    e.1.index < r.size ∧ some e.1 ≠ exclude := by
  obtain ⟨hget, hother⟩ := mem_newestFirst_iff.mp h
  exact ⟨(List.getElem?_eq_some_iff.mp hget).1, hother⟩

/-- A symbol is found in an image of the registry that was not excluded. -/
theorem index_of_findSymbol? {found : FoundSymbol} (h : r.findSymbol? exclude name = some found) :
    found.token.index < r.size ∧ some found.token ≠ exclude := by
  obtain ⟨e, he, hfound⟩ := List.exists_of_findSome?_eq_some h
  obtain ⟨rva, -, rfl⟩ := Option.map_eq_some_iff.mp hfound
  exact index_of_mem_newestFirst he

/-- Hooks are found in an image of the registry that was not excluded. -/
theorem index_of_findHooks {found : FoundHooks} (h : r.findHooks exclude name = .ok (some found)) :
    found.token.index < r.size ∧ some found.token ≠ exclude := by
  unfold findHooks at h
  split at h
  · cases h
  · next token image s hsection =>
    obtain ⟨last, -, h⟩ := Outcome.bind_eq_ok_iff.mp h
    cases h
    obtain ⟨e, he, hfound⟩ := List.exists_of_findSome?_eq_some hsection
    dsimp only at hfound
    split at hfound
    · split at hfound
      · cases hfound
        exact index_of_mem_newestFirst he
      · cases hfound
    · cases hfound

/-- What is found outside the newest image is older. -/
theorem index_lt_of_newest {token found : Token} (hnewest : token.index + 1 = r.size)
    (h : found.index < r.size ∧ some found ≠ some token) : found.index < token.index := by
  have hne : found.index ≠ token.index := fun heq ↦
    h.2 (congrArg some (by cases found; cases token; exact congrArg Token.mk heq))
  omega

end Registry

/-- Everything that a patch is connected to lies in older images; only the hooks that are called
last may be its own. -/
structure PatchRecord.RefersBack (p : PatchRecord) : Prop where
  references : ∀ r ∈ p.preEntry ++ p.postEntry, r.target.index < p.token.index
  functions : ∀ r ∈ p.functions, r.existing.index < p.token.index
  libraryFunctions : ∀ r ∈ p.libraryFunctions, r.existing.index < p.token.index
  preHooks : ∀ r ∈ p.preHooks, r.image.index < p.token.index
  postHooks : ∀ r ∈ p.postHooks, r.image.index ≤ p.token.index

/-- Hooks that were called are those of an image of the registry that was not excluded. -/
theorem Hooks.index_of_call (files : FileTree) (registry : Registry) (kind : HookKind)
    (exclude : Option Token) :
    Triple (fun _ ↦ True) (Hooks.call files registry kind exclude)
      (fun hooks _ ↦ ∀ r ∈ hooks, r.image.index < registry.size ∧ some r.image ≠ exclude)
      fun _ ↦ True := by
  refine Triple.bind_lift (fun found hfound ↦ ?_) fun _ _ ↦ trivial
  cases found with
  | none => exact Triple.pure fun _ _ r hr ↦ by cases hr
  | some found =>
    refine Keeps.triv_bind fun _ ↦ Triple.pure fun _ _ r hr ↦ ?_
    cases hr
    exact Registry.index_of_findHooks hfound

/-- What work on the processes alone answers. -/
theorem Staged.triple_onFleet {α : Type} {act : FleetM α} {P : α → Prop}
    (h : Triple (fun _ ↦ True) act (fun a _ ↦ P a) fun _ ↦ True) :
    Triple (fun _ ↦ True) (Staged.onFleet act) (fun a _ ↦ P a) fun _ ↦ True := by
  intro staged _
  have := h (staged.map Staged.process) trivial
  simp only [Staged.onFleet, ExceptT.run, ExceptT.mk] at this ⊢
  rcases hr : act (staged.map Staged.process) with ⟨_ | a, fleet⟩
  · trivial
  · rw [hr] at this
    exact this

namespace Activation

variable {a : Activation} {objects : List (ObjectTable × List String)}

/-- References lead to older images than the patch. -/
theorem index_of_mem_references (hnewest : a.view.token.index + 1 = a.view.registry.size)
    {phase : Phase} {records : List ReferenceRedirection}
    (h : a.references phase objects = .ok records) {r : ReferenceRedirection} (hr : r ∈ records) :
    r.target.index < a.view.token.index := by
  obtain ⟨e, -, s, -, rva, -, raw, -, -, hresolve⟩ := (mem_references_iff h).mp hr
  obtain ⟨-, existing, hexisting, field, -, rfl⟩ := PatchView.redirects_of_resolve hresolve
  exact Registry.index_lt_of_newest hnewest (Registry.index_of_findSymbol? hexisting)

/-- Only redirections that were made are kept. -/
theorem triple_redirectEverywhere (records : List ReferenceRedirection) :
    Triple (fun _ ↦ True) (a.redirectEverywhere records) (fun kept _ ↦ ∀ r ∈ kept, r ∈ records)
      fun _ ↦ True := by
  refine Keeps.triv_bind fun failures ↦ Triple.pure fun _ _ r hr ↦ ?_
  unfold workedEverywhere at hr
  obtain ⟨e, he, rfl⟩ := List.mem_map.mp hr
  exact List.fst_mem_of_mem_zipIdx (List.mem_filter.mp he).1

/-- A patch that was activated as the newest image refers back. -/
theorem refersBack_run (hnewest : a.view.token.index + 1 = a.view.registry.size)
    {patch : PatchRecord} (hpatch : patch.token = a.view.token) :
    Triple (fun _ ↦ True) (a.run objects patch)
      (fun p _ ↦ p.token = patch.token ∧ p.RefersBack) fun _ ↦ True := by
  have hhooks : ∀ kind exclude, Triple (fun _ ↦ True)
      (Staged.onFleet (Hooks.call a.files a.view.registry kind exclude))
      (fun hooks _ ↦ ∀ r ∈ hooks, r.image.index < a.view.registry.size ∧ some r.image ≠ exclude)
      fun _ ↦ True :=
    fun kind exclude ↦ Staged.triple_onFleet (Hooks.index_of_call _ _ kind exclude)
  unfold run
  refine Keeps.triv_bind fun _ ↦ (hhooks .prePatch (some a.view.token)).bind fun preHooks ↦
    Triple.of_fact fun hpreHooks ↦ ?_
  refine Triple.bind_lift (fun records hrecords ↦ ?_) fun _ _ ↦ trivial
  refine (triple_redirectEverywhere records).bind fun preEntry ↦ Triple.of_fact fun hpreEntry ↦ ?_
  dsimp only
  refine Keeps.triv_bind fun _ ↦ Keeps.triv_bind fun _ ↦ ?_
  refine Triple.bind_lift (fun records' hrecords' ↦ ?_) fun _ _ ↦ trivial
  refine (triple_redirectEverywhere records').bind fun postEntry ↦
    Triple.of_fact fun hpostEntry ↦ ?_
  refine Triple.bind (triple_redirectFunctions_connects hnewest (by exact hpatch) _) fun p ↦
    Triple.of_fact fun hp ↦ ?_
  refine (hhooks .postPatch none).bind fun postHooks ↦ Triple.of_fact fun hpostHooks ↦ ?_
  refine Keeps.triv_bind fun _ ↦ Triple.pure fun _ _ ↦ ?_
  obtain ⟨⟨functions, libraries, rfl⟩, hconnects⟩ := hp
  refine ⟨rfl, ?_⟩
  have hreferences : ∀ r ∈ preEntry ++ postEntry, r.target.index < a.view.token.index := by
    intro r hr
    rcases List.mem_append.mp hr with hr | hr
    · exact index_of_mem_references hnewest hrecords (hpreEntry r hr)
    · exact index_of_mem_references hnewest hrecords' (hpostEntry r hr)
  have holder : ∀ r ∈ preHooks, r.image.index < a.view.token.index :=
    fun r hr ↦ Registry.index_lt_of_newest hnewest (hpreHooks r hr)
  have hnotnewer : ∀ r ∈ postHooks, r.image.index ≤ a.view.token.index := by
    intro r hr
    have := (hpostHooks r hr).1
    omega
  rw [← hpatch] at hreferences holder hnotnewer
  exact ⟨hreferences, fun r hr ↦ (hconnects.functions r hr).2.before,
    fun r hr ↦ (hconnects.libraryFunctions r hr).2.before, holder, hnotnewer⟩

end Activation
end LivePatch
