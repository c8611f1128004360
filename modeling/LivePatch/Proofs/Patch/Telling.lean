import LivePatch.Proofs.Patch.Dangling
import LivePatch.Proofs.Patch.Planning
import LivePatch.Proofs.Patch.Taking

/-!
# What an activation comes to

An activation records the references that were redirected in every process. Which it tried, and in
which process each failed, is told next to the record, and so is what the processes were prepared
with and which functions were redirected there. In every process the patch took effect with
what was tried there, so a process may have received more than is recorded: a redirection that failed
in another process is left out.
-/

namespace LivePatch

namespace Each

variable {σ α : Type} {states states' : List σ}

/-- Work that came to an end on all states did so on each. -/
theorem run_collect_at {act : Nat → ExceptT Stop (StateM σ) α} {as : List α}
    (h : (collect act).run states = (.ok as, states')) {i : Nat} {s : σ} (hs : states[i]? = some s) :
    ∃ a s', as[i]? = some a ∧ states'[i]? = some s' ∧ (act i).run s = (.ok a, s') := by
  have hall : ∀ (n : Nat), runAll act n states = (.ok as, states') →
      ∃ a s', as[i]? = some a ∧ states'[i]? = some s' ∧ (act (n + i)).run s = (.ok a, s') := by
    clear h
    induction states generalizing i as states' with
    | nil => cases hs
    | cons first rest ih =>
      intro n h
      unfold runAll at h
      rcases hfirst : (act n).run first with ⟨_ | a, t⟩
      · rw [hfirst] at h
        cases h
      · rw [hfirst] at h
        dsimp only at h
        rcases hrest : runAll act (n + 1) rest with ⟨_ | as', ts⟩
        · rw [hrest] at h
          cases h
        · rw [hrest] at h
          cases h
          cases i with
          | zero =>
            cases hs
            exact ⟨a, t, rfl, rfl, hfirst⟩
          | succ i =>
            obtain ⟨a', s', ha, hs', hrun⟩ := ih hs (n + 1) hrest
            exact ⟨a', s', ha, hs', (Nat.add_right_comm n 1 i ▸ hrun :)⟩
  have := hall 0 h
  rwa [Nat.zero_add] at this

/-- Work without a result that came to an end on all states did so on each. -/
theorem run_forEach_at {act : ExceptT Stop (StateM σ) Unit}
    (h : (forEach act).run states = (.ok ⟨⟩, states')) {i : Nat} {s : σ} (hs : states[i]? = some s) :
    ∃ s', states'[i]? = some s' ∧ act.run s = (.ok ⟨⟩, s') := by
  obtain ⟨as, _, hcollect, hpure⟩ := run_bind_eq_ok_iff.mp h
  cases hpure
  obtain ⟨_, s', -, hs', hrun⟩ := run_collect_at hcollect hs
  exact ⟨s', hs', hrun⟩

end Each

/-- What is made of the answer of work in suspended processes may be made of it behind that. -/
theorem Staged.allSuspended_bind_pure {α β : Type} (act : EachM Staged α) (f : α → β) :
    allSuspended (act >>= fun a ↦ pure (f a)) = allSuspended act >>= fun a ↦ pure (f a) := by
  have hensuring : ∀ release, ensuring (act >>= fun a ↦ pure (f a)) release
      = ensuring act release >>= fun a ↦ pure (f a) := by
    refine fun release ↦ funext fun staged ↦ ?_
    change (ensuring _ _).run staged = (_ >>= _ : EachM Staged β).run staged
    rw [run_ensuring, run_bind, run_bind, run_ensuring]
    rcases act.run staged with ⟨_ | a, t⟩ <;> rfl
  unfold allSuspended
  rw [bind_assoc]
  exact congrArg _ (funext fun _ ↦ hensuring _)

namespace Activation

variable (a : Activation)

/-- What an activation came to: what it answers, and what was done in the processes. -/
structure Told where
  /-- The patch with its edits. -/
  patch : PatchRecord
  /-- The references that were tried before the entry point ran. -/
  pre : List ReferenceRedirection
  /-- Which of them failed, process by process. -/
  preFailures : List (List Bool)
  /-- The references that were tried after it ran. -/
  post : List ReferenceRedirection
  postFailures : List (List Bool)
  /-- What every process was prepared with for the entry point. -/
  prepared : List PatchEdit
  /-- The redirections that were made in every process. -/
  made : List Redirection

namespace Told

variable (told : Told) (i : Nat)

/-- The references that were tried in a process before the entry point ran. -/
def preTried : List (ReferenceRedirection × Bool) := told.pre.zip (told.preFailures[i]?.getD [])

/-- The references that were tried in a process after the entry point ran. -/
def postTried : List (ReferenceRedirection × Bool) := told.post.zip (told.postFailures[i]?.getD [])

/-- The references that were tried in a process, each with whether that failed. -/
def tried : List (ReferenceRedirection × Bool) := told.preTried i ++ told.postTried i

/-- A process received an edit: it was prepared with it, a function was redirected there, or a
reference was tried there and did not fail. -/
def IsReceived (edit : PatchEdit) : Prop :=
  edit ∈ told.prepared ∨ (∃ r ∈ told.made, .redirection r = edit) ∨
    ∃ x ∈ told.tried i, .reference x.1 = edit ∧ x.2 = false

/-- In no process a reference could not be redirected. -/
def WorkedEverywhere (edit : PatchEdit) : Prop :=
  ∀ i, ∀ x ∈ told.tried i, .reference x.1 = edit → x.2 = false

/-- All edits that were tried. -/
def edits : List PatchEdit := (told.patch.trying told.pre told.post).edits

end Told

/-- Redirects functions in all processes, and tells which redirections were made there. -/
def redirectTold (tables : List ObjectTable) (patch : PatchRecord) :
    EachM Staged (PatchRecord × List Redirection) :=
  Staged.allSuspended do
    let ips ← Each.collect fun _ ↦ Staged.onTarget Target.threadIps
    let (functions, libraries) ← a.planFunctions tables ips
    let patch := { patch with functions := functions, libraryFunctions := libraries }
    let _ ← Each.collect fun i ↦
      PatchSteps.redirectFunctions a.view.registry patch (ips[i]?.getD []) false
    pure (patch, functions.map .inl ++ libraries.map .inr)

/-- Redirecting functions is redirecting them and telling which, but for the telling. -/
theorem redirectFunctions_eq_told (tables : List ObjectTable) (patch : PatchRecord) :
    a.redirectFunctions tables patch = a.redirectTold tables patch >>= fun r ↦ pure r.1 := by
  unfold redirectFunctions redirectTold
  rw [← Staged.allSuspended_bind_pure]
  simp only [bind_assoc, pure_bind]

/-- Activates a patch in all processes, as it is activated, and tells what that came to. -/
def told (objects : List (ObjectTable × List String)) (patch : PatchRecord) : EachM Staged Told := do
  let before ← a.beforeEntry objects patch
  Each.forEach (Staged.onProcess
    (PatchSteps.callEntryPoint a.files a.view.registry before.patch))
  let records ← a.references .postEntry objects
  let failures ← Each.collect fun _ ↦
    Staged.onProcess (PatchSteps.redirectReferences a.view.registry a.view.token records)
  let (patch, made) ← a.redirectTold (objects.map Prod.fst)
    { before.patch with postEntry := workedEverywhere records failures }
  let postHooks ← Staged.onFleet (Hooks.call a.files a.view.registry .postPatch none)
  Each.forEach (Staged.letGo a.files)
  pure ⟨{ patch with postHooks := postHooks }, before.records, before.failures, records, failures,
    before.patch.preparations, made⟩

/-- Activating a patch is activating it and telling what that came to, but for the telling. -/
theorem run_eq_told (objects : List (ObjectTable × List String)) (patch : PatchRecord) :
    a.run objects patch = a.told objects patch >>= fun told ↦ pure told.patch := by
  simp only [run, told, beforeEntry, holdAll, prepareAll, redirectEverywhere,
    redirectFunctions_eq_told, bind_assoc, pure_bind]

private theorem le_of_tolerated_covered {code : Outcome Bytes} {start : UInt64} {covered : Nat}
    (h : tolerated (do X86.covered (← code) start X86.jumpSize) = .ok (some covered)) :
    X86.jumpSize ≤ covered := by
  generalize hfound : (do X86.covered (← code) start X86.jumpSize : Outcome Nat) = found at h
  rcases found with (_ | _) | total
  · cases h
  · cases h
  · cases h
    obtain ⟨bytes, -, hcovered⟩ := Outcome.bind_eq_ok_iff.mp hfound
    exact X86.le_of_covered hcovered

/-- A redirection of a library function has room for its jump. -/
theorem isRoomy_planLibraryFunction {name : String} {r : LibraryRedirection}
    (h : a.planLibraryFunction name = .ok (some r)) : X86.jumpSize ≤ r.covered := by
  unfold planLibraryFunction at h
  split at h
  · cases h
  · obtain ⟨contribution, -, h⟩ := Outcome.bind_eq_ok_iff.mp h
    split at h
    · cases h
    · obtain ⟨rest, -, h⟩ := Outcome.bind_eq_ok_iff.mp h
      dsimp only at h
      split at h
      · cases h
      · split at h
        · obtain ⟨start, -, h⟩ := Outcome.bind_eq_ok_iff.mp h
          obtain ⟨covered, hcovered, h⟩ := Outcome.bind_eq_ok_iff.mp h
          split at h
          · next covered =>
            split at h
            · cases h
              exact le_of_tolerated_covered hcovered
            · cases h
          · cases h
        · cases h

/-- What redirecting functions adds to a patch: the redirections that were made, which have room for
their jumps. -/
theorem triple_redirectTold (objects : List ObjectTable) (patch : PatchRecord) :
    Triple (fun _ ↦ True) (a.redirectTold objects patch)
      (fun p _ ↦ (∃ functions libraries,
        p.1 = { patch with functions := functions, libraryFunctions := libraries }) ∧
        p.1.redirections = p.2 ∧ ∀ e ∈ p.2, e.IsRoomy) fun _ ↦ True := by
  have hplan : ∀ ips, Triple (fun _ ↦ True) (a.planFunctions objects ips)
      (fun plan _ ↦ ∀ r ∈ plan.2, X86.jumpSize ≤ r.covered) fun _ ↦ True := by
    refine fun ips ↦ Keeps.triv_bind fun functions ↦ Triple.bind_lift (fun libraries hlibraries ↦
      Triple.pure fun _ _ r hr ↦ ?_) fun _ _ ↦ trivial
    obtain ⟨plan, hmem, hplan⟩ := List.mem_filterMap.mp hr
    obtain ⟨name, -, hplanned⟩ := (Outcome.mem_mapM_iff hlibraries).mp hmem
    rw [show plan = some r from hplan] at hplanned
    exact a.isRoomy_planLibraryFunction hplanned
  refine Keeps.triv_bind fun _ ↦ Triple.ensuring (E := fun _ ↦ True)
    (Keeps.triv_bind fun ips ↦ Triple.bind ((a.isRoomy_planFunctions objects ips).and (hplan ips)
      |>.mono (fun _ h ↦ ⟨h, h⟩) (fun _ _ h ↦ h) fun _ _ ↦ trivial) fun plan ↦ ?_)
    (fun _ _ h ↦ h) fun _ _ ↦ trivial
  refine Triple.of_fact fun hroomy ↦ Keeps.triv_bind fun _ ↦ Triple.pure fun _ _ ↦
    ⟨⟨plan.1, plan.2, rfl⟩, rfl, fun e he ↦ ?_⟩
  rcases List.mem_append.mp he with he | he
  · obtain ⟨r, hr, rfl⟩ := List.mem_map.mp he
    exact hroomy.1 r hr
  · obtain ⟨r, hr, rfl⟩ := List.mem_map.mp he
    exact hroomy.2 r hr

/-- What is told of an activation is true: what the patch records of what was tried, and that it took
effect in every process with that. -/
structure Told.IsTrue (a : Activation) (objects : List (ObjectTable × List String))
    (staged : List Staged) (told : Told) (staged' : List Staged) : Prop where
  token : told.patch.token = a.view.token
  pre : a.references .preEntry objects = .ok told.pre
  post : a.references .postEntry objects = .ok told.post
  preEntry : told.patch.preEntry = workedEverywhere told.pre told.preFailures
  postEntry : told.patch.postEntry = workedEverywhere told.post told.postFailures
  prepared : told.patch.preparations = told.prepared
  made : told.patch.redirections = told.made
  roomy : ∀ e ∈ told.patch.redirections, e.IsRoomy
  takes : ∀ (i : Nat) (s : Staged), staged[i]? = some s →
    ∃ (s' : Staged) (q : AttachedProcess), staged'[i]? = some s' ∧
    q.target = s.process.target ∧ (told.preTried i).map Prod.fst = told.pre ∧
    (told.postTried i).map Prod.fst = told.post ∧
    q.Takes a.files a.view.registry told.patch (told.preTried i) (told.postTried i) s'.sight

/-- What is told of an activation that works is true. -/
theorem isTrue_told {objects : List (ObjectTable × List String)} {patch : PatchRecord}
    (hpatch : patch.token = a.view.token) {told : Told} {staged staged' : List Staged}
    (hrun : (a.told objects patch).run staged = (.ok told, staged')) :
    told.IsTrue a objects staged staged' := by
  unfold Activation.told beforeEntry holdAll prepareAll at hrun
  obtain ⟨before, s₅, hbefore, hrun⟩ := run_bind_eq_ok_iff.mp hrun
  obtain ⟨_, s₁, hhold, hbefore⟩ := run_bind_eq_ok_iff.mp hbefore
  obtain ⟨preHooks, s₂, hhooks, hbefore⟩ := run_bind_eq_ok_iff.mp hbefore
  obtain ⟨records, hrecords, hbefore⟩ := run_bind_lift_eq_ok_iff.mp hbefore
  obtain ⟨failures, s₃, hpre, hbefore⟩ := run_bind_eq_ok_iff.mp hbefore
  obtain ⟨_, s₄, hprepared, hbefore⟩ := run_bind_eq_ok_iff.mp hbefore
  cases hbefore
  obtain ⟨_, s₅, hcalled, hrun⟩ := run_bind_eq_ok_iff.mp hrun
  obtain ⟨records', hrecords', hrun⟩ := run_bind_lift_eq_ok_iff.mp hrun
  obtain ⟨failures', s₆, hpost, hrun⟩ := run_bind_eq_ok_iff.mp hrun
  obtain ⟨⟨patch', made⟩, s₇, htold, hrun⟩ := run_bind_eq_ok_iff.mp hrun
  obtain ⟨postHooks, s₈, hhooks', hrun⟩ := run_bind_eq_ok_iff.mp hrun
  obtain ⟨_, s₉, hletGo, hrun⟩ := run_bind_eq_ok_iff.mp hrun
  cases hrun
  have hfunctions := (run_bind_eq_ok_iff (f := fun r ↦ pure r.1)).mpr ⟨_, s₇, htold, rfl⟩
  rw [← a.redirectFunctions_eq_told] at hfunctions
  obtain ⟨⟨functions, libraries, rfl⟩, hmade, hroomy⟩ :=
    (a.triple_redirectTold _ _).ok trivial htold
  refine ⟨hpatch, hrecords, hrecords', rfl, rfl, rfl, hmade, hmade ▸ hroomy, fun i s hs ↦ ?_⟩
  -- the steps of a single process
  obtain ⟨t₁, ht₁, hrun₁⟩ := Each.run_forEach_at hhold hs
  have hkept₁ : t₁.process.target = s.process.target :=
    (Staged.keeps_hold_target (I := (· = s.process.target))).run_eq rfl hrun₁
  obtain ⟨t₂, ht₂, hkept₂⟩ := Pointwise.exists_at ((Staged.keeps_callHooks_target
    (I := fun (o : Staged) t ↦ t = o.process.target) _ _ _).run_eq
    (List.forall₂_same.mpr fun _ _ ↦ rfl) hhooks) ht₁
  obtain ⟨found, t₃, hfound, ht₃, hrun₃⟩ := Each.run_collect_at hpre ht₂
  obtain ⟨t₄, ht₄, hrun₄⟩ := Each.run_forEach_at hprepared ht₃
  obtain ⟨t₅, ht₅, hrun₅⟩ := Each.run_forEach_at hcalled ht₄
  obtain ⟨found', t₆, hfound', ht₆, hrun₆⟩ := Each.run_collect_at hpost ht₅
  obtain ⟨-, hwritten⟩ := (triple_redirectFunctions a _ _ _).ok
    (List.forall₂_same.mpr fun _ _ ↦ rfl) hfunctions
  obtain ⟨t₇, ht₇, log, m, hlog, hm, hseen⟩ := Pointwise.exists_at hwritten ht₆
  obtain ⟨t₈, ht₈, hkept₈⟩ := Pointwise.exists_at ((Staged.keeps_callHooks_target
    (I := fun (o : Staged) t ↦ t = o.process.target) _ _ _).run_eq
    (List.forall₂_same.mpr fun _ _ ↦ rfl) hhooks') ht₇
  obtain ⟨t₉, ht₉, hrun₉⟩ := Each.run_forEach_at hletGo ht₈
  have hkept₉ : t₉.process.target = t₈.process.target :=
    (Staged.keeps_letGo_target (I := (· = t₈.process.target))).run_eq rfl hrun₉
  have hpreRun := Staged.run_of_onProcess hrun₃
  have hpostRun := Staged.run_of_onProcess hrun₆
  obtain ⟨hpreFst, hpreSnd⟩ := PatchSteps.map_zip_of_redirectReferences hpreRun
  obtain ⟨hpostFst, hpostSnd⟩ := PatchSteps.map_zip_of_redirectReferences hpostRun
  unfold Told.preTried Told.postTried
  dsimp only
  rw [hfound, hfound']
  refine ⟨t₉, t₂.process, ht₉, hkept₂.trans hkept₁, hpreFst, hpostFst, ?_⟩
  have hseen : t₉.sight = (t₆.process.pid, m) := by
    rw [← hseen]
    exact congrArg Target.sight (hkept₉.trans hkept₈)
  rw [hseen]
  refine .intro ?_ (Staged.run_of_onProcess hrun₄) (Staged.run_of_onProcess hrun₅) ?_ hlog hm
  · rw [Option.getD_some, hpreFst, hpreSnd]
    exact hpatch ▸ hpreRun
  · rw [Option.getD_some, hpostFst, hpostSnd]
    exact hpatch ▸ hpostRun

/-- What failed nowhere is kept. -/
theorem mem_workedEverywhere {α : Type} {records : List α} {failures : List (List Bool)} {r : α}
    (hr : r ∈ records) (h : ∀ f ∈ failures, ∀ x ∈ records.zip f, x.1 = r → x.2 = false) :
    r ∈ workedEverywhere records failures := by
  obtain ⟨i, hi⟩ := List.mem_iff_getElem?.mp hr
  refine List.mem_map.mpr ⟨(r, i), List.mem_filter.mpr ⟨List.mem_zipIdx_iff_getElem?.mpr hi, ?_⟩, rfl⟩
  have hworked : ∀ f ∈ failures, f[i]?.getD false = false := by
    intro f hf
    cases hfound : f[i]? with
    | none => rfl
    | some failed =>
      refine h f hf (r, failed) (List.mem_iff_getElem?.mpr ⟨i, ?_⟩) rfl
      exact List.getElem?_zip_eq_some.mpr ⟨hi, hfound⟩
  simpa using hworked

namespace Told.IsTrue

variable {a} {objects : List (ObjectTable × List String)} {staged staged' : List Staged} {told : Told}
  {i : Nat} {edit : PatchEdit}

section

variable (h : told.IsTrue a objects staged staged')

include h

/-- A reference that worked everywhere is recorded. -/
private theorem mem_recorded {r : ReferenceRedirection}
    (hr : ∃ x ∈ told.tried i, x.1 = r) (hworked : told.WorkedEverywhere (.reference r)) :
    r ∈ told.patch.preEntry ++ told.patch.postEntry := by
  have hfailures : ∀ {records : List ReferenceRedirection} {failures : List (List Bool)},
      (∀ j : Nat, ∀ x ∈ records.zip (failures[j]?.getD []), .reference x.1 = PatchEdit.reference r →
        x.2 = false) → ∀ f ∈ failures, ∀ x ∈ records.zip f, x.1 = r → x.2 = false := by
    intro records failures hall f hf x hx heq
    obtain ⟨j, hj⟩ := List.mem_iff_getElem?.mp hf
    exact hall j x (by rwa [hj]) (congrArg _ heq)
  obtain ⟨⟨r', failed⟩, hx, rfl⟩ := hr
  rw [h.preEntry, h.postEntry]
  rcases List.mem_append.mp hx with hx | hx
  · refine List.mem_append_left _ (mem_workedEverywhere (List.of_mem_zip hx).1 (hfailures ?_))
    exact fun j x hx ↦ hworked j x (List.mem_append_left _ hx)
  · refine List.mem_append_right _ (mem_workedEverywhere (List.of_mem_zip hx).1 (hfailures ?_))
    exact fun j x hx ↦ hworked j x (List.mem_append_right _ hx)

/-- What a process received, by what is recorded of what was done there. -/
theorem isReceived_iff :
    told.IsReceived i edit ↔ told.patch.IsReceived (told.tried i) edit := by
  unfold Told.IsReceived PatchRecord.IsReceived
  rw [h.prepared, h.made]

/-- The log is complete: what a process received is recorded, unless it failed in some process. -/
theorem mem_edits (hreceived : told.IsReceived i edit) (hworked : told.WorkedEverywhere edit) :
    edit ∈ told.patch.edits := by
  refine PatchRecord.mem_edits_iff.mpr ?_
  rcases h.isReceived_iff.mp hreceived with hedit | hedit | ⟨x, hx, rfl, -⟩
  · exact .inr (.inl hedit)
  · exact .inr (.inr (.inr hedit))
  · exact .inl ⟨x.1, h.mem_recorded ⟨x, hx, rfl⟩ hworked, rfl⟩

/-- Only fields that can be computed anew are tried. -/
theorem isPatchable_of_mem_tried : ∀ x ∈ told.tried i, x.1.kind.isPatchable = true := by
  intro x hx
  rcases List.mem_append.mp hx with hx | hx
  · exact a.isPatchable_of_mem_references h.pre (List.of_mem_zip hx).1
  · exact a.isPatchable_of_mem_references h.post (List.of_mem_zip hx).1

/-- Only fields that can be computed anew are recorded. -/
theorem isPatchable_of_mem_recorded :
    ∀ r ∈ told.patch.preEntry ++ told.patch.postEntry, r.kind.isPatchable = true := by
  intro r hr
  rw [h.preEntry, h.postEntry] at hr
  rcases List.mem_append.mp hr with hr | hr
  · obtain ⟨j, hj, -⟩ := exists_of_mem_workedEverywhere hr
    exact a.isPatchable_of_mem_references h.pre (List.mem_of_getElem? hj)
  · obtain ⟨j, hj, -⟩ := exists_of_mem_workedEverywhere hr
    exact a.isPatchable_of_mem_references h.post (List.mem_of_getElem? hj)

theorem isSound (hreceived : told.IsReceived i edit) : edit.IsSound := by
  rcases h.isReceived_iff.mp hreceived with hedit | ⟨r, hr, rfl⟩ | ⟨x, hx, rfl, -⟩
  · exact PatchRecord.isSound_of_mem_preparations hedit
  · exact h.roomy r hr
  · exact h.isPatchable_of_mem_tried x hx

/-- Whatever a process received is in place in it behind the activation if it is alone. -/
theorem stands {s s' : Staged} (hs : staged[i]? = some s) (hs' : staged'[i]? = some s')
    (hgate : s.process.target.gate.IsTolerant)
    (hpage : s.process.target.memory.isMapped s.process.target.nextAllocation = false)
    {e : PlacedEdit} (hregistry : e.registry = a.view.registry) (hpid : s.process.pid = e.pid)
    (himage : e.registry.mapping? e.pid told.patch.token = some e.image)
    (halone : e.IsAlone told.edits) (hreceived : told.IsReceived i e.edit) :
    e.Stands s'.process.target.memory := by
  obtain ⟨t, q, ht, htarget, hpre, hpost, htakes⟩ := h.takes i s hs
  cases hs'.symm.trans ht
  rw [← htarget] at hgate hpage
  rw [← hregistry] at htakes
  refine htakes.stands hgate hpage ((congrArg Target.pid htarget).trans hpid) himage
    (h.isSound hreceived) h.isPatchable_of_mem_tried ?_ (h.isReceived_iff.mp hreceived)
  rwa [hpre, hpost]

end

end Told.IsTrue

end Activation

/-! ### What disturbs an edit -/

namespace Memory

variable {m m' m'' : Memory} {spots : List Spot}

theorem KeepsSpots.trans (h : KeepsSpots spots m m') (h' : KeepsSpots spots m' m'') :
    KeepsSpots spots m m'' :=
  fun s hs address len hstart hstop hlen bytes hread ↦
    h' s hs address len hstart hstop hlen bytes (h s hs address len hstart hstop hlen bytes hread)

end Memory

/-- Whether a thread runs inside of a function only depends on where the older image is mapped. -/
theorem FunctionRedirection.isEntered_congr {registry registry' : Registry} {pid : UInt32}
    {ips : List UInt64} {r : FunctionRedirection}
    (h : registry'.mapping? pid r.existing = registry.mapping? pid r.existing) :
    r.IsEntered registry' pid ips ↔ r.IsEntered registry pid ips := by
  unfold IsEntered
  rw [h]

namespace PatchRecord

variable {registry registry' : Registry} {pid : UInt32} {p : PatchRecord} {spots : List Spot}

/-- In a process, no redirection of a patch writes to certain spots. -/
def StaysOff (p : PatchRecord) (registry : Registry) (pid : UInt32) (spots : List Spot) : Prop :=
  ∀ image, registry.mapping? pid p.token = some image → ∀ r ∈ p.redirections,
    ∀ s ∈ spots, ∀ t ∈ (PatchEdit.redirection r).spotsIn registry pid image, s.Apart t

instance (p : PatchRecord) (registry : Registry) (pid : UInt32) (spots : List Spot) :
    Decidable (p.StaysOff registry pid spots) :=
  inferInstanceAs (Decidable (∀ image, registry.mapping? pid p.token = some image →
    ∀ r ∈ p.redirections, ∀ s ∈ spots,
      ∀ t ∈ (PatchEdit.redirection r).spotsIn registry pid image, s.Apart t))

/-- Where a patch writes only depends on where the images up to its own are mapped. -/
theorem StaysOff.congr (h : p.StaysOff registry' pid spots) (hback : p.RefersBack)
    (hsame : ∀ t : Token, t.index ≤ p.token.index →
      registry'.mapping? pid t = registry.mapping? pid t) : p.StaysOff registry pid spots := by
  intro image himage r hr s hs t ht
  refine h image ((hsame _ (Nat.le_refl _)).trans himage) r hr s hs t ?_
  rwa [PatchEdit.spotsIn_congr fun token htoken ↦ hsame token ?_]
  rw [List.mem_singleton.mp htoken]
  exact Nat.le_of_lt (hback.redirections r hr)

/-- What is left of a patch writes to fewer places. -/
theorem StaysOff.sparing (h : p.StaysOff registry pid spots) (r : Registry) (pid' : UInt32)
    (ips : List UInt64) : (p.sparing r pid' ips).StaysOff registry pid spots := by
  intro image himage e he
  refine h image himage e ?_
  rcases List.mem_append.mp he with he | he
  · obtain ⟨f, hf, rfl⟩ := List.mem_map.mp he
    exact List.mem_append_left _ (List.mem_map_of_mem (mem_sparing_iff.mp hf).1)
  · exact List.mem_append_right _ he

/-- A process that receives a patch keeps what is at spots that the patch stays off. -/
theorem StaysOff.keepsSpots {o : Target} {seen : UInt32 × Memory}
    (h : p.StaysOff registry o.pid spots) (hreceives : o.Receives registry p seen) :
    Memory.KeepsSpots spots o.memory seen.2 := by
  obtain ⟨m, log, m', hstays, hlog, hm', rfl⟩ := hreceives
  refine hstays.keepsSpots.trans (Memory.keepsSpots_of_writeAll hm' fun s hs write hwrite ↦ ?_)
  cases himage : registry.mapping? o.pid p.token with
  | none =>
    unfold writesIn at hlog
    rw [himage] at hlog
    cases hlog
    cases hwrite
  | some image =>
    obtain ⟨logs, hlogs, rfl⟩ := exists_logs himage hlog
    obtain ⟨l, hl, hwrite⟩ := List.mem_flatten.mp hwrite
    obtain ⟨e, he, hel⟩ := Pointwise.exists_left hlogs hl
    refine h image himage e he s hs _ ?_
    rw [PatchEdit.spotsIn_redirection hel]
    exact List.mem_map_of_mem hwrite

/-- The images that the edits of a patch look for are older. -/
theorem RefersBack.tokens_lt (h : p.RefersBack) (hpos : 0 < p.token.index) {e : PatchEdit}
    (he : e ∈ p.edits) : ∀ t ∈ e.tokens, t.index < p.token.index := by
  rcases mem_edits_iff.mp he with ⟨r, hr, rfl⟩ | hedit | ⟨saved, -, rfl⟩ | ⟨r, hr, rfl⟩
  · exact List.forall_mem_singleton.mpr (h.references r hr)
  · simp only [preparations, List.mem_append, List.mem_map, Option.mem_toList,
      Option.map_eq_some_iff] at hedit
    rcases hedit with (⟨slot, -, rfl⟩ | ⟨c, -, rfl⟩) | ⟨rva, -, rfl⟩
    · exact fun t ht ↦ (List.not_mem_nil ht).elim
    · exact List.forall_mem_singleton.mpr hpos
    · exact fun t ht ↦ (List.not_mem_nil ht).elim
  · exact fun t ht ↦ (List.not_mem_nil ht).elim
  · exact List.forall_mem_singleton.mpr (h.redirections r hr)

/-- An edit is left in a patch where no thread runs inside of the function that it redirects. -/
theorem mem_edits_sparing {ips : List UInt64} {edit : PatchEdit} (h : edit ∈ p.edits)
    (hstill : ∀ r ∈ p.functions, .redirection (.inl r) = edit → ¬r.IsEntered registry pid ips) :
    edit ∈ (p.sparing registry pid ips).edits := by
  rw [mem_edits_iff] at h ⊢
  refine h.imp_right (Or.imp_right (Or.imp_right ?_))
  rintro ⟨r, hr, rfl⟩
  refine ⟨r, ?_, rfl⟩
  unfold redirections at hr ⊢
  rcases List.mem_append.mp hr with hr | hr
  · obtain ⟨f, hf, rfl⟩ := List.mem_map.mp hr
    refine List.mem_append_left _ (List.mem_map_of_mem (mem_sparing_iff.mpr ⟨hf, ?_⟩))
    rw [Bool.eq_false_iff]
    exact fun hout ↦ hstill f hf rfl (FunctionRedirection.isEntered_of_isLeftOut hout)
  · exact List.mem_append_right _ hr

end PatchRecord

namespace PlacedEdit

instance (e : PlacedEdit) (other : PatchEdit) : Decidable (e.IsSparedBy other) :=
  inferInstanceAs (Decidable (other = e.edit ∨
    ∀ s ∈ e.spots, ∀ t ∈ other.spotsIn e.registry e.pid e.image, s.Apart t))

instance (e : PlacedEdit) (edits : List PatchEdit) : Decidable (e.IsAlone edits) :=
  decidable_of_iff (_ ∧ _) ⟨fun ⟨hapart, hspared⟩ ↦ ⟨hapart, hspared⟩,
    fun h ↦ ⟨h.apart, h.spared⟩⟩

end PlacedEdit

namespace Activation.Told

variable {a : Activation} {told : Told} {registry registry' : Registry} {pid : UInt32}
  {patches patches' : List PatchRecord} {edit : PatchEdit}

/-- In a process, no other edit of the patch gets into the spots of an edit, tried ones included, and
no newer patch does. -/
def IsUndisturbed (told : Told) (registry : Registry) (pid : UInt32) (patches : List PatchRecord)
    (edit : PatchEdit) : Prop :=
  ∀ image, registry.mapping? pid told.patch.token = some image →
    (⟨registry, pid, image, edit⟩ : PlacedEdit).IsAlone told.edits ∧
    ∀ p ∈ patches, told.patch.token.index < p.token.index →
      p.StaysOff registry pid (edit.spotsIn registry pid image)

instance (told : Told) (registry : Registry) (pid : UInt32) (patches : List PatchRecord)
    (edit : PatchEdit) : Decidable (told.IsUndisturbed registry pid patches edit) :=
  inferInstanceAs (Decidable (∀ image, registry.mapping? pid told.patch.token = some image →
    (⟨registry, pid, image, edit⟩ : PlacedEdit).IsAlone told.edits ∧
    ∀ p ∈ patches, told.patch.token.index < p.token.index →
      p.StaysOff registry pid (edit.spotsIn registry pid image)))

/-- Where edits are made that were tried only depends on where older images are mapped. -/
theorem spotsIn_eq (hback : told.patch.RefersBack) (hpos : 0 < told.patch.token.index)
    (hsame : ∀ t : Token, t.index < told.patch.token.index →
      registry'.mapping? pid t = registry.mapping? pid t)
    (h : edit ∈ told.edits) (image : Mapping) :
    edit.spotsIn registry' pid image = edit.spotsIn registry pid image := by
  rcases PatchRecord.mem_edits_iff.mp h with ⟨r, -, rfl⟩ | hedit
  · rfl
  · refine PatchEdit.spotsIn_congr fun t ht ↦ hsame t ?_
    exact hback.tokens_lt hpos (PatchRecord.mem_edits_iff.mpr (.inr hedit)) t ht

/-- Whether an edit is disturbed only depends on where the images up to the newest patch are
mapped. -/
theorem IsUndisturbed.congr (h : told.IsUndisturbed registry' pid patches' edit)
    (hedit : edit ∈ told.edits) (hsub : patches ⊆ patches')
    (hback : told.patch.RefersBack) (hpos : 0 < told.patch.token.index)
    (hpatches : ∀ p ∈ patches, p.RefersBack) {n : Nat} (hn : told.patch.token.index < n)
    (hnewest : ∀ p ∈ patches, p.token.index < n)
    (hsame : ∀ t : Token, t.index < n → registry'.mapping? pid t = registry.mapping? pid t) :
    told.IsUndisturbed registry pid patches edit := by
  intro image himage
  obtain ⟨halone, hoff⟩ := h image ((hsame _ hn).trans himage)
  have hspots : ∀ {other}, other ∈ told.edits →
      other.spotsIn registry' pid image = other.spotsIn registry pid image := fun hother ↦
    spotsIn_eq hback hpos (fun t ht ↦ hsame t (Nat.lt_trans ht hn)) hother image
  have hown := hspots hedit
  refine ⟨⟨?_, fun other hother ↦ ?_⟩, fun p hp hlt ↦ ?_⟩
  · have := halone.apart
    unfold PlacedEdit.spots at *
    rwa [hown] at this
  · have := halone.spared other hother
    unfold PlacedEdit.IsSparedBy PlacedEdit.spots at *
    rwa [hown, hspots hother] at this
  · rw [← hown]
    exact (hoff p (hsub hp) hlt).congr (hpatches p hp) fun t ht ↦
      hsame t (Nat.lt_of_le_of_lt ht (hnewest p hp))

/-- What is recorded was tried. -/
theorem IsTrue.edits_subset {objects : List (ObjectTable × List String)}
    {staged staged' : List Staged} (h : told.IsTrue a objects staged staged') :
    told.patch.edits ⊆ told.edits := by
  intro edit hedit
  refine PatchRecord.mem_edits_iff.mpr ((PatchRecord.mem_edits_iff.mp hedit).imp_left ?_)
  rintro ⟨r, hr, rfl⟩
  refine ⟨r, ?_, rfl⟩
  rw [h.preEntry, h.postEntry] at hr
  rcases List.mem_append.mp hr with hr | hr
  · obtain ⟨i, hi, -⟩ := exists_of_mem_workedEverywhere hr
    exact List.mem_append_left _ (List.mem_of_getElem? hi)
  · obtain ⟨i, hi, -⟩ := exists_of_mem_workedEverywhere hr
    exact List.mem_append_right _ (List.mem_of_getElem? hi)

end Activation.Told

end LivePatch
