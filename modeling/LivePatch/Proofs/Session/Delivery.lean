import LivePatch.Proofs.Outcome
import LivePatch.Proofs.Session.Linking
import LivePatch.Proofs.Session.Tally
import LivePatch.Session.Replay
import Mathlib.Logic.Relation

/-!
# Delivery of changes

An object file that was found to be out of date waits until a build that it takes part in has a
patch to load, through cycles that fail in any way, and it is not delivered again after that: when
nothing changed since, the next cycle finds nothing to do.
-/

namespace LivePatch
namespace LiveModule

variable {b : Books} {m m' : LiveModule} {o : Path} {α : Type}

/-! ### Building -/

theorem returns_tolerating {inv : LiveModule → Prop} {act : CycleM Unit} (h : Keeps inv act) :
    Returns inv (tolerating act) (fun _ ↦ inv) fun _ ↦ False := by
  intro m hm
  have hrun := h.run hm
  simp only [tolerating, tryCatchThe, MonadExceptOf.tryCatch, ExceptT.tryCatch, ExceptT.run,
    ExceptT.mk, bind, StateT.bind] at hrun ⊢
  generalize act m = r at hrun ⊢
  rcases r with ⟨(_ | _) | _, t⟩
  · exact hrun
  · trivial
  · exact hrun

theorem books_clearPending (b : Books) :
    Triple (fun m ↦ m.books = b) clearPending (fun _ m ↦ m.books = b.settled)
      fun m ↦ m.books = b := by
  intro m hm
  subst hm
  rw [run_clearPending]
  rfl

theorem books_abandon (b : Books) (outcome : CycleOutcome) :
    Returns (fun m ↦ m.books = b) (abandon outcome)
      (fun outcome' m ↦ outcome' = outcome ∧ m.books = b.settled) fun m ↦ m.books = b := by
  have hhooks := returns_tolerating ((books_ignoresWork b.settled).callHooks .compileError)
  exact Returns.bind (.of_triple (books_clearPending b)) fun _ ↦ Returns.bind
    (hhooks.mono (fun _ h ↦ h) (fun _ _ h ↦ h) fun _ h ↦ h.elim) fun _ ↦
    .of_triple (Triple.pure fun _ h ↦ ⟨rfl, h⟩)

/-- Taking a patch back from the processes does not bear on the books. -/
theorem books_unload (b : Books) (bases : List UInt64) :
    Keeps (fun m ↦ m.books = b) (unload bases) := Keeps.modify fun _ h ↦ h

/-- A build that had a patch to load is behind its link. -/
def IsSettled (b : Books) (outcome : CycleOutcome) (m : LiveModule) : Prop :=
  outcome.isWithoutPatch = false ∧ m.books = b.settled

theorem isSettled_abandon (b : Books) {outcome : CycleOutcome}
    (h : outcome.isWithoutPatch = false) :
    Returns (fun m ↦ m.books = b) (abandon outcome) (IsSettled b) fun m ↦ m.books = b :=
  (books_abandon b outcome).mono (fun _ h ↦ h) (fun _ _ h' ↦ ⟨h'.1 ▸ h, h'.2⟩) fun _ h ↦ h

theorem isSettled_finish (b : Books) (patch : PatchRecord) :
    Returns (fun m ↦ m.books = b) (finish patch) (IsSettled b) fun m ↦ m.books = b :=
  .of_triple ((books_clearPending b).bind fun _ ↦
    Triple.bind (R := fun _ (m : LiveModule) ↦ m.books = b.settled)
      (Triple.modify fun _ h ↦ h) fun _ ↦ Triple.pure fun _ h ↦ ⟨rfl, h⟩)

theorem isSettled_activate (b : Books) (patch : PatchRecord) (p : Prepared) (image : Image)
    (needed : PathSet) (stripped : Stripped) (bases : List UInt64) :
    Returns (fun m ↦ m.books = b) (activate patch p image needed stripped bases) (IsSettled b)
      fun m ↦ m.books = b := by
  have hgiveUp : Returns (fun m ↦ m.books = b) (do
      unload bases
      modify fun m ↦ { m with registry := m.registry.discard patch.token }
      abandon .activateError) (IsSettled b) fun m ↦ m.books = b :=
    Returns.bind_keeps (books_unload b bases) fun _ ↦
      Returns.bind_keeps (Keeps.modify fun _ h ↦ h) fun _ ↦ isSettled_abandon b rfl
  have hobjects : Keeps (fun m ↦ m.books = b)
      (needed.toList.mapM fun o ↦ inWorkshop (Workshop.object o)) :=
    Keeps.mapM fun _ _ ↦ (books_ignoresWork b).inWorkshop _
  refine Returns.bind_keeps hobjects.tried fun result ↦ ?_
  split
  · exact Returns.fault
  · exact hgiveUp
  · refine Returns.bind_get fun m hm ↦ ?_
    dsimp only
    split
    · exact Returns.bind (R := fun _ (m : LiveModule) ↦ m.books = b)
        (.of_triple (Triple.set fun _ _ ↦ hm)) fun _ ↦ isSettled_finish b _
    · exact Returns.fault
    · exact Returns.bind (R := fun _ (m : LiveModule) ↦ m.books = b)
        (.of_triple (Triple.set fun _ _ ↦ hm)) fun _ ↦ hgiveUp

theorem isSettled_install (b : Books) (path : Path) (needed : PathSet) (stripped : Stripped) :
    Returns (fun m ↦ m.books = b) (install path needed stripped) (IsSettled b)
      fun m ↦ m.books = b := by
  have hgiveUp : ∀ bases outcome, outcome.isWithoutPatch = false →
      Returns (fun m ↦ m.books = b) (do
        unload bases
        abandon outcome) (IsSettled b) fun m ↦ m.books = b :=
    fun bases _ h ↦ Returns.bind_keeps (books_unload b bases) fun _ ↦ isSettled_abandon b h
  refine Returns.bind_keeps ((books_ignoresWork b).prepare path) fun p ↦
    Returns.bind_get fun m hm ↦ ?_
  refine Returns.bind_lift (fun r hr ↦ ?_) fun _ h ↦ h ▸ hm
  refine Returns.bind (R := fun _ (m : LiveModule) ↦ m.books = b)
    (.of_triple (Triple.set fun _ _ ↦ hm)) fun _ ↦ ?_
  split
  · exact hgiveUp _ _ rfl
  · refine Returns.bind_keeps (Keeps.lift _) fun isInReach ↦ ?_
    split
    · have henroll : Keeps (fun m ↦ m.books = b) (enroll path p r.bases) :=
        Triple.bind_get fun m hm ↦ Triple.bind (R := fun _ (m : LiveModule) ↦ m.books = b)
          (Triple.set fun _ _ ↦ hm) fun _ ↦ Keeps.pure _
      exact Returns.bind_keeps henroll fun token ↦ isSettled_activate b _ p r.image needed stripped _
    · exact hgiveUp _ _ rfl

/-- A build leaves the books as they are, unless it has a patch to load. -/
theorem books_build (b : Books) :
    Returns (fun m ↦ m.books = b) build (fun outcome m ↦ m.books = b.behind outcome)
      fun m ↦ m.books = b := by
  have h := books_ignoresWork b
  refine Returns.bind_keeps Keeps.get fun m ↦ ?_
  split
  · exact .of_triple (Triple.pure fun _ hm ↦ hm)
  · refine Returns.bind_keeps (h.inWorkshop _) fun owners ↦
      Returns.bind_keeps (h.inWorkshop _) fun needed ↦ Returns.bind_keeps Keeps.get fun _ ↦
      Returns.bind_keeps (h.inWorkshop _) fun stripped ↦
      Returns.bind_keeps (h.link _ _).tried fun linked ↦
      Returns.bind_keeps (h.inWorkshop _).tried fun restored ↦
      Returns.bind_keeps (Keeps.lift _) fun linked ↦ Returns.bind_keeps (Keeps.lift _) fun _ ↦ ?_
    split
    · exact Returns.bind_keeps (h.callHooks _) fun _ ↦ .of_triple (Triple.pure fun _ hm ↦ hm)
    · refine (isSettled_install b _ _ _).mono (fun _ hm ↦ hm) (fun outcome m hm ↦ ?_) fun _ hm ↦ hm
      rw [Books.behind, if_neg (by simp [hm.1])]
      exact hm.2

/-! ### What a cycle does before it builds -/

/-- Looking for changes finds that an object file has to be compiled. -/
def Reports (m : LiveModule) (o : Path) : Prop :=
  (m.compilands.detectChanges m.files m.settings.splitAmalgamations).2.contains o = true

theorem isBalanced_detectChanges (h : m.books.IsBalanced) : m.detectChanges.books.IsBalanced :=
  h.congr rfl rfl (PathSet.isOrdered_addAll h.ordered _)

/-- What has to be compiled waits from then on, and so does what waited before. -/
theorem awaits_detectChanges (h : m.books.Awaits o ∨ m.Reports o) :
    m.detectChanges.books.Awaits o := by
  have hmodified : m.detectChanges.modified = m.modified.addAll
    (m.compilands.detectChanges m.files m.settings.splitAmalgamations).2.toList := rfl
  rcases h with (h | h) | h
  · refine .inl ((congrArg (PathMap.contains · o) hmodified).trans ?_)
    rw [PathSet.contains_addAll, show m.modified.contains o = true from h, Bool.true_or]
  · exact .inr h
  · refine .inl ((congrArg (PathMap.contains · o) hmodified).trans ?_)
    rw [PathSet.contains_addAll, Bool.or_eq_true, List.any_eq_true]
    exact .inr ((PathSet.contains_iff _ _).mp h)

/-- Before a cycle for changes builds, what waits keeps waiting, and all that was modified is
compiled. -/
theorem retains_compileChanged (hm : m.books.IsBalanced) :
    Returns (· = m) compileChanged
      (fun ended m' ↦ m.detectChanges.books.Retains m'.books ∧
        (ended = none → ∀ o, m'.books.modified.contains o = false) ∧
        ∀ outcome, ended = some outcome → outcome.isWithoutPatch = true)
      fun m' ↦ m.detectChanges.books.Retains m'.books := by
  refine Returns.bind (R := fun _ (s : LiveModule) ↦ s = m.detectChanges)
    (.of_triple (Triple.modify fun _ h ↦ h ▸ rfl)) fun _ ↦ Returns.bind_get fun s hs ↦ ?_
  subst hs
  have hb := isBalanced_detectChanges hm
  have hstart := Books.Retains.refl hb
  split
  · refine .of_triple (Triple.pure fun m' h ↦ ?_)
    subst h
    exact ⟨hstart, nofun, fun outcome h ↦ by cases h; rfl⟩
  · split
    · have hhooks : ∀ (P : Books → Prop) kind, Keeps (fun m' : LiveModule ↦ P m'.books)
          (callHooks kind) := fun P kind ↦ (ignoresWork_of_books P).callHooks kind
      refine Returns.bind (.of_triple ((hhooks (· = m.detectChanges.books) _).mono
        (fun _ h ↦ h ▸ rfl) (fun _ _ h ↦ h) fun _ h ↦ h ▸ hstart)) fun _ ↦
        Returns.bind (retains_compile hb) fun failures ↦ Returns.of_pre fun s hs ↦ ?_
      split
      · refine Returns.bind (.of_triple ((hhooks m.detectChanges.books.Retains _).mono
          (fun _ h ↦ h ▸ hs.1) (fun _ _ h ↦ h) fun _ h ↦ h)) fun _ ↦
          .of_triple (Triple.pure fun m' h ↦ ⟨h, nofun, fun outcome h ↦ ?_⟩)
        cases h
        rfl
      · have hcompiled := hhooks (fun b' ↦ m.detectChanges.books.Retains b' ∧
          ∀ o, b'.modified.contains o = false) .compileSuccess
        exact Returns.bind (.of_triple (hcompiled.mono (fun _ h ↦ h ▸ ⟨hs.1, hs.2 rfl⟩)
          (fun _ _ h ↦ h) fun _ h ↦ h.1)) fun _ ↦
          .of_triple (Triple.pure fun m' h ↦ ⟨h.1, fun _ ↦ h.2, nofun⟩)
    · next hnone =>
      refine .of_triple (Triple.pure fun m' h ↦ ?_)
      subst h
      have hempty : m.detectChanges.modified.isEmpty = true := by simpa using hnone
      exact ⟨hstart, fun _ ↦ (PathSet.isEmpty_iff _).mp hempty, nofun⟩

/-- Before a cycle for object files builds, what waits keeps waiting. -/
theorem retains_acceptAll (hm : m.books.IsBalanced) (objects : List Path) :
    Returns (· = m) (acceptAll objects)
      (fun ended m' ↦ m.books.Retains m'.books ∧
        ∀ outcome, ended = some outcome → outcome.isWithoutPatch = true)
      fun m' ↦ m.books.Retains m'.books := by
  have haccept : ∀ object, Keeps (fun m' : LiveModule ↦ m.books.Retains m'.books)
      (accept object) := by
    intro object
    refine ((ignoresWork_of_books m.books.Retains).inWorkshop _).bind fun _ m' hm' ↦ ?_
    exact hm'.trans (Books.retains_accepted hm'.balanced object)
  refine Returns.bind (.of_triple ((Keeps.forM fun object _ ↦ haccept object).mono
    (fun _ h ↦ by rw [h]; exact .refl hm) (fun _ _ h ↦ h) fun _ h ↦ h)) fun _ ↦
    Returns.bind_get fun s hs ↦ ?_
  split
  · refine .of_triple (Triple.pure fun m' h ↦ ⟨h ▸ hs, fun outcome h ↦ ?_⟩)
    cases h
    rfl
  · exact .of_triple (Triple.pure fun m' h ↦ ⟨h ▸ hs, nofun⟩)

/-! ### Cycles -/

/-- How a cycle comes to its build: what it does before, and the books that it starts from. -/
inductive Approaches (m : LiveModule) : CycleM (Option CycleOutcome) → Books →
    CycleM CycleOutcome → Prop where
  | update : Approaches m compileChanged m.detectChanges.books update
  | updateWithObjects (objects : List Path) :
    Approaches m (acceptAll objects) m.books (updateWithObjects objects)

variable {front : CycleM (Option CycleOutcome)} {act : CycleM CycleOutcome}

theorem Approaches.isFront (h : m.Approaches front b act) : IsFront front act := by
  cases h with
  | update => exact isFront_compileChanged
  | updateWithObjects objects => exact isFront_acceptAll objects

theorem Approaches.retains (h : m.Approaches front b act) (hm : m.books.IsBalanced) :
    Returns (· = m) front
      (fun ended m' ↦ b.Retains m'.books ∧
        ∀ outcome, ended = some outcome → outcome.isWithoutPatch = true)
      fun m' ↦ b.Retains m'.books := by
  cases h with
  | update =>
    exact (retains_compileChanged hm).mono (fun _ h ↦ h) (fun _ _ h ↦ ⟨h.1, h.2.2⟩) fun _ h ↦ h
  | updateWithObjects objects => exact retains_acceptAll hm objects

/-- A cycle keeps what waits waiting. When it had a patch to load, that was built from what was
pending before, and nothing of it is pending any more. -/
theorem Approaches.returns (h : m.Approaches front b act) (hm : m.books.IsBalanced) :
    Returns (· = m) act
      (fun outcome m' ↦ (outcome.isWithoutPatch = true ∧ b.Retains m'.books) ∨
        (outcome.isWithoutPatch = false ∧ ∃ m₁, front.run m = (.ok none, m₁) ∧
          b.Retains m₁.books ∧ m'.books = m₁.books.settled))
      fun m' ↦ b.Retains m'.books := by
  rw [h.isFront.eq]
  have hfront := h.retains hm
  intro s hs
  subst hs
  have hends := hfront s rfl
  rw [run_bind]
  rcases hrun : front.run s with ⟨(e | _) | (_ | outcome), m₁⟩ <;> rw [hrun] at hends
  · exact hends
  · trivial
  · have hbuild := books_build m₁.books m₁ rfl
    dsimp only [buildUnless]
    rcases hresult : build.run m₁ with ⟨(e | _) | outcome, m'⟩ <;> rw [hresult] at hbuild
    · dsimp only at hbuild ⊢
      rw [hbuild]
      exact hends.1
    · trivial
    · dsimp only [Books.behind] at hbuild ⊢
      cases houtcome : outcome.isWithoutPatch with
      | true =>
        rw [houtcome, if_pos rfl] at hbuild
        exact .inl ⟨rfl, hbuild ▸ hends.1⟩
      | false =>
        rw [houtcome, if_neg (by simp)] at hbuild
        exact .inr ⟨rfl, m₁, rfl, hends.1, hbuild⟩
  · exact .inl ⟨hends.2 outcome rfl, hends.1⟩

/-- A cycle delivers an object file: it linked it, which means that the last tool that it ran was the
linker of the module with the object file on its line, and it had a patch to load, so that it ended
with success or with an error of loading or activating. -/
def Delivers (m : LiveModule) (act : CycleM CycleOutcome) (o : Path) : Prop :=
  ∃ outcome m' earlier run, act.run m = (.ok outcome, m') ∧ outcome.isWithoutPatch = false ∧
    m'.workshop.runs = m.workshop.runs ++ earlier ++ [run] ∧
    (∃ files arguments, run.invocation
      = LinkerLine.invocation m.settings files m.linker arguments) ∧
    run.invocation.Names o

/-- A cycle that had a patch to load delivers what was pending when it came to its build. -/
theorem Approaches.delivers (h : m.Approaches front b act) {m₁ : LiveModule}
    (hfront : front.run m = (.ok none, m₁)) {outcome : CycleOutcome}
    (hrun : act.run m = (.ok outcome, m')) (houtcome : outcome.isWithoutPatch = false)
    (ho : m₁.pending.contains o = true) : m.Delivers act o := by
  obtain ⟨r, s, hlinks⟩ : ∃ r s, m.Links front r s := by
    by_contra hnot
    have hended := (run_of_not_links h.isFront fun r s hlinks ↦ hnot ⟨r, s, hlinks⟩).2 outcome
      (congrArg Prod.fst hrun)
    rw [hfront] at hended
    rcases hended with hended | rfl
    · cases hended
    · cases houtcome
  obtain ⟨m₂, hfront', hrecompiled, -⟩ := hlinks.books
  obtain rfl : m₁ = m₂ := congrArg Prod.snd (hfront.symm.trans hfront')
  obtain ⟨trials, hran⟩ := h.isFront.compiles m
  have hlogged := (hlinks.runsLinker h.isFront).logged
  rw [hlinks.runs_eq, hran.runs, hrun] at hlogged
  exact ⟨outcome, m', _, _, hrun, houtcome, hlogged, hlinks.line h.isFront,
    hlinks.names (hrecompiled ▸ ho)⟩

/-- Every cycle keeps books balanced and belonging to the same units, and what waits keeps waiting
unless it is delivered. -/
theorem Approaches.ends {r : Outcome CycleOutcome} (h : m.Approaches front b act)
    (hm : m.books.IsBalanced) (hrun : act.run m = (r, m')) (hreturns : r ≠ .error .fault) :
    m'.books.IsBalanced ∧ (∀ o, m'.compilands.contains o = b.compilands.contains o) ∧
      ∀ o, b.compilands.contains o = true → b.Awaits o → ¬ m.Delivers act o →
        m'.books.Awaits o := by
  have hends := h.returns hm m rfl
  rw [hrun] at hends
  rcases r with (e | _) | outcome
  · exact ⟨hends.balanced, hends.units, fun o hunit hawaits _ ↦ hends.awaits o hunit hawaits⟩
  · exact (hreturns rfl).elim
  · rcases hends with ⟨-, hends⟩ | ⟨houtcome, m₁, hfront, hretains, hbooks⟩
    · exact ⟨hends.balanced, hends.units, fun o hunit hawaits _ ↦ hends.awaits o hunit hawaits⟩
    · refine ⟨hbooks ▸ hretains.balanced.settled, fun o ↦ ?_, fun o hunit hawaits hnot ↦ ?_⟩
      · change m'.books.compilands.contains o = _
        rw [hbooks]
        exact (Books.contains_unmarked _ _ o).trans (hretains.units o)
      · rw [hbooks]
        refine Books.awaits_settled (hretains.awaits o hunit hawaits) ?_
        by_contra hpending
        rw [Bool.not_eq_false] at hpending
        exact hnot (h.delivers hfront hrun houtcome hpending)

/-- A cycle starts from the units of the module, and from all that waits in it. -/
theorem IsCycle.approaches (hact : IsCycle act) (m : LiveModule) :
    ∃ front b, m.Approaches front b act ∧
      (∀ o, b.compilands.contains o = m.compilands.contains o) ∧
      ∀ o, m.books.Awaits o → b.Awaits o := by
  cases hact with
  | update => exact ⟨_, _, .update, fun _ ↦ rfl, fun _ h ↦ awaits_detectChanges (.inl h)⟩
  | updateWithObjects objects =>
    exact ⟨_, _, .updateWithObjects objects, fun _ ↦ rfl, fun _ h ↦ h⟩

/-! ### Sessions -/

/-- What can happen to a module that has no bearing on its books. -/
theorem books_attach (p : AttachedProcess) : Keeps (fun m ↦ m.books = b) (attach p) :=
  keeps_attach fun _ hm _ ↦ hm

theorem books_replay (pid : UInt32) (patch : PatchRecord) :
    Keeps (fun m ↦ m.books = b) (replay pid patch) := by
  have hloaded : ∀ p base, Keeps (fun m ↦ m.books = b) (replayLoaded patch p base) := by
    intro p base
    refine Keeps.bind (Keeps.modify fun _ h ↦ h) fun _ ↦ Triple.bind_get fun m hm ↦ ?_
    split
    · exact Triple.set fun _ _ ↦ hm
    · exact Triple.throw fun _ h ↦ h ▸ hm
    · refine Triple.bind (R := fun _ (m : LiveModule) ↦ m.books = b)
        (Triple.modify fun _ h ↦ h ▸ hm) fun _ ↦ ?_
      exact Keeps.bind (Keeps.modify fun _ h ↦ h) fun _ ↦ Keeps.throw _
  refine Triple.bind_get fun m hm ↦ ?_
  have hstop : ∀ s, s = m → s.books = b := fun _ h ↦ h ▸ hm
  dsimp only
  split
  · exact Triple.fail hstop
  · refine Triple.bind_lift (fun image _ ↦ ?_) hstop
    refine Triple.bind (R := fun _ (m : LiveModule) ↦ m.books = b) (Triple.set fun _ _ ↦ hm)
      fun _ ↦ (Keeps.lift _).bind fun found ↦ ?_
    cases found with
    | none => exact Keeps.fail _
    | some base =>
      refine (Keeps.lift _).bind fun isInReach ↦ ?_
      split
      · exact hloaded _ _
      · exact Keeps.bind (Keeps.modify fun _ h ↦ h) fun _ ↦ Keeps.fail _

theorem books_installPatches (pid : UInt32) :
    Keeps (fun m ↦ m.books = b) (installPatches pid) := by
  refine Keeps.get.bind fun m ↦ ?_
  split
  · exact Keeps.pure _
  · split
    · exact Keeps.fail _
    · exact Keeps.forM fun patch _ ↦ books_replay pid patch

/-- What may happen to a module between cycles: processes are attached and detached, patches are
installed in processes, and files, tools, processes and agents change in any way. -/
inductive Elapses : LiveModule → LiveModule → Prop where
  | attach (m : LiveModule) (p : AttachedProcess) : Elapses m ((attach p).run m).2
  | detach (m : LiveModule) (pid : UInt32) : Elapses m (m.detach pid)
  | installPatches (m : LiveModule) (pid : UInt32) : Elapses m ((installPatches pid).run m).2
  | surroundings {m m' : LiveModule} (h : m'.books = m.books) : Elapses m m'

theorem Elapses.books (h : m.Elapses m') : m'.books = m.books := by
  cases h with
  | attach p => exact (books_attach p).run rfl
  | detach pid => rfl
  | installPatches pid => exact (books_installPatches pid).run rfl
  | surroundings h => exact h

theorem books_of_elapsed (h : Relation.ReflTransGen Elapses m m') : m'.books = m.books := by
  induction h with
  | refl => rfl
  | tail _ hstep ih => exact hstep.books.trans ih

/-- The modules of sessions: they start with tables as a provider delivers them, and go through
cycles which return, whatever they come to. -/
inductive Lives : LiveModule → Prop where
  | load {m : LiveModule} (path : Path) (settings : Settings) (provider : Provider)
      (workshop : Workshop) (hfresh : ∀ t, provider.compilands path = .ok t → t.IsFresh)
      (h : load path settings provider workshop = .ok m) : Lives m
  | cycle {m m' : LiveModule} (h : Lives m) {act : CycleM CycleOutcome} (hact : IsCycle act)
      {r : Outcome CycleOutcome} (hrun : act.run m = (r, m')) (hreturns : r ≠ .error .fault) :
      Lives m'
  | elapse {m m' : LiveModule} (h : Lives m) (helapses : m.Elapses m') : Lives m'

/-- The modules of sessions in which a cycle found that an object file with a unit has to be
compiled, and in which no cycle delivered it since. -/
inductive Owes (o : Path) : LiveModule → Prop where
  | reported {m m' : LiveModule} (h : Lives m) (hunit : m.compilands.contains o = true)
      (hreports : m.Reports o) {r : Outcome CycleOutcome} (hrun : update.run m = (r, m'))
      (hreturns : r ≠ .error .fault) (hnot : ¬ m.Delivers update o) : Owes o m'
  | cycle {m m' : LiveModule} (h : Owes o m) {act : CycleM CycleOutcome} (hact : IsCycle act)
      {r : Outcome CycleOutcome} (hrun : act.run m = (r, m')) (hreturns : r ≠ .error .fault)
      (hnot : ¬ m.Delivers act o) : Owes o m'
  | elapse {m m' : LiveModule} (h : Owes o m) (helapses : m.Elapses m') : Owes o m'

/-- At the start nothing waits, and no unit is marked. -/
theorem isBalanced_load {path : Path} {settings : Settings} {provider : Provider}
    {workshop : Workshop} (hfresh : ∀ t, provider.compilands path = .ok t → t.IsFresh)
    (h : load path settings provider workshop = .ok m) : m.books.IsBalanced := by
  obtain ⟨tables, linker, image, size, weakSymbols, hgather, -, -, -, -, rfl⟩ :=
    load_eq_ok_iff.mp h
  unfold Provider.gather at hgather
  obtain ⟨symbols, -, hgather⟩ := Outcome.bind_eq_ok_iff.mp hgather
  obtain ⟨contributions, -, hgather⟩ := Outcome.bind_eq_ok_iff.mp hgather
  obtain ⟨compilands, hcompilands, hgather⟩ := Outcome.bind_eq_ok_iff.mp hgather
  obtain ⟨thunks, -, hgather⟩ := Outcome.bind_eq_ok_iff.mp hgather
  obtain ⟨sections, -, hgather⟩ := Outcome.bind_eq_ok_iff.mp hgather
  cases hgather
  have hfresh := hfresh compilands hcompilands
  refine ⟨fun o c hget ↦ (hfresh o c hget).1, fun o c hget ↦ ?_, PathMap.isOrdered_empty⟩
  rw [(hfresh o c hget).2]
  exact ⟨nofun, nofun⟩

theorem Lives.isBalanced (h : m.Lives) : m.books.IsBalanced := by
  induction h with
  | load path settings provider workshop hfresh h => exact isBalanced_load hfresh h
  | @cycle m m' _ act hact r hrun hreturns ih =>
    obtain ⟨front, b, happroaches, -, -⟩ := hact.approaches m
    exact (happroaches.ends ih hrun hreturns).1
  | elapse _ helapses ih => exact helapses.books ▸ ih

/-- Object files that are owed have units and wait. -/
theorem Owes.awaits (h : m.Owes o) :
    m.books.IsBalanced ∧ m.compilands.contains o = true ∧ m.books.Awaits o := by
  induction h with
  | reported hlives hunit hreports hrun hreturns hnot =>
    obtain ⟨hbalanced, hunits, hawaits⟩ :=
      Approaches.update.ends hlives.isBalanced hrun hreturns
    exact ⟨hbalanced, (hunits o).trans hunit,
      hawaits o hunit (awaits_detectChanges (.inr hreports)) hnot⟩
  | @cycle m m' _ act hact r hrun hreturns hnot ih =>
    obtain ⟨hbalanced, hunit, hawaits⟩ := ih
    obtain ⟨front, b, happroaches, hsame, hmore⟩ := hact.approaches m
    obtain ⟨hends, hunits, hkeeps⟩ := happroaches.ends hbalanced hrun hreturns
    have hunit' : b.compilands.contains o = true := (hsame o).trans hunit
    exact ⟨hends, (hunits o).trans hunit', hkeeps o hunit' (hmore o hawaits) hnot⟩
  | @elapse m m' _ helapses ih =>
    obtain ⟨hbalanced, hunit, hawaits⟩ := ih
    have hbooks := helapses.books
    refine ⟨hbooks ▸ hbalanced, ?_, hbooks ▸ hawaits⟩
    exact (congrArg (fun b : Books ↦ b.compilands.contains o) hbooks).trans hunit

/-! ### Nothing to do -/

/-- When it was looked for changes, files have no other times until they are changed again. -/
theorem changedFiles_eq_nil {t t' : CompilandTable} {files files' : FileTree}
    (hdependencies : t'.dependencies = (t.lookedAt files).dependencies)
    (htimes : ∀ e ∈ t.dependencies.entries, files'.time? e.1 = files.time? e.1) :
    t'.changedFiles files' = [] := by
  rw [CompilandTable.changedFiles, hdependencies, List.filter_eq_nil_iff]
  intro e he
  obtain ⟨e, hentry, rfl⟩ := List.mem_map.mp he
  have htime := htimes e hentry
  simp only [CompilandTable.hasChanged, htime]
  cases files.time? e.1 <;> simp

/-- A cycle that finds no changed file and nothing that waits does nothing. -/
theorem run_update_of_idle (hchanged : m.compilands.changedFiles m.files = [])
    (hmodified : m.modified.isEmpty = true) (hpending : m.pending.isEmpty = true) :
    (update.run m).1 = .ok .noChange ∧ (update.run m).2.workshop = m.workshop := by
  have hfound : (m.compilands.detectChanges m.files m.settings.splitAmalgamations).2 = ∅ := by
    rw [CompilandTable.detectChanges, hchanged]
    rfl
  have hempty : (m.detectChanges.modified.isEmpty && m.detectChanges.pending.isEmpty) = true := by
    change ((m.modified.addAll
      (m.compilands.detectChanges m.files m.settings.splitAmalgamations).2.toList).isEmpty
        && m.pending.isEmpty) = true
    rw [hfound, hpending, Bool.and_true]
    exact hmodified
  unfold update
  rw [run_bind, run_modify]
  dsimp only
  rw [run_bind, run_get]
  dsimp only
  rw [if_pos hempty]
  exact ⟨rfl, rfl⟩

/-- Behind a cycle for changes that had a patch to load nothing waits. -/
theorem nothing_waits (hm : m.books.IsBalanced) {outcome : CycleOutcome}
    (hrun : update.run m = (.ok outcome, m')) (houtcome : outcome.isWithoutPatch = false) :
    m'.modified.isEmpty = true ∧ m'.pending.isEmpty = true ∧
      m'.compilands.dependencies = (m.compilands.lookedAt m.files).dependencies := by
  have hends := Approaches.update.returns hm m rfl
  rw [hrun] at hends
  rcases hends with ⟨hnot, -⟩ | ⟨-, m₁, hfront, hretains, hbooks⟩
  · rw [houtcome] at hnot
    cases hnot
  · have hcompiled := retains_compileChanged hm m rfl
    rw [hfront] at hcompiled
    have hmodified : m'.modified = m₁.modified := congrArg Books.modified hbooks
    have hpending : m'.pending = ∅ := congrArg Books.pending hbooks
    have hdependencies := congrArg (fun b : Books ↦ b.compilands.dependencies) hbooks
    refine ⟨?_, ?_, ?_⟩
    · rw [hmodified, PathSet.isEmpty_iff]
      exact hcompiled.2.1 rfl
    · rw [hpending]
      rfl
    · exact hdependencies.trans ((Books.dependencies_unmarked _ _).trans hretains.dependencies)

/-- No change is lost, and none is delivered twice. In every session a unit is marked as recompiled
exactly as long as its object file is pending, and an object file with a unit that was found to have
to be compiled is modified or pending until a cycle delivers it. Behind a cycle for changes that had
a patch to load nothing waits, so that another one, however much later, does nothing and runs no
tool as long as no file got another time. -/
theorem changes_are_delivered_once {m : LiveModule} (h : m.Lives) :
    (∀ o c, m.compilands.get? o = some c →
      (c.wasRecompiled = true ↔ m.pending.contains o = true)) ∧
    (∀ o, m.Owes o → m.modified.contains o = true ∨ m.pending.contains o = true) ∧
    ∀ outcome m', update.run m = (.ok outcome, m') → outcome.isWithoutPatch = false →
      m'.modified.isEmpty = true ∧ m'.pending.isEmpty = true ∧
      ∀ m'' : LiveModule, Relation.ReflTransGen Elapses m' m'' →
        (∀ e ∈ m.compilands.dependencies.entries, m''.files.time? e.1 = m.files.time? e.1) →
        (update.run m'').1 = .ok .noChange ∧ (update.run m'').2.workshop = m''.workshop := by
  refine ⟨h.isBalanced.marked, fun o ho ↦ ho.awaits.2.2, fun outcome m' hrun houtcome ↦ ?_⟩
  obtain ⟨hmodified, hpending, hdependencies⟩ := nothing_waits h.isBalanced hrun houtcome
  refine ⟨hmodified, hpending, fun m'' helapses htimes ↦ ?_⟩
  have hbooks := books_of_elapsed helapses
  refine run_update_of_idle (changedFiles_eq_nil ?_ htimes) ?_ ?_
  · exact (congrArg (fun b : Books ↦ b.compilands.dependencies) hbooks).trans hdependencies
  · exact (congrArg (fun b : Books ↦ b.modified.isEmpty) hbooks).trans hmodified
  · exact (congrArg (fun b : Books ↦ b.pending.isEmpty) hbooks).trans hpending

/-! A session with one unit, whose source was changed. -/

namespace Recompiled

/-- The unit. -/
def unit : Compiland :=
  ⟨⟨"/s"⟩, ⟨"/o"⟩, ⟨"/d"⟩, ⟨"cl"⟩, "", ⟨""⟩, none, 1, false⟩

/-- The units of every image. -/
def compilands : CompilandTable := .ofLists [unit] []

/-- Tables with the unit for every image. -/
def provider : Provider := { Relinked.provider with compilands := fun _ ↦ .ok compilands }

/-- The files, with the source as it was written at a time. -/
def files (time : Nat) : FileTree :=
  { Relinked.files with nodes := (["s"], .file #[] (.written time)) :: Relinked.files.nodes }

/-- The files, a compiler that exits with a code, and a linker that writes an image. -/
def workshop (exitCode : Int) (time : Nat) : Workshop :=
  ⟨files time, .empty, fun i t ↦
    if i.tool = ⟨"link"⟩ then
      (.ok ⟨0, ""⟩, t.put ["m.patch_0.dll"] (.file (Relinked.image 0) (.written 1)))
    else (.ok ⟨exitCode, ""⟩, t), []⟩

/-- The module with the source at a time, which was loaded when the source was older. -/
def session (exitCode : Int) (time : Nat) : LiveModule :=
  { Relinked.started 0 with
    provider := provider
    workshop := workshop exitCode time
    registry := Registry.empty.insert ⟨"/m"⟩ { ImageTables.empty with compilands } 0x1000
    compilands := compilands.timed (files 0) }

theorem lives_session (exitCode : Int) (time : Nat) : (session exitCode time).Lives := by
  have hload : load ⟨"/m"⟩ .default provider (workshop exitCode 0) = .ok (session exitCode 0) :=
    load_eq_ok_iff.mpr
      ⟨_, _, _, _, _, rfl, rfl, Relinked.load_image rfl, Relinked.size_image, rfl, rfl⟩
  refine .elapse (.load _ _ _ _ (fun t ht ↦ ?_) hload) (.surroundings rfl)
  cases ht
  refine CompilandTable.isFresh_ofLists (fun c hc ↦ ?_) []
  rw [List.mem_singleton.mp hc]
  rfl

end Recompiled

/-- A unit that does not compile waits, and one that was linked is delivered and does not wait any
more. -/
theorem recompiled_unit_is_delivered_once :
    ((update.run (Recompiled.session 1 1)).1 = .ok (.compileError [⟨"/o"⟩] 1) ∧
      ((update.run (Recompiled.session 1 1)).2.modified.contains ⟨"/o"⟩ = true ∨
        (update.run (Recompiled.session 1 1)).2.pending.contains ⟨"/o"⟩ = true)) ∧
    (update.run (Recompiled.session 0 1)).1 = .ok .success ∧
      (Recompiled.session 0 1).Delivers update ⟨"/o"⟩ ∧
      (update.run (update.run (Recompiled.session 0 1)).2).1 = .ok .noChange := by
  have howed : ∀ m : LiveModule, m.Lives → m.Reports ⟨"/o"⟩ → m.compilands.contains ⟨"/o"⟩ = true →
      (update.run m).1 = .ok (.compileError [⟨"/o"⟩] 1) →
      ((update.run m).2.modified.contains ⟨"/o"⟩ = true ∨
        (update.run m).2.pending.contains ⟨"/o"⟩ = true) := by
    intro m hlives hreports hunit hfailed
    have hrun : update.run m = (.ok (.compileError [⟨"/o"⟩] 1), (update.run m).2) :=
      Prod.ext hfailed rfl
    refine (changes_are_delivered_once (hlives.cycle .update hrun nofun)).2.1 _
      (.reported hlives hunit hreports hrun nofun ?_)
    rintro ⟨outcome, _, _, _, hdelivered, houtcome, -⟩
    rw [hrun] at hdelivered
    cases hdelivered
    cases houtcome
  have hidle : ∀ m : LiveModule, m.Lives → (update.run m).1 = .ok .success →
      (∀ e ∈ m.compilands.dependencies.entries,
        (update.run m).2.files.time? e.1 = m.files.time? e.1) →
      (update.run (update.run m).2).1 = .ok .noChange := fun m hlives hsuccess htimes ↦
    ((changes_are_delivered_once hlives).2.2 .success _ (Prod.ext hsuccess rfl) rfl).2.2 _ .refl
      htimes |>.1
  have hfailed : (update.run (Recompiled.session 1 1)).1 = .ok (.compileError [⟨"/o"⟩] 1) := by
    decide +kernel
  have hreports : (Recompiled.session 1 1).Reports ⟨"/o"⟩ := by
    unfold Reports
    decide +kernel
  have hcompiled : (compileChanged.run (Recompiled.session 0 1)).1 = .ok none ∧
      (compileChanged.run (Recompiled.session 0 1)).2.pending.contains ⟨"/o"⟩ = true := by
    decide +kernel
  have hsuccess : (update.run (Recompiled.session 0 1)).1 = .ok .success ∧
      ∀ e ∈ (Recompiled.session 0 1).compilands.dependencies.entries,
        (update.run (Recompiled.session 0 1)).2.files.time? e.1
          = (Recompiled.session 0 1).files.time? e.1 := by
    decide +kernel
  exact ⟨⟨hfailed, howed _ (Recompiled.lives_session 1 1) hreports (by decide +kernel) hfailed⟩,
    hsuccess.1, Approaches.update.delivers (run_eq_of_result hcompiled.1)
      (run_eq_of_result hsuccess.1) rfl hcompiled.2,
    hidle _ (Recompiled.lives_session 0 1) hsuccess.1 hsuccess.2⟩

end LiveModule
end LivePatch
