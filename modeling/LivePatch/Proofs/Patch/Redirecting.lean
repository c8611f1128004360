import LivePatch.Proofs.Patch.Activation
import LivePatch.Proofs.Redirect.Function

/-!
# Where redirected functions lead

Every redirection is planned by itself, and all of them are written into the same memory one after
another. When all are installed, every function leads to its new instance exactly when no jump was
disturbed by what was written after it.
-/

namespace LivePatch

namespace Staged

/-- A process as far as writes into it are concerned, while a patch is activated in it. -/
def sight (s : Staged) : UInt32 × Memory := s.process.target.sight

/-- Work on the target of a process makes the writes that it makes. -/
theorem writes_onTarget {pid : UInt32} {act : TargetM Unit} {writing : Writing}
    (h : Writes Target.sight pid act writing) : Writes sight pid (onTarget act) writing := by
  intro m s hs
  have hact := h m s.process.target hs
  rw [run_onTarget]
  rcases hr : act.run s.process.target with ⟨_ | a, t⟩
  · trivial
  · rw [hr] at hact
    exact hact

/-- Work on the target of a process changes nothing when it changes nothing there. -/
theorem quiet_onTarget {α : Type} {act : TargetM α} (h : Quiet Target.sight act) :
    Quiet sight (onTarget act) :=
  fun seen ↦ Keeps.of_run fun s hs ↦ (h seen).run (s := s.process.target) hs

theorem quiet_save (image : Mapping) (rva : UInt32) (len : Nat) :
    Quiet sight (save image rva len) :=
  (Quiet.lift _).bind fun _ ↦ (quiet_onTarget (image.quiet_read _ _)).bind fun _ ↦
    Quiet.modify fun _ ↦ rfl

theorem quiet_noteMark (start : UInt64) : Quiet sight (noteMark start) :=
  Quiet.modify fun s ↦ by
    split
    · rfl
    · rfl

theorem quiet_mark (start : UInt64) : Quiet sight (onProcess (AttachedProcess.mark start)) := by
  refine fun seen ↦ Keeps.of_run fun s hs ↦ ?_
  rw [run_mark]
  unfold sight
  dsimp only
  split
  · exact hs
  · exact hs

end Staged

namespace FunctionRedirection

/-- The writes that a redirection takes in one process, none if the existing instance is not there. -/
def writesIn (registry : Registry) (pid : UInt32) (patch : Mapping) (r : FunctionRedirection) :
    Writing :=
  match registry.mapping? pid r.existing with
  | none => .ok []
  | some existing => r.writes existing patch

/-- The function leads to the patch in a process, if its existing instance is there. -/
def LeadsIn (registry : Registry) (pid : UInt32) (patch : Mapping) (m : Memory)
    (r : FunctionRedirection) : Prop :=
  ∀ existing, registry.mapping? pid r.existing = some existing →
    ∃ target, patch.address r.patchRva = .ok target ∧ r.LeadsTo existing target m

/-- The jumps of a redirection are in memory when the function leads to the patch. -/
theorem leadsIn_iff_hasFronts {registry : Registry} {pid : UInt32} {patch : Mapping}
    {r : FunctionRedirection} {log : List (UInt64 × Bytes)} (hroomy : r.technique.IsRoomy)
    (h : r.writesIn registry pid patch = .ok log) {m : Memory} :
    r.LeadsIn registry pid patch m ↔ m.HasFronts log := by
  unfold LeadsIn
  unfold writesIn at h
  cases hexisting : registry.mapping? pid r.existing with
  | none =>
    rw [hexisting] at h
    cases h
    simp [Memory.HasFronts]
  | some existing =>
    rw [hexisting] at h
    obtain ⟨target, htarget, -⟩ := Outcome.bind_eq_ok_iff.mp h
    rw [← leadsTo_iff_hasFronts hroomy htarget h]
    simp [htarget]

/-- The jumps of all redirections are in memory when every function leads to the patch. -/
theorem allLeadIn_iff_hasFronts {registry : Registry} {pid : UInt32} {patch : Mapping}
    {functions : List FunctionRedirection} {logs : List (List (UInt64 × Bytes))}
    (hroomy : ∀ r ∈ functions, r.technique.IsRoomy)
    (h : functions.mapM (writesIn registry pid patch) = .ok logs) {m : Memory} :
    (∀ r ∈ functions, r.LeadsIn registry pid patch m) ↔ m.HasFronts logs.flatten := by
  have hall := Outcome.forall₂_of_mapM h
  clear h
  induction hall with
  | nil => simp [Memory.HasFronts]
  | cons hlog _ ih =>
    obtain ⟨hfirst, hrest⟩ := List.forall_mem_cons.mp hroomy
    rw [List.flatten_cons, Memory.hasFronts_append, List.forall_mem_cons]
    exact and_congr (leadsIn_iff_hasFronts hfirst hlog) (ih hrest)

end FunctionRedirection

namespace LibraryRedirection

/-- The write that installing a redirection takes. -/
def writes (r : LibraryRedirection) (existing patch : Mapping) : Writing := do
  let start ← patch.address r.patchRva
  return [(start, ← paddedJump start (← existing.address r.existingRva) r.covered)]

/-- The write that a redirection takes in one process, none if the existing instance is not there. -/
def writesIn (registry : Registry) (pid : UInt32) (patch : Mapping) (r : LibraryRedirection) :
    Writing :=
  match registry.mapping? pid r.existing with
  | none => .ok []
  | some existing => r.writes existing patch

/-- Installing a redirection makes its write. -/
theorem writes_install {pid : UInt32} (r : LibraryRedirection) (existing patch : Mapping) :
    Writes Target.sight pid (r.install existing patch) (r.writes existing patch) := by
  refine Writes.bind_lift fun start hstart ↦ Writes.bind_lift fun target htarget ↦
    Writes.bind_lift fun code hcode ↦ ?_
  unfold writes
  rw [hstart, htarget]
  simp only [bind, Except.bind, hcode]
  exact patch.writes_write hstart

end LibraryRedirection

namespace PatchRecord

/-- The jumps that lead the functions of other images to a patch in one process. -/
def jumpsIn (p : PatchRecord) (registry : Registry) (pid : UInt32) (image : Mapping) : Writing := do
  return (← p.functions.mapM (FunctionRedirection.writesIn registry pid image)).flatten

/-- The jumps that lead a patch's copies of library functions to other images in one process. -/
def copiesIn (p : PatchRecord) (registry : Registry) (pid : UInt32) (image : Mapping) :
    Writing := do
  return (← p.libraryFunctions.mapM (LibraryRedirection.writesIn registry pid image)).flatten

/-- All writes that redirecting functions takes in one process, none if the patch is not there. -/
def writesIn (p : PatchRecord) (registry : Registry) (pid : UInt32) : Writing :=
  match registry.mapping? pid p.token with
  | none => .ok []
  | some image => (p.jumpsIn registry pid image).followedBy (p.copiesIn registry pid image)

/-- In a process that has the patch, every recorded function leads to it. -/
def IsRedirecting (p : PatchRecord) (registry : Registry) (pid : UInt32) (m : Memory) : Prop :=
  ∀ image, registry.mapping? pid p.token = some image →
    ∀ r ∈ p.functions, r.LeadsIn registry pid image m

/-- No jump of a redirection is disturbed by what is written after it. -/
def IsUndisturbed (p : PatchRecord) (registry : Registry) (pid : UInt32) (m : Memory) : Prop :=
  ∀ image, registry.mapping? pid p.token = some image →
    ∀ jumps copies, p.jumpsIn registry pid image = .ok jumps →
      p.copiesIn registry pid image = .ok copies →
      ∀ jump ∈ jumps, m.IsKept (jumps ++ copies) (Memory.front X86.jumpSize jump)

/-- When all writes were made, the functions lead to the patch exactly when no jump was disturbed. -/
theorem isRedirecting_iff_isUndisturbed {p : PatchRecord} {registry : Registry} {pid : UInt32}
    {m m' : Memory} {log : List (UInt64 × Bytes)} (hroomy : ∀ r ∈ p.functions, r.technique.IsRoomy)
    (hlog : p.writesIn registry pid = .ok log) (hm : Memory.writeAll log m = .ok m') :
    p.IsRedirecting registry pid m' ↔ p.IsUndisturbed registry pid m := by
  unfold IsRedirecting IsUndisturbed
  unfold writesIn at hlog
  cases himage : registry.mapping? pid p.token with
  | none => simp
  | some image =>
    rw [himage] at hlog
    obtain ⟨jumps, hjumps, hlog⟩ := Outcome.bind_eq_ok_iff.mp hlog
    obtain ⟨copies, hcopies, hlog⟩ := Outcome.bind_eq_ok_iff.mp hlog
    cases hlog
    obtain ⟨logs, hlogs, hflatten⟩ := Outcome.bind_eq_ok_iff.mp hjumps
    cases hflatten
    have hkept : m'.HasFronts logs.flatten ↔ ∀ jump ∈ logs.flatten,
        m.IsKept (logs.flatten ++ copies) (Memory.front X86.jumpSize jump) :=
      forall₂_congr fun jump hjump ↦
        Memory.has_front_iff_isKept hm (List.mem_append_left _ hjump) X86.jumpSize
    rw [← FunctionRedirection.allLeadIn_iff_hasFronts hroomy hlogs] at hkept
    constructor
    · intro h image' himage' jumps' copies' hjumps' hcopies'
      cases himage'
      rw [hjumps] at hjumps'
      rw [hcopies] at hcopies'
      cases hjumps'
      cases hcopies'
      exact hkept.mp (h image rfl)
    · intro h image' himage'
      cases himage'
      exact hkept.mpr (h image rfl logs.flatten copies hjumps hcopies)

end PatchRecord

/-- A process into which all writes were made that redirecting functions takes. -/
def Staged.IsWritten (registry : Registry) (patch : PatchRecord) (s t : Staged) : Prop :=
  ∃ log m', patch.writesIn registry s.process.pid = .ok log ∧
    Memory.writeAll log s.process.target.memory = .ok m' ∧ t.sight = (s.process.pid, m')

namespace PatchSteps

/-- Redirecting a function that is not left out makes the writes that the redirection takes. -/
theorem writes_redirectFunction {pid : UInt32} (registry : Registry) (image : Mapping)
    {ips : List UInt64} {checks : Bool} {r : FunctionRedirection}
    (hsafe : ∀ existing start, registry.mapping? pid r.existing = some existing →
      existing.address r.existingRva = .ok start → isUnsafe checks ips r start ≠ .ok true) :
    Writes Staged.sight pid (redirectFunction registry image ips checks r)
      (r.writesIn registry pid image) := by
  refine Writes.bind_get fun s hpid ↦ ?_
  unfold FunctionRedirection.writesIn
  rw [show s.process.pid = pid from hpid]
  cases hexisting : registry.mapping? pid r.existing with
  | none => exact (Quiet.pure PUnit.unit).writes pid
  | some existing =>
    refine Writes.bind_lift fun start hstart ↦ Writes.bind_lift fun isUnsafe hunsafe ↦ ?_
    cases isUnsafe with
    | true => exact (hsafe existing start hexisting hstart hunsafe).elim
    | false =>
      refine Writes.bind_lift fun ranges _ ↦ Writes.after (Quiet.forM fun range _ ↦
        Staged.quiet_save existing range.1 range.2) fun _ ↦
        Writes.after (Staged.quiet_noteMark start) fun _ ↦ ?_
      exact (Staged.writes_onTarget (r.writes_install existing image)).before fun _ ↦
        Staged.quiet_mark start

/-- Redirecting a library function makes the write that the redirection takes. -/
theorem writes_redirectLibraryFunction {pid : UInt32} (registry : Registry) (image : Mapping)
    (r : LibraryRedirection) :
    Writes Staged.sight pid (redirectLibraryFunction registry image r)
      (r.writesIn registry pid image) := by
  refine Writes.bind_get fun s hpid ↦ ?_
  unfold LibraryRedirection.writesIn
  rw [show s.process.pid = pid from hpid]
  cases registry.mapping? pid r.existing with
  | none => exact (Quiet.pure PUnit.unit).writes pid
  | some existing => exact Staged.writes_onTarget (r.writes_install existing image)

/-- Redirecting functions none of which is left out makes the writes that the redirections take. -/
theorem writes_redirectFunctions {pid : UInt32} {registry : Registry} {patch : PatchRecord}
    {ips : List UInt64} {checks : Bool}
    (hsafe : ∀ r ∈ patch.functions, ∀ existing start,
      registry.mapping? pid r.existing = some existing →
        existing.address r.existingRva = .ok start → isUnsafe checks ips r start ≠ .ok true) :
    Writes Staged.sight pid (redirectFunctions registry patch ips checks)
      (patch.writesIn registry pid) := by
  refine Writes.bind_get fun s hpid ↦ ?_
  unfold PatchRecord.writesIn
  rw [show s.process.pid = pid from hpid]
  cases registry.mapping? pid patch.token with
  | none => exact (Quiet.pure PUnit.unit).writes pid
  | some image =>
    exact Writes.bind (Writes.forM fun r hr ↦ writes_redirectFunction registry image (hsafe r hr))
      fun _ ↦ Writes.forM fun r _ ↦ writes_redirectLibraryFunction registry image r

end PatchSteps

namespace Activation

variable (a : Activation)

/-- The techniques for a function that nobody runs have room. -/
theorem isRoomy_of_optionsOnDisk {files : FileTree} {path : Path} {rva size : UInt32}
    {o : TechniqueOptions} (h : optionsOnDisk files path rva size = .ok o) : o.IsRoomy := by
  obtain ⟨image, -, h⟩ := Outcome.bind_eq_ok_iff.mp h
  obtain ⟨base, -, h⟩ := Outcome.bind_eq_ok_iff.mp h
  obtain ⟨start, -, h⟩ := Outcome.bind_eq_ok_iff.mp h
  obtain ⟨imageSize, -, h⟩ := Outcome.bind_eq_ok_iff.mp h
  obtain ⟨code, -, h⟩ := Outcome.bind_eq_ok_iff.mp h
  dsimp only at h
  split at h
  · obtain ⟨preceding, -, h⟩ := Outcome.bind_eq_ok_iff.mp h
    exact FunctionSite.isRoomy_of_evaluate h
  · obtain ⟨preceding, -, h⟩ := Outcome.bind_eq_ok_iff.mp h
    exact FunctionSite.isRoomy_of_evaluate h

/-- The techniques for a function in one process have room. -/
theorem isRoomy_optionsIn (registry : Registry) (existing : FoundSymbol) (size : UInt32)
    (ips : List UInt64) :
    Triple (fun _ ↦ True) (optionsIn registry existing size ips)
      (fun found _ ↦ ∀ o, found = some o → o.IsRoomy) fun _ ↦ True := by
  refine Triple.bind (R := fun _ _ ↦ True) (Triple.get fun _ h ↦ h) fun s ↦ ?_
  dsimp only
  split
  · exact Triple.pure fun _ _ o ho ↦ by cases ho
  · refine Triple.bind (Keeps.triv _) fun site ↦ Triple.bind_lift (fun start _ ↦ ?_) fun _ h ↦ h
    refine Triple.bind_lift (fun options hoptions ↦ Triple.pure fun _ _ o ho ↦ ?_) fun _ h ↦ h
    cases ho
    exact FunctionSite.isRoomy_of_evaluate hoptions

/-- The techniques for a function in all processes have room. -/
theorem isRoomy_optionsEverywhere (existing : FoundSymbol) (size : UInt32)
    (ips : List (List UInt64)) :
    Triple (fun _ ↦ True) (a.optionsEverywhere existing size ips)
      (fun found _ ↦ ∀ options, found = some options → ∀ o ∈ options, o.IsRoomy)
      fun _ ↦ True := by
  have hcollect := Each.triple_collect_all fun i ↦
    isRoomy_optionsIn a.view.registry existing size (ips[i]?.getD [])
  refine Triple.bind (hcollect.tried.mono (fun _ h ↦ h) (fun _ _ h ↦ h) fun _ _ ↦ trivial)
    fun result ↦ ?_
  rcases result with (e | _) | found
  · exact Triple.bind_ok rfl (Triple.pure fun _ _ options h ↦ by cases h)
  · exact Triple.throw fun _ _ ↦ trivial
  · refine Triple.bind_ok rfl ?_
    dsimp only
    split
    · refine Triple.bind_lift (fun o ho ↦ Triple.pure fun _ _ options h ↦ ?_) fun _ _ ↦ trivial
      cases h
      exact List.forall_mem_singleton.mpr (isRoomy_of_optionsOnDisk ho)
    · refine Triple.pure fun s hs options h o ho ↦ ?_
      cases h
      obtain ⟨found', hmem, rfl⟩ := List.mem_filterMap.mp ho
      exact hs _ hmem o rfl

/-- The technique chosen for a function has room. -/
private theorem isRoomy_chosen (existing : FoundSymbol) (size own : UInt32)
    (ips : List (List UInt64)) (name : String) : Triple (fun _ ↦ True) (do
      match (← a.optionsEverywhere existing size ips).bind TechniqueOptions.combine with
      | none => pure none
      | some technique => pure (some (⟨name, existing.token, existing.rva, own, technique,
          existing.image.tables.thunks.leadingTo existing.rva⟩ : FunctionRedirection)))
      (fun plan _ ↦ ∀ r, plan = some r → r.technique.IsRoomy) fun _ ↦ True := by
  refine (isRoomy_optionsEverywhere a existing size ips).bind fun found ↦ ?_
  split
  · exact Triple.pure fun _ _ r h ↦ by cases h
  · next technique hcombine =>
    refine Triple.pure fun _ hroomy r h ↦ ?_
    cases h
    obtain ⟨options, hfound, hcombine⟩ := Option.bind_eq_some_iff.mp hcombine
    exact TechniqueOptions.isRoomy_of_combine (hroomy options hfound) hcombine

/-- The redirection planned for a function has room. -/
theorem isRoomy_planFunction (ips : List (List UInt64)) (name : String) :
    Triple (fun _ ↦ True) (a.planFunction ips name)
      (fun plan _ ↦ ∀ r, plan = some r → r.technique.IsRoomy) fun _ ↦ True := by
  have hnone : Triple (fun _ ↦ True) (pure none : EachM Staged (Option FunctionRedirection))
      (fun plan _ ↦ ∀ r, plan = some r → r.technique.IsRoomy) fun _ ↦ True :=
    Triple.pure fun _ _ r h ↦ by cases h
  unfold planFunction
  split
  · next own existing _ _ =>
    refine Triple.bind (Keeps.lift _) fun contribution ↦ ?_
    split
    · exact hnone
    · cases contribution with
      | none => exact isRoomy_chosen a existing 0 own ips name
      | some c =>
        exact Triple.bind (Keeps.lift _) fun size ↦ isRoomy_chosen a existing size own ips name
  · exact hnone

/-- Planned redirections leave room for their jumps. -/
theorem isRoomy_planFunctions (objects : List ObjectTable) (ips : List (List UInt64)) :
    Triple (fun _ ↦ True) (a.planFunctions objects ips)
      (fun plan _ ↦ ∀ r ∈ plan.1, r.technique.IsRoomy) fun _ ↦ True := by
  have hplans : Triple (fun _ ↦ True) ((functionNames objects).mapM (a.planFunction ips))
      (fun plans _ ↦ (∀ plan ∈ plans, ∀ r, plan = some r → r.technique.IsRoomy) ∧ True)
      fun _ ↦ True :=
    Triple.mapM fun name _ ↦
      (isRoomy_planFunction a ips name).mono (fun _ h ↦ h) (fun _ _ h ↦ ⟨h, trivial⟩) fun _ h ↦ h
  refine hplans.bind fun plans ↦ Triple.bind_lift (fun libraries _ ↦ Triple.pure ?_)
    fun _ _ ↦ trivial
  rintro _ ⟨hroomy, -⟩ r hr
  obtain ⟨plan, hmem, hplan⟩ := List.mem_filterMap.mp hr
  exact hroomy plan hmem r hplan

/-- Planning redirections changes nothing in any process. -/
theorem quiet_planFunctions (staged : List Staged) (objects : List ObjectTable)
    (ips : List (List UInt64)) :
    Keeps (List.Forall₂ (fun s t ↦ Staged.sight t = s.sight) staged)
      (a.planFunctions objects ips) := by
  refine keeps_planFunctions a (fun existing size ips ↦ Each.keeps_collect fun s _ i ↦
    keeps_optionsIn (fun image rva imageSize ↦ ?_) _ _ _ _) objects ips
  have hsite : Quiet Target.sight (readSite image rva imageSize) := fun seen ↦
    keeps_readSite (fun rva len ↦ image.quiet_read rva len seen) rva imageSize
  exact Staged.quiet_onTarget hsite s.sight

private theorem triple_redirectEach (registry : Registry) (patch : PatchRecord)
    (ips : List (List UInt64)) (staged : List Staged) :
    Triple (List.Forall₂ (fun s t ↦ Staged.sight t = s.sight) staged)
      (Each.collect fun i ↦ PatchSteps.redirectFunctions registry patch (ips[i]?.getD []) false)
      (fun _ ↦ List.Forall₂ (Staged.IsWritten registry patch) staged) fun _ ↦ True := by
  have heach : ∀ (s : Staged) (i : Nat), Triple (fun t ↦ Staged.sight t = s.sight)
      (PatchSteps.redirectFunctions registry patch (ips[i]?.getD []) false)
      (fun _ t ↦ True ∧ Staged.IsWritten registry patch s t) fun _ ↦ True := by
    intro s i
    have hwrites : Writes Staged.sight s.process.pid
        (PatchSteps.redirectFunctions registry patch (ips[i]?.getD []) false) _ :=
      PatchSteps.writes_redirectFunctions fun _ _ _ _ _ _ hunsafe ↦ by cases hunsafe
    exact (hwrites s.process.target.memory).mono (fun _ h ↦ h) (fun _ _ h ↦ ⟨trivial, h⟩)
      fun _ h ↦ h
  exact (Each.triple_collect_answers fun s _ ↦ heach s).mono (fun _ h ↦ h) (fun _ _ h ↦ h.2)
    fun _ h ↦ h

/-- The redirections of a patch that was activated leave room for their jumps. -/
theorem isRoomy_run (objects : List (ObjectTable × List String)) (patch : PatchRecord) :
    Triple (fun _ ↦ True) (a.run objects patch)
      (fun p _ ↦ ∀ r ∈ p.functions, r.technique.IsRoomy) fun _ ↦ True := by
  have hfunctions : ∀ patch, Triple (fun _ ↦ True)
      (a.redirectFunctions (objects.map Prod.fst) patch)
      (fun p _ ↦ ∀ r ∈ p.functions, r.technique.IsRoomy) fun _ ↦ True := fun patch ↦
    Keeps.triv_bind fun _ ↦ Triple.ensuring (E := fun _ ↦ True)
      (Keeps.triv_bind fun ips ↦ (isRoomy_planFunctions a _ ips).bind fun plan ↦
        Triple.of_fact fun hplan ↦ Keeps.triv_bind fun _ ↦ Triple.pure fun _ _ ↦ hplan)
      (fun _ _ h ↦ h) fun _ _ ↦ trivial
  unfold run
  refine Keeps.triv_bind fun _ ↦ Keeps.triv_bind fun preHooks ↦ Keeps.triv_bind fun _ ↦
    Keeps.triv_bind fun preEntry ↦ ?_
  dsimp only
  refine Keeps.triv_bind fun _ ↦ Keeps.triv_bind fun _ ↦ Keeps.triv_bind fun _ ↦
    Keeps.triv_bind fun postEntry ↦ (hfunctions _).bind fun p ↦ Triple.of_fact fun hp ↦ ?_
  exact Keeps.triv_bind fun postHooks ↦ Keeps.triv_bind fun _ ↦ Triple.pure fun _ _ ↦ hp

/-- Redirecting functions makes the writes of the redirections in every process. -/
theorem triple_redirectFunctions (objects : List ObjectTable) (patch : PatchRecord)
    (staged : List Staged) :
    Triple (List.Forall₂ (fun s t ↦ Staged.sight t = s.sight) staged)
      (a.redirectFunctions objects patch)
      (fun patch' staged' ↦ (∀ r ∈ patch'.functions, r.technique.IsRoomy) ∧
        List.Forall₂ (Staged.IsWritten a.view.registry patch') staged staged') fun _ ↦ True := by
  have hquiet : ∀ {α : Type} {act : TargetM α}, Quiet Target.sight act → ∀ s ∈ staged,
      Keeps (fun t ↦ Staged.sight t = s.sight) (Staged.onTarget act) :=
    fun hact s _ ↦ Staged.quiet_onTarget hact s.sight
  have hstop : ∀ {J : List Staged → Prop}, ∀ s, J s → True := fun _ _ ↦ trivial
  refine Triple.bind ((Staged.keeps_suspendEach (hquiet Target.quiet_suspend)
    (hquiet Target.quiet_resume)).mono (fun _ h ↦ h) (fun _ _ h ↦ h) hstop) fun _ ↦ ?_
  refine Triple.ensuring (R := fun patch' staged' ↦ (∀ r ∈ patch'.functions, r.technique.IsRoomy) ∧
    List.Forall₂ (Staged.IsWritten a.view.registry patch') staged staged') (E := fun _ ↦ True) ?_
    ?_ hstop
  · refine Triple.bind ((Each.keeps_collect fun s hs _ ↦ hquiet Target.quiet_threadIps s hs).mono
      (fun _ h ↦ h) (fun _ _ h ↦ h) hstop) fun ips ↦ ?_
    have hplan := Triple.and (quiet_planFunctions a staged objects ips)
      (isRoomy_planFunctions a objects ips)
    refine Triple.bind (hplan.mono (fun _ h ↦ ⟨h, trivial⟩) (fun _ _ h ↦ h) hstop) fun plan ↦ ?_
    intro staged' hs
    exact (triple_redirectEach a.view.registry _ ips staged).bind
      (fun _ ↦ Triple.pure fun _ h ↦ ⟨hs.2, h⟩) staged' hs.1
  · rintro patch' staged' ⟨hroomy, hwritten⟩
    refine ⟨hroomy, Each.attempt_related (fun s _ t ht ↦ ?_) hwritten⟩
    obtain ⟨log, m', hlog, hm', ht⟩ := ht
    exact ⟨log, m', hlog, hm', ((Staged.quiet_onTarget Target.quiet_resume) _).run ht⟩

/-- When the functions were redirected in all processes, the records lead everywhere to the patch
exactly where no jump was disturbed by what was written after it. -/
theorem redirected_functions_lead_to_patch_iff_undisturbed (objects : List ObjectTable)
    (patch patch' : PatchRecord) (staged staged' : List Staged)
    (h : (a.redirectFunctions objects patch).run staged = (.ok patch', staged')) :
    List.Forall₂ (fun s t ↦ t.process.pid = s.process.pid ∧
      (patch'.IsRedirecting a.view.registry t.process.pid t.process.target.memory ↔
        patch'.IsUndisturbed a.view.registry s.process.pid s.process.target.memory))
      staged staged' := by
  have hstart : List.Forall₂ (fun s t ↦ Staged.sight t = s.sight) staged staged :=
    List.forall₂_same.mpr fun _ _ ↦ rfl
  obtain ⟨hroomy, hwritten⟩ := (triple_redirectFunctions a objects patch staged).ok hstart h
  refine List.Forall₂.imp ?_ hwritten
  rintro s t ⟨log, m', hlog, hm', ht⟩
  obtain ⟨hpid, hmemory⟩ := Prod.mk.inj ht
  have hpid : t.process.pid = s.process.pid := hpid
  refine ⟨hpid, ?_⟩
  rw [hpid, hmemory]
  exact PatchRecord.isRedirecting_iff_isUndisturbed hroomy hlog hm'

/-! Two functions of one contribution, the first of which is shorter than a jump. -/

namespace Packed

/-- The module up to the end of its functions: a push, a pop and a return, twice. -/
def code : Bytes :=
  Bytes.fill 16 X86.trap ++ #[0x50, 0x58, 0xc3, 0x50, 0x58, 0xc3] ++ Bytes.fill 10 X86.idle

/-- The unit that both functions come from. -/
def unit : Path := ⟨"/a.obj"⟩

/-- A function of the unit. -/
def function (index : Nat) (name : String) (offset : UInt32) : ObjectSymbol :=
  ⟨index, name, some 1, offset, true, true, false, false, []⟩

/-- The object file of the unit. -/
def object : ObjectTable := ⟨unit, 0, [function 0 "first" 0, function 1 "second" 3], [], []⟩

/-- What is known of the module: one contribution holds both functions. -/
def tables : ImageTables where
  symbols := .ofList [("first", 0x10), ("second", 0x13)]
  contributions := .ofList [(unit, 0x10, 0x10)]
  compilands := CompilandTable.empty.add (.ofPaths ⟨"/a.c"⟩ unit)
  thunks := .empty
  sections := []

/-- What is known of the patch. -/
def patchTables : ImageTables := { tables with
  symbols := .ofList [("first", 0x100), ("second", 0x200)]
  contributions := .empty }

/-- The module and its patch in one process. -/
def registry : Registry :=
  (((Registry.empty.insert ⟨"/module"⟩ tables 0x20).register .module 7 0x140000000).insert
    ⟨"/patch"⟩ patchTables 0x1000).register ⟨1⟩ 7 0x140010000

/-- An activation of the patch. -/
def activation : Activation where
  files := .empty
  view := ⟨registry, ⟨1⟩, patchTables⟩
  image := ⟨⟨"/patch"⟩, #[]⟩

/-- The process, in which no thread runs. -/
def staged : Staged :=
  .ofProcess ⟨((Target.ofPid 7).map 0x140000000 code).map 0x140010000 (Bytes.fill 16 0), .willing,
    none, 0x140000000, []⟩

/-- The patch before its functions are redirected. -/
def patch : PatchRecord := .bare ⟨"/patch"⟩ ⟨1⟩ 0x1000 none

/-- The patch with the redirections of both functions. -/
def redirected : PatchRecord := { patch with
  functions := [⟨"first", .module, 0x10, 0x100, .direct 5, []⟩,
    ⟨"second", .module, 0x13, 0x200, .direct 5, []⟩] }

private theorem run_activation : ∃ s,
    (activation.redirectFunctions [object] patch).run [staged] = (.ok redirected, [s]) ∧
      s.process.target.memory.read 0x140000010 5 = .ok #[0xe9, 0xeb, 0x00, 0xe9, 0xe8] := by
  have hresult : ((activation.redirectFunctions [object] patch).run [staged]).1
      = .ok redirected := by decide +kernel
  have hcode : ((activation.redirectFunctions [object] patch).run [staged]).2.map
      (fun s ↦ s.process.target.memory.read 0x140000010 5)
        = [.ok #[0xe9, 0xeb, 0x00, 0xe9, 0xe8]] := by decide +kernel
  generalize (activation.redirectFunctions [object] patch).run [staged] = r at hresult hcode ⊢
  obtain ⟨result, staged'⟩ := r
  obtain ⟨s, rfl, hread⟩ := List.map_eq_singleton_iff.mp hcode
  exact ⟨s, Prod.ext hresult rfl, hread⟩

end Packed

/-- What two functions in one contribution lead to is decided by whether their jumps are disturbed. -/
theorem packed_functions_lead_to_patch_iff_undisturbed : ∃ patch' s,
    (Packed.activation.redirectFunctions [Packed.object] Packed.patch).run [Packed.staged]
      = (.ok patch', [s]) ∧ s.process.pid = Packed.staged.process.pid ∧
    (patch'.IsRedirecting Packed.registry s.process.pid s.process.target.memory ↔
      patch'.IsUndisturbed Packed.registry 7 Packed.staged.process.target.memory) := by
  obtain ⟨s, hrun, -⟩ := Packed.run_activation
  have h := redirected_functions_lead_to_patch_iff_undisturbed Packed.activation [Packed.object]
    Packed.patch Packed.redirected [Packed.staged] [s] hrun
  cases h with
  | cons h _ => exact ⟨_, s, hrun, h⟩

/-- Both functions of the contribution are redirected, each by a jump over five bytes, and the jump
of the second one overwrites the end of the first one's, which then leads nowhere. -/
theorem packed_functions_disturb_each_other : ∃ patch' s,
    (Packed.activation.redirectFunctions [Packed.object] Packed.patch).run [Packed.staged]
      = (.ok patch', [s]) ∧
    patch'.functions.Pairwise (fun r r' ↦ r.existingRva ≠ r'.existingRva) ∧
    ¬patch'.IsRedirecting Packed.registry 7 s.process.target.memory := by
  obtain ⟨s, hrun, hread⟩ := Packed.run_activation
  refine ⟨Packed.redirected, s, hrun, by decide, fun h ↦ ?_⟩
  obtain ⟨target, htarget, hleads⟩ := h ⟨0x140010000, 0x1000⟩ (by decide)
    ⟨"first", .module, 0x10, 0x100, .direct 5, []⟩ (List.mem_cons_self ..) ⟨0x140000000, 0x20⟩
    (by decide)
  obtain ⟨start, hstart, code, hcode, -, hjump⟩ := hleads.start
  cases htarget
  cases hstart
  have heq := hread.symm.trans hcode
  cases heq
  revert hjump
  decide

end Activation
end LivePatch
