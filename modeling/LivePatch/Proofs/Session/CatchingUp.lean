import LivePatch.Proofs.Patch.Telling
import LivePatch.Proofs.Session.Following

/-!
# Processes that catch up

A process that is attached later gets the earlier patches from their records. The records are
complete for what worked everywhere: whatever a process received when a patch was built is recorded,
unless redirecting a reference failed in another process that was attached then. What is recorded is
made again in the later process, and stays there as it does in the process that was there all along,
as long as nothing newer is written over it. A reference that could not be redirected somewhere
is in no record, so that a process which is attached later does without it, even where it could be
redirected.
-/

namespace LivePatch

theorem Gate.IsOpen.congr {g g' : Gate} (h : g.IsOpen) (hsame : g'.refuses = g.refuses) :
    g'.IsOpen := fun c n ↦ hsame ▸ h c n

namespace LiveModule

variable {pid : UInt32} {token : Token} {edit : PatchEdit} {m m' m₁ m₂ m₃ : LiveModule}

/-- An edit of a patch is in place in a process of a session. -/
def HasEdit (pid : UInt32) (token : Token) (edit : PatchEdit) (m : LiveModule) : Prop :=
  ∃ p image, m.process? pid = some p ∧ m.registry.mapping? pid token = some image ∧
    edit.StandsIn m.registry pid image p.target.memory

/-- An edit can be made in a process that the patch is mapped in. -/
def AllowsEdit (pid : UInt32) (token : Token) (edit : PatchEdit) (m : LiveModule) : Prop :=
  ∀ p image, m.process? pid = some p → m.registry.mapping? pid token = some image →
    edit.IsPossibleIn m.registry pid image p.target.memory

/-- Whatever happens to a session in which nothing gets into the spots of an edit in a process: all
images are mapped there where they were, and no patch is built. -/
structure Spares (pid : UInt32) (token : Token) (edit : PatchEdit) (m m' : LiveModule) : Prop where
  arises : m'.Arises
  patches : m'.patches = m.patches
  mapped : ∀ t, m'.registry.mapping? pid t = m.registry.mapping? pid t
  kept : ∀ p, m.process? pid = some p → ∃ q, m'.process? pid = some q ∧
    ∀ image, m.registry.mapping? pid token = some image →
      Memory.KeepsSpots (edit.spotsIn m.registry pid image) p.target.memory q.target.memory

/-- Sessions go on with cycles that succeed, each with its patch in room of its own, and with
whatever spares an edit in a process. -/
inductive GoesOn (pid : UInt32) (token : Token) (edit : PatchEdit) (m : LiveModule) :
    LiveModule → Prop where
  | refl : GoesOn pid token edit m m
  | cycle {m₁ m' : LiveModule} (h : GoesOn pid token edit m m₁) {act : CycleM CycleOutcome}
      (hact : IsCycle act) (run : act.run m₁ = (.ok .success, m'))
      (room : ∀ p ∈ m₁.processes, p.HasRoomFor m'.registry m₁.registry.next) :
      GoesOn pid token edit m m'
  | spares {m₁ m' : LiveModule} (h : GoesOn pid token edit m m₁)
      (spares : Spares pid token edit m₁ m') : GoesOn pid token edit m m'

/-- A session that is as it was for a process spares all edits there. -/
theorem IsSameFor.spares (h : m.IsSameFor pid m') (hm' : m'.Arises) : Spares pid token edit m m' :=
  ⟨hm', h.patches, h.mapped, fun p hp ↦
    ⟨p, h.process.trans hp, fun _ _ _ _ _ _ _ _ _ _ hread ↦ hread⟩⟩

/-! ### Edits that stay in place -/

section Staying

variable {told : Activation.Told} {patch : PatchRecord}

/-- An edit of a patch that was made, and what it needs to stay in place. -/
structure IsEditOf (edit : PatchEdit) (told : Activation.Told) : Prop where
  recorded : edit ∈ told.patch.edits
  subset : told.patch.edits ⊆ told.edits
  sound : edit.IsSound
  pos : 0 < told.patch.token.index
  refersBack : told.patch.RefersBack
  kinds : ∀ r ∈ told.patch.preEntry ++ told.patch.postEntry, r.kind.isPatchable = true

theorem IsEditOf.tried (h : IsEditOf edit told) : edit ∈ told.edits := h.subset h.recorded

theorem IsEditOf.tokens_lt (h : IsEditOf edit told) :
    ∀ t ∈ edit.tokens, t.index < told.patch.token.index :=
  h.refersBack.tokens_lt h.pos h.recorded

/-- An edit stays in place where it is spared. -/
theorem HasEdit.spares (h : m.HasEdit pid token edit) (hsound : edit.IsSound)
    (hspares : Spares pid token edit m m') : m'.HasEdit pid token edit := by
  obtain ⟨p, image, hp, himage, hstands⟩ := h
  obtain ⟨q, hq, hkept⟩ := hspares.kept p hp
  refine ⟨q, image, hq, (hspares.mapped token).trans himage, ?_⟩
  rw [PatchEdit.standsIn_congr fun t _ ↦ hspares.mapped t]
  exact hstands.keep hsound (hkept image himage)

/-- An edit stays in place where a newer patch is received that stays off its spots. -/
theorem HasEdit.receive (hedit : IsEditOf edit told) (h : m.HasEdit pid told.patch.token edit)
    (hnewer : told.patch.token.index < patch.token.index)
    (hsame : ∀ t : Token, t.index < patch.token.index →
      m'.registry.mapping? pid t = m.registry.mapping? pid t)
    (hoff : ∀ image, m'.registry.mapping? pid told.patch.token = some image →
      patch.StaysOff m'.registry pid (edit.spotsIn m'.registry pid image))
    (hreceives : ∀ p, m.process? pid = some p → ∃ p', m'.process? pid = some p' ∧
      p.target.Receives m'.registry patch p'.target.sight) :
    m'.HasEdit pid told.patch.token edit := by
  obtain ⟨p, image, hp, himage, hstands⟩ := h
  obtain ⟨p', hp', hreceived⟩ := hreceives p hp
  have himage' := (hsame _ hnewer).trans himage
  obtain rfl : p.pid = pid := pid_of_process? hp
  refine ⟨p', image, hp', himage', ?_⟩
  refine PatchEdit.StandsIn.keep ?_ hedit.sound ((hoff image himage').keepsSpots hreceived)
  rwa [PatchEdit.standsIn_congr fun t ht ↦ hsame t (Nat.lt_trans (hedit.tokens_lt t ht) hnewer)]

end Staying

/-! ### What a cycle comes to -/

/-- What the activation of a cycle comes to, if the beginning of the cycle gets that far. -/
def telling : Outcome (CycleOutcome ⊕ Launch) × LiveModule → Option Activation.Told
  | (.ok (.inr l), s) =>
    match (l.activation.told l.objects l.patch).run (s.processes.map Staged.ofProcess) with
    | (.ok told, _) => some told
    | _ => none
  | _ => none

/-- A cycle that succeeds, and what its activation came to. -/
structure Tells (act : CycleM CycleOutcome) (m : LiveModule) (told : Activation.Told)
    (m' : LiveModule) : Prop where
  run : act.run m = (.ok .success, m')
  told : ∃ begin, Begins begin act ∧ telling (begin.run m) = some told

section Telling

variable {begin : CycleM (CycleOutcome ⊕ Launch)} {act : CycleM CycleOutcome}
  {told : Activation.Told}

/-- A cycle that succeeds gets to its activation, which tells what it came to. -/
theorem Begins.exists_activation (h : Begins begin act) (hm : m.IsConsistent)
    (hrun : act.run m = (.ok .success, m')) :
    ∃ (l : Launch) (s : LiveModule) (told : Activation.Told) (staged : List Staged),
      m.IsReadyFor l s ∧ telling (begin.run m) = some told ∧
      (l.activation.told l.objects l.patch).run (s.processes.map Staged.ofProcess)
        = (.ok told, staged) ∧ m'.registry = s.registry ∧
      m'.patches = m.patches ++ [told.patch] ∧ m'.processes = staged.map Staged.process := by
  obtain ⟨l, s, patch, staged, hbegun, hs, hok, hregistry, hpatches, hprocesses⟩ :=
    h.exists_launch hm hrun
  rw [Activation.run_eq_told] at hok
  obtain ⟨told, staged', htold, hpure⟩ := run_bind_eq_ok_iff.mp hok
  cases hpure
  refine ⟨l, s, told, staged, hs, ?_, htold, hregistry, hpatches, hprocesses⟩
  rw [hbegun, telling, htold]

/-- A cycle that succeeds tells what its activation came to. -/
theorem exists_tells (hact : IsCycle act) (hm : m.IsConsistent)
    (hrun : act.run m = (.ok .success, m')) : ∃ told, Tells act m told m' := by
  obtain ⟨begin, hbegins⟩ := hact.exists_begins
  obtain ⟨-, -, told, -, -, htelling, -⟩ := hbegins.exists_activation hm hrun
  exact ⟨told, hrun, begin, hbegins, htelling⟩

theorem Begins.isOperation (h : Begins begin act) : IsOperation act := by
  cases h with
  | update => exact .update
  | updateWithObjects objects => exact .updateWithObjects objects

theorem Tells.arises (h : Tells act m told m') (hm : m.Arises) : m'.Arises := by
  obtain ⟨hrun, begin, hbegins, -⟩ := h
  exact .operation hm hbegins.isOperation hrun nofun

end Telling

/-! ### Edits in a process that is there all along -/

section Going

variable {act : CycleM CycleOutcome} {told : Activation.Told}

/-- An edit of a patch that is recorded, in a session in which it is in place in a process unless
something disturbs it there. -/
structure KeepsEdit (pid : UInt32) (told : Activation.Told) (edit : PatchEdit) (m : LiveModule) :
    Prop where
  arises : m.Arises
  recorded : told.patch ∈ m.patches
  stands : told.IsUndisturbed m.registry pid m.patches edit → m.HasEdit pid told.patch.token edit

/-- What a process received in a cycle is recorded if it failed nowhere, and is in place there
unless something else of the patch disturbs it. -/
theorem Tells.keepsEdit {i : Nat} {p : AttachedProcess} (h : Tells act m told m') (hm : m.Arises)
    (hroom : ∀ p ∈ m.processes, p.HasRoomFor m'.registry m.registry.next)
    (hp : m.processes[i]? = some p) (hgate : p.target.gate.IsTolerant)
    (hreceived : told.IsReceived i edit) (hworked : told.WorkedEverywhere edit) :
    IsEditOf edit told ∧ m'.KeepsEdit p.pid told edit := by
  have hm' := h.arises hm
  obtain ⟨hrun, begin, hbegins, htelling⟩ := h
  have hconsistent := hm.reachable.isConsistent
  obtain ⟨l, s, told', staged, hs, htelling', hok, hregistry, hpatches, hprocesses⟩ :=
    hbegins.exists_activation hconsistent hrun
  obtain rfl : told = told' := Option.some.inj (htelling.symm.trans htelling')
  have htrue := l.activation.isTrue_told (hs.patch.trans hs.token.symm) hok
  have hmem : told.patch ∈ m'.patches :=
    hpatches ▸ List.mem_append_right _ (List.mem_singleton_self _)
  have hindex := hm.isInStep.index_last hm'.isInStep hpatches
  have hrecorded := htrue.mem_edits hreceived hworked
  have hedit : IsEditOf edit told := ⟨hrecorded, htrue.edits_subset, htrue.isSound hreceived,
    by rw [hindex, hm.isInStep.size]; exact Nat.succ_pos _, hm'.isInStep.refersBack _ hmem,
    htrue.isPatchable_of_mem_recorded⟩
  refine ⟨hedit, hm', hmem, fun hundisturbed ↦ ?_⟩
  -- the process when the patch lies in it
  obtain ⟨q, hq, image, himage, hholds⟩ := Pointwise.exists_at hs.processes hp
  have hstart : (s.processes.map Staged.ofProcess)[i]? = some (.ofProcess q) := by
    rw [List.getElem?_map, hq, Option.map_some]
  obtain ⟨t, _, ht, -⟩ := htrue.takes i _ hstart
  have hseen : m'.processes[i]? = some t.process := by
    rw [hprocesses, List.getElem?_map, ht, Option.map_some]
  -- it is the process of that identifier behind the cycle
  obtain ⟨_, _, -, -, -, hall⟩ := hbegins.received hconsistent hrun hroom
  obtain ⟨t', ht', hreceives⟩ := Pointwise.exists_at hall hp
  cases hseen.symm.trans ht'
  have hpid : t.process.pid = p.pid := hreceives.pid
  have hmapped : m'.registry.mapping? p.pid told.patch.token = some image := by
    rw [hregistry, htrue.token, hs.token]
    exact himage
  have hhasRoom := hroom p (List.mem_of_getElem? hp) image (by rw [hregistry]; exact himage)
  refine ⟨t.process, image, hpid ▸ process?_of_mem hm'.reachable.isConsistent
    (List.mem_of_getElem? hseen), hmapped, ?_⟩
  exact htrue.stands (e := ⟨m'.registry, p.pid, image, edit⟩) hstart ht
    (hholds.admits.isTolerant hgate) (hholds.admits.isMapped_page hhasRoom)
    (hregistry.trans hs.view.symm) hholds.pid hmapped (hundisturbed image hmapped).1 hreceived

/-- What is undisturbed in a session was undisturbed before, when there were fewer patches. -/
theorem KeepsEdit.hasEdit (h : m.KeepsEdit pid told edit) (hedit : IsEditOf edit told)
    (hsub : m.patches ⊆ m'.patches)
    (hsame : ∀ t : Token, t.index < m.registry.size →
      m'.registry.mapping? pid t = m.registry.mapping? pid t)
    (hundisturbed : told.IsUndisturbed m'.registry pid m'.patches edit) :
    m.HasEdit pid told.patch.token edit :=
  have hinstep := h.arises.isInStep
  h.stands (hundisturbed.congr hedit.tried hsub hedit.refersBack hedit.pos hinstep.refersBack
    (hinstep.index_lt h.recorded) (fun _ hp ↦ hinstep.index_lt hp) hsame)

/-- A newer patch leaves an edit in place, unless it disturbs it. -/
theorem KeepsEdit.cycle (h : m.KeepsEdit pid told edit) (hedit : IsEditOf edit told)
    (hact : IsCycle act) (hrun : act.run m = (.ok .success, m'))
    (hroom : ∀ p ∈ m.processes, p.HasRoomFor m'.registry m.registry.next) :
    m'.KeepsEdit pid told edit := by
  obtain ⟨begin, hbegins⟩ := hact.exists_begins
  obtain ⟨image, patch, hregistry, hpatches, -, hreceived⟩ :=
    hbegins.received h.arises.reachable.isConsistent hrun hroom
  have hm' : m'.Arises := .operation h.arises hact.isOperation hrun nofun
  have hsub : m.patches ⊆ m'.patches := hpatches ▸ List.subset_append_left _ _
  have hlast : patch ∈ m'.patches := hpatches ▸ List.mem_append_right _ (List.mem_singleton_self _)
  have hindex := h.arises.isInStep.index_last hm'.isInStep hpatches
  have hnewer : told.patch.token.index < patch.token.index :=
    hindex ▸ h.arises.isInStep.index_lt h.recorded
  have hsame : ∀ t : Token, t.index < m.registry.size →
      m'.registry.mapping? pid t = m.registry.mapping? pid t := fun t ht ↦
    hregistry ▸ Registry.mapping?_append_of_lt m.registry image pid ht
  refine ⟨hm', hsub h.recorded, fun hundisturbed ↦ ?_⟩
  refine (h.hasEdit hedit hsub hsame hundisturbed).receive hedit hnewer (hindex ▸ hsame)
    (fun image himage ↦ (hundisturbed image himage).2 patch hlast hnewer) fun p hp ↦ ?_
  obtain ⟨q, hq, hreceives⟩ := Pointwise.exists_right hreceived (List.mem_of_find?_eq_some hp)
  have hpid : q.pid = pid := hreceives.pid.trans (pid_of_process? hp)
  exact ⟨q, hpid ▸ process?_of_mem hm'.reachable.isConsistent hq, hreceives⟩

theorem KeepsEdit.spares (h : m.KeepsEdit pid told edit) (hedit : IsEditOf edit told)
    (hspares : Spares pid told.patch.token edit m m') : m'.KeepsEdit pid told edit :=
  ⟨hspares.arises, hspares.patches ▸ h.recorded, fun hundisturbed ↦
    (h.hasEdit hedit (hspares.patches ▸ List.Subset.refl _) (fun t _ ↦ hspares.mapped t)
      hundisturbed).spares hedit.sound hspares⟩

/-- While a session goes on, an edit stays in place unless something disturbs it. -/
theorem KeepsEdit.goesOn (h : m.KeepsEdit pid told edit) (hedit : IsEditOf edit told)
    (hgoes : GoesOn pid told.patch.token edit m m') : m'.KeepsEdit pid told edit := by
  induction hgoes with
  | refl => exact h
  | cycle _ hact hrun hroom ih => exact ih.cycle hedit hact hrun hroom
  | spares _ hspares ih => exact ih.spares hedit hspares

end Going

/-! ### Edits in a process that catches up -/

section CatchingUp

variable {patches installed : List PatchRecord} {patch : PatchRecord} {told : Activation.Told}
  {p q : AttachedProcess}

/-- What is installed one after another is installed by one run. -/
theorem Installs.run (h : Installs pid m patches installed m') :
    (patches.forM (replay pid)).run m = (.ok (), m') := by
  induction h with
  | nil => rfl
  | @snoc before _ patch m₁ m' _ _ _ _ _ hrun ih =>
    rw [show (before ++ [patch]).forM (replay pid)
      = before.forM (replay pid) >>= fun _ ↦ [patch].forM (replay pid) from List.forM_append]
    refine run_bind_eq_ok_iff.mpr ⟨⟨⟩, m₁, ih, ?_⟩
    rwa [forM_singleton]

/-- The threads of a process are not moved while patches are installed in it, and it refuses what it
refused. -/
theorem Installs.underWay (hp : m.process? pid = some p) (hgate : p.target.gate.LetsGo)
    (h : Installs pid m patches installed m') :
    ∃ q, m'.process? pid = some q ∧ p.UnderWay 0 q := by
  induction h with
  | nil => exact ⟨p, hp, .refl p⟩
  | @snoc before installed patch m₁ m' q' _ hq' _ _ hrun ih =>
    obtain ⟨q, hq, hunder⟩ := ih
    obtain rfl : q' = q := Option.some.inj (hq'.symm.trans hq)
    obtain ⟨image, base, s, files, t, hload, -, ht, -, -, hprocesses, htpid⟩ :=
      exists_of_replay hq hrun
    have hloaded : p.UnderWay 0 s.process :=
      (LoadState.underWay_load hgate m₁.registry.moduleSize patch.path false).run_eq
        (s := ⟨m₁.files, image, q'⟩) hunder hload
    have hreplayed : p.UnderWay 0 t.process :=
      (patch.underWay_replay hgate files m'.registry).run_eq (s := .ofProcess s.process) hloaded ht
    exact ⟨t.process, process?_of_processes hq htpid hprocesses, hreplayed⟩

/-- Behind the install of a patch, an edit that is recorded is in place if it can be made, is alone
and is not left out for a thread. -/
theorem hasEdit_of_replay (hedit : IsEditOf edit told) (hq : m.process? pid = some q)
    (hgate : q.target.gate.IsOpen) (hmapped : m'.registry.mapping? pid told.patch.token ≠ none)
    (hroom : q.HasRoomFor m'.registry told.patch.token)
    (hrun : (replay pid told.patch).run m = (.ok (), m'))
    (hstill : ∀ r ∈ told.patch.functions, .redirection (.inl r) = edit →
      ¬r.IsEntered m'.registry pid (q.target.threads.map Thread.ip))
    (hallows : m'.AllowsEdit pid told.patch.token edit)
    (hundisturbed : told.IsUndisturbed m'.registry pid patches edit) :
    m'.HasEdit pid told.patch.token edit := by
  obtain ⟨image, base, s, files, t, hload, hspid, ht, hregistry, -, hprocesses, htpid⟩ :=
    exists_of_replay hq hrun
  obtain ⟨placed, hplaced⟩ := Option.ne_none_iff_exists'.mp hmapped
  obtain rfl : q.pid = pid := pid_of_process? hq
  have hbase : placed.base = base := by
    rw [hregistry, Registry.mapping?_register] at hplaced
    obtain ⟨i, -, rfl⟩ := Option.map_eq_some_iff.mp hplaced
    rfl
  have hadmits : q.target.Admits (some placed.base) s.process.target :=
    (LoadState.admits_load m.registry.moduleSize told.patch.path false).ok
      (s := ⟨m.files, image, q⟩) (.refl q.target) hload _ (hbase ▸ rfl)
  have hunder : q.UnderWay 0 s.process :=
    (LoadState.underWay_load hgate.letsGo m.registry.moduleSize told.patch.path false).run_eq
      (s := ⟨m.files, image, q⟩) (.refl q) hload
  have hseen := process?_of_processes hq htpid hprocesses
  have hleft : edit ∈ (told.patch.sparingIn m'.registry s.process).edits := by
    refine PatchRecord.mem_edits_sparing hedit.recorded fun r hr heq ↦ ?_
    rw [hspid, hunder.2.threads]
    exact hstill r hr heq
  have halone := (hundisturbed placed hplaced).1
  refine ⟨t.process, placed, hseen, hplaced, ?_⟩
  exact PatchRecord.edit_stands_replay (e := ⟨m'.registry, q.pid, placed, edit⟩)
    (hgate.congr hadmits.refuses) (hadmits.isMapped_page (hroom placed hplaced)) hspid hplaced
    hedit.sound hedit.kinds (halone.subset hedit.subset) hleft (hallows _ _ hseen hplaced) ht

/-- Behind the installs of patches one after another, an edit of one of them is in place if it can
be made, is not left out for a thread and is not disturbed. -/
theorem Installs.hasEdit (hedit : IsEditOf edit told) (hm : m.Arises) (hp : m.process? pid = some p)
    (hgate : p.target.gate.IsOpen)
    (hallows : ∀ m₁,
      ((m.patches.take told.patch.token.index).forM (replay pid)).run m = (.ok (), m₁) →
        m₁.AllowsEdit pid told.patch.token edit)
    (h : Installs pid m patches installed m') (hfront : ∃ rest, m.patches = patches ++ rest)
    (hpatch : told.patch ∈ patches)
    (hstill : ∀ r ∈ told.patch.functions, .redirection (.inl r) = edit →
      ¬r.IsEntered m'.registry pid (p.target.threads.map Thread.ip))
    (hundisturbed : told.IsUndisturbed m'.registry pid patches edit) :
    m'.HasEdit pid told.patch.token edit := by
  induction h with
  | nil => cases hpatch
  | @snoc before installed patch m₁ m' q hinstalls hq hletsGo hroom hrun ih =>
    obtain ⟨rest, hpatches⟩ := hfront
    rw [List.append_assoc, List.singleton_append] at hpatches
    have hinstep := hm.isInStep
    have hmem : patch ∈ m.patches := hpatches ▸ List.mem_append_right _ (List.mem_cons_self ..)
    have hmapped : m'.registry.mapping? pid patch.token ≠ none :=
      mapping?_ne_none_of_replay (hinstalls.same.2 ▸ hinstep.index_lt hmem) hq hrun
    rcases List.mem_append.mp hpatch with hbefore | hlast
    · have holder := hinstep.older hpatches
      have hnewer : told.patch.token.index < patch.token.index := (holder _ hbefore).2
      obtain ⟨-, q', -, -, hprocesses, hpid, hreceived⟩ := received_of_replay hq hrun
      have hsame : ∀ t : Token, t.index < patch.token.index →
          m'.registry.mapping? pid t = m₁.registry.mapping? pid t :=
        fun t ht ↦ mapping?_of_replay hq hrun (fun heq ↦ Nat.lt_irrefl _ (heq ▸ ht))
      have hnewer' : told.patch.token.index < (patch.sparingIn m'.registry q).token.index := hnewer
      refine (ih ⟨_, hpatches⟩ hbefore (fun r hr heq hentered ↦ hstill r hr heq ?_) ?_).receive
        hedit hnewer' hsame (fun image himage ↦ ?_) fun _ hp₁ ↦ ?_
      · refine (FunctionRedirection.isEntered_congr (hsame _ ?_)).mpr hentered
        exact Nat.lt_trans (hedit.refersBack.functions r hr) hnewer
      · exact hundisturbed.congr hedit.tried (List.subset_append_left _ _) hedit.refersBack
          hedit.pos (fun p hp ↦ (holder p hp).1) hnewer (fun p hp ↦ (holder p hp).2) hsame
      · have hnewest := List.mem_append_right before (List.mem_singleton_self patch)
        exact ((hundisturbed image himage).2 patch hnewest hnewer).sparing _ _ _
      · cases hq.symm.trans hp₁
        exact ⟨q', process?_of_processes hq hpid hprocesses, hreceived hmapped hletsGo hroom⟩
    · obtain rfl := List.mem_singleton.mp hlast
      obtain ⟨_, hq', hunder⟩ := hinstalls.underWay hp hgate.letsGo
      cases hq.symm.trans hq'
      have hopen : q.target.gate.IsOpen := hgate.congr hunder.2.refuses
      have hindex := hinstep.tokens before.length told.patch (by simp [hpatches])
      have hfirst : m.patches.take told.patch.token.index = before ++ [told.patch] := by
        rw [hindex, hpatches]
        exact List.take_length_add_append 1
      refine hasEdit_of_replay hedit hq hopen hmapped hroom hrun ?_ (hallows m' ?_) hundisturbed
      · rw [hunder.2.threads]
        exact hstill
      · rw [hfirst]
        exact (Installs.snoc hinstalls hq hletsGo hroom hrun).run

/-- An install of all patches in a process that refuses nothing, each patch into room of its own. No
thread of the process runs inside of a function that an edit redirects, and the edit can be made
there once its patch is installed. -/
structure InstallsEdit (pid : UInt32) (told : Activation.Told) (edit : PatchEdit)
    (m m' : LiveModule) : Prop where
  run : (installPatches pid).run m = (.ok (), m')
  room : ∃ installed, Installs pid m m.patches installed m'
  process : ∃ p, m.process? pid = some p ∧ p.target.gate.IsOpen ∧
    ∀ r ∈ told.patch.functions, .redirection (.inl r) = edit →
      ¬r.IsEntered m'.registry pid (p.target.threads.map Thread.ip)
  allows : ∀ m₁,
    ((m.patches.take told.patch.token.index).forM (replay pid)).run m = (.ok (), m₁) →
      m₁.AllowsEdit pid told.patch.token edit

/-- The log is complete for what worked everywhere. Let a process receive an edit in a cycle that
succeeds, and let the edit fail in no process that is attached then. Then the edit is recorded.
While the session goes on, it stays in place in that process, and an install puts it in place in any
other process, if it can be made there, no thread is in the way, and nothing else gets into its spots
in these processes. -/
theorem later_process_receives_what_worked_everywhere {act : CycleM CycleOutcome} {i : Nat}
    (hm : m.Arises) (htells : Tells act m told m₁)
    (hroom : ∀ p ∈ m.processes, p.HasRoomFor m₁.registry m.registry.next)
    (hp : m.processes[i]? = some p) (hgate : p.target.gate.IsTolerant)
    (hreceived : told.IsReceived i edit) (hworked : told.WorkedEverywhere edit)
    (hgoes : GoesOn p.pid told.patch.token edit m₁ m₂) (hother : pid ≠ p.pid)
    (hinstalls : InstallsEdit pid told edit m₂ m₃)
    (hundisturbed : ∀ id ∈ [p.pid, pid], told.IsUndisturbed m₃.registry id m₃.patches edit) :
    edit ∈ told.patch.edits ∧ told.patch ∈ m₃.patches ∧
      ∀ id ∈ [p.pid, pid], m₃.HasEdit id told.patch.token edit := by
  obtain ⟨hedit, hkeeps⟩ := htells.keepsEdit hm hroom hp hgate hreceived hworked
  have hbefore := hkeeps.goesOn hedit hgoes
  have hm₃ : m₃.Arises := .operation hbefore.arises (.installPatches pid) hinstalls.run nofun
  have hbehind := hbefore.spares hedit
    ((isSameFor_installPatches hinstalls.run hother).spares hm₃)
  obtain ⟨installed, hroom⟩ := hinstalls.room
  obtain ⟨q, hq, hopen, hstill⟩ := hinstalls.process
  have hpatches : m₃.patches = m₂.patches := hroom.same.1
  obtain ⟨hold, hnew⟩ := List.forall_mem_cons.mp hundisturbed
  have hnew := List.forall_mem_singleton.mp hnew
  refine ⟨hedit.recorded, hbehind.recorded, List.forall_mem_cons.mpr ⟨hbehind.stands hold,
    List.forall_mem_singleton.mpr ?_⟩⟩
  exact hroom.hasEdit hedit hbefore.arises hq hopen hinstalls.allows ⟨[], (List.append_nil _).symm⟩
    hbefore.recorded hstill (hpatches ▸ hnew)

end CatchingUp

/-! ### A reference that fails in one process

A function refers to the module in two ways. One of the references only fits where the module lies
below four gigabytes, which it does in one of the two processes that get the patch. -/

deriving instance DecidableEq for Activation.Told

namespace CaughtUp

/-- An object file with a function, which refers to a variable by distance and by address. -/
def object : Bytes :=
  (([0x64, 0x86, 1, 0, 0, 0, 0, 0, 96, 0, 0, 0, 2, 0, 0, 0, 0, 0, 0, 0] : List UInt8)
    ++ [0x2e, 0x74, 0x65, 0x78, 0x74, 0, 0, 0] ++ List.replicate 8 0
    ++ [16, 0, 0, 0, 60, 0, 0, 0, 76, 0, 0, 0, 0, 0, 0, 0, 2, 0, 0, 0] ++ [0x20, 0, 0, 0x60]
    ++ List.replicate 16 0
    ++ [0, 0, 0, 0, 1, 0, 0, 0, 4, 0] ++ [8, 0, 0, 0, 1, 0, 0, 0, 2, 0]
    ++ [0x66, 0, 0, 0, 0, 0, 0, 0, 0, 0, 0, 0, 1, 0, 0x20, 0, 2, 0]
    ++ [0x78, 0, 0, 0, 0, 0, 0, 0, 0, 0, 0, 0, 0, 0, 0, 0, 2, 0] ++ [4, 0, 0, 0]).toArray

/-- An image without sections that is to lie above four gigabytes. -/
def image : Bytes :=
  (([0x4d, 0x5a, 0, 0, 0x50, 0x45, 0, 0] : List UInt8) ++ List.replicate 16 0
    ++ [112, 0, 0, 0, 0x0b, 0x02] ++ List.replicate 22 0
    ++ [0, 0, 1, 0, 1, 0, 0, 0] ++ [4, 0, 0, 0] ++ List.replicate 20 0 ++ [0, 0x10, 0, 0]
    ++ [188, 0, 0, 0] ++ List.replicate 48 0 ++ List.replicate 48 0xcc).toArray

/-- The module and the object file. -/
def files : FileTree := { FileTree.empty with
  nodes := [(["m"], .file image (.written 0)), (["o"], .file object (.written 0))] }

/-- The module has the variable, and the patch the function. -/
def tables (path : Path) : ImageTables :=
  ⟨⟨if path = ⟨"/m"⟩ then [("x", 160)] else [("f", 145)], [], []⟩, .empty, .empty, .empty, []⟩

/-- Tables with these symbols alone. -/
def provider : Provider where
  symbols path := .ok (tables path).symbols
  contributions _ := .ok .empty
  compilands _ := .ok .empty
  thunks _ := .ok .empty
  sections _ := .ok []
  linker _ := .ok Relinked.linker

/-- The files, and a linker that writes the patch. -/
def workshop : Workshop :=
  ⟨files, .empty, fun _ t ↦
    (.ok ⟨0, ""⟩, t.put ["m.patch_0.dll"] (.file image (.written 1))), []⟩

/-- A process with the module at a base, and with something else right at four gigabytes, if that is
not the module. -/
def process (pid : UInt32) (base : UInt64) : AttachedProcess where
  target := ((Target.ofPid pid).map 0x100000000 (Bytes.fill 1 0)).map base image
  agent := .willing
  commandThread := none
  moduleBase := base
  redirected := []

/-- The module when it was just loaded. -/
def started : LiveModule where
  settings := .default
  path := ⟨"/m"⟩
  linker := Relinked.linker
  weakSymbols := []
  provider := provider
  workshop := workshop
  registry := Registry.empty.insert ⟨"/m"⟩ (tables ⟨"/m"⟩) 0x1000
  compilands := CompilandTable.empty.timed files
  processes := []
  patches := []
  modified := ∅
  pending := ∅
  counter := 0

/-- The module with a process in which it lies below four gigabytes and one in which it does not. -/
def attached : LiveModule :=
  ((attach (process 8 0x100000000)).run ((attach (process 7 0xffff0000)).run started).2).2

/-- The cycle that builds the patch. -/
def cycled : Outcome CycleOutcome × LiveModule := (updateWithObjects [⟨"/o"⟩]).run attached

/-- The session with another process in which the module lies below four gigabytes. -/
def joined : Outcome Unit × LiveModule := (attach (process 9 0xffff0000)).run cycled.2

/-- The session behind the install in that process. -/
def caught : Outcome Unit × LiveModule := (installPatches 9).run joined.2

/-- The reference by distance. -/
def relative : ReferenceRedirection := ⟨.relative 0, 145, ⟨0⟩, 160, 0⟩

/-- The reference by address. -/
def narrow : ReferenceRedirection := ⟨.narrowVa, 153, ⟨0⟩, 160, 0⟩

/-- The patch has the reference that could be redirected in both processes. -/
def patch : PatchRecord :=
  { PatchRecord.bare ⟨"/m.patch_0.dll"⟩ ⟨1⟩ 0x1000 none with preEntry := [relative] }

/-- What the cycle came to: both references were tried, and one failed in one process. -/
def told : Activation.Told :=
  ⟨patch, [relative, narrow], [[false, false], [false, true]], [], [[], []], [], []⟩

/-- The module and the patch, which are mapped in two processes and in more. -/
def registry (module patch : List Placed) : Registry :=
  ⟨[⟨⟨"/m"⟩, tables ⟨"/m"⟩, 0x1000, [⟨7, 0xffff0000⟩, ⟨8, 0x100000000⟩] ++ module⟩,
    ⟨⟨"/m.patch_0.dll"⟩, tables ⟨"/m.patch_0.dll"⟩, 0x1000,
      [⟨7, 0x100010000⟩, ⟨8, 0x100010000⟩] ++ patch⟩]⟩

/-- The images when the patch was installed. -/
def complete : Registry := registry [⟨9, 0xffff0000⟩] [⟨9, 0x100010000⟩]

/-- What is at the fields of the references. -/
def fields (p : AttachedProcess) : UInt32 × Option Bytes × Option Bytes :=
  (p.pid, (p.target.memory.read 0x100010091 4).toOption,
    (p.target.memory.read 0x100010099 4).toOption)

/-- What the session evaluates to. -/
class Evaluation : Prop where
  size : (⟨⟨"/m"⟩, image⟩ : Image).size = .ok 0x1000
  roomCycled : ∀ p ∈ attached.processes, p.HasRoomFor (registry [] []) attached.registry.next
  runs : (cycled.1 = .ok .success ∧ cycled.2.registry = registry [] [] ∧
      telling ((acceptAll [⟨"/o"⟩] >>= linkUnless).run attached) = some told) ∧
    (joined.1 = .ok () ∧ joined.2.settings.installsLater = true ∧ joined.2.patches = [patch]) ∧
    caught.1 = .ok () ∧ caught.2.registry = complete ∧
    caught.2.processes.map fields = [(7, some #[11, 0, 0xfe, 0xff], some #[160, 0, 0xff, 0xff]),
      (8, some #[11, 0, 0xff, 0xff], some #[0xcc, 0xcc, 0xcc, 0xcc]),
      (9, some #[11, 0, 0xfe, 0xff], some #[0xcc, 0xcc, 0xcc, 0xcc])]
  roomCaught : (process 9 0xffff0000).HasRoomFor complete ⟨1⟩
  writings : relative.writing? ⟨0x100010000, 0x1000⟩ (complete.bases 9)
      = some (0x100010091, #[11, 0, 0xfe, 0xff]) ∧
    narrow.writing? ⟨0x100010000, 0x1000⟩ (complete.bases 9)
      = some (0x100010099, #[160, 0, 0xff, 0xff])
  undisturbed : ∀ r ∈ [relative, narrow], told.IsUndisturbed complete 7 [patch] (.reference r) ∧
    told.IsUndisturbed complete 9 [patch] (.reference r)

instance evaluation : Evaluation where
  size := by decide +kernel
  roomCycled := by decide +kernel
  runs := by decide +kernel
  roomCaught := by decide +kernel
  writings := by decide +kernel
  undisturbed := by decide +kernel

theorem load_image : Image.load files ⟨"/m"⟩ = .ok ⟨⟨"/m"⟩, image⟩ :=
  Image.load_of_size rfl evaluation.size

theorem arises_attached : attached.Arises := by
  have hload : load ⟨"/m"⟩ .default provider workshop = .ok started :=
    load_eq_ok_iff.mpr ⟨_, _, _, _, _, rfl, rfl, load_image, evaluation.size, rfl, rfl⟩
  have hfirst := Arises.operation (.load _ _ _ _ hload) (.attach (process 7 0xffff0000))
    (r := .ok ()) rfl nofun
  exact .operation hfirst (.attach (process 8 0x100000000)) (r := .ok ()) rfl nofun

theorem tells_cycled : Tells (updateWithObjects [⟨"/o"⟩]) attached told cycled.2 where
  run := by
    rw [← evaluation.runs.1.1]
    exact (Prod.eta _).symm
  told := ⟨_, .updateWithObjects _, evaluation.runs.1.2.2⟩

theorem run_joined : (attach (process 9 0xffff0000)).run cycled.2 = (.ok (), joined.2) := by
  rw [← evaluation.runs.2.1.1]
  exact (Prod.eta _).symm

theorem run_caught : (installPatches 9).run joined.2 = (.ok (), caught.2) := by
  rw [← evaluation.runs.2.2.1]
  exact (Prod.eta _).symm

theorem pid_process (pid : UInt32) (base : UInt64) : (process pid base).pid = pid := rfl

theorem process?_joined : joined.2.process? 9 = some (process 9 0xffff0000) := by
  have h := process?_of_attach run_joined
  rwa [pid_process] at h

theorem goesOn (edit : PatchEdit) : GoesOn 7 ⟨1⟩ edit cycled.2 joined.2 := by
  have harises : joined.2.Arises := .operation (tells_cycled.arises arises_attached)
    (.attach (process 9 0xffff0000)) run_joined nofun
  have hother : (process 9 0xffff0000).pid ≠ 7 := by
    rw [pid_process]
    decide
  have hspares : Spares 7 ⟨1⟩ edit cycled.2 joined.2 :=
    (isSameFor_attach run_joined hother).spares harises
  exact .spares .refl hspares

/-- The patch is all that is installed. -/
theorem run_replay : (replay 9 patch).run joined.2 = (.ok (), caught.2) := by
  have hrun := run_caught
  rwa [run_installPatches evaluation.runs.2.1.2.1 process?_joined, evaluation.runs.2.1.2.2,
    forM_singleton] at hrun

theorem installs_caught : Installs 9 joined.2 joined.2.patches
    [patch.sparingIn caught.2.registry (process 9 0xffff0000)] caught.2 := by
  rw [evaluation.runs.2.1.2.2]
  refine .snoc .nil process?_joined (fun _ _ _ ↦ rfl) ?_ run_replay
  rw [evaluation.runs.2.2.2.1]
  exact evaluation.roomCaught

/-- What is at the fields in the process that joined. -/
theorem fields_caught {p : AttachedProcess} (hp : caught.2.process? 9 = some p) :
    p.target.memory.read 0x100010091 4 = .ok #[11, 0, 0xfe, 0xff] ∧
      p.target.memory.read 0x100010099 4 = .ok #[0xcc, 0xcc, 0xcc, 0xcc] := by
  have hmem := List.mem_map_of_mem (f := fields) (List.mem_of_find?_eq_some hp)
  have hpid : (fields p).1 = 9 := pid_of_process? hp
  have heq : fields p = (9, some #[11, 0, 0xfe, 0xff], some #[0xcc, 0xcc, 0xcc, 0xcc]) := by
    rw [evaluation.runs.2.2.2.2] at hmem
    simp only [List.mem_cons, List.not_mem_nil, or_false] at hmem
    rcases hmem with h | h | h
    · rw [h] at hpid
      cases hpid
    · rw [h] at hpid
      cases hpid
    · exact h
  have hok : ∀ {x : Outcome Bytes} {bytes}, x.toOption = some bytes → x = .ok bytes := by
    rintro (_ | _) bytes h
    · cases h
    · exact congrArg _ (Option.some.inj h)
  exact ⟨hok (congrArg (·.2.1) heq), hok (congrArg (·.2.2) heq)⟩

theorem isUndisturbed_caught : ∀ pid ∈ [7, 9], ∀ r ∈ [relative, narrow],
    told.IsUndisturbed caught.2.registry pid caught.2.patches (.reference r) := by
  rw [evaluation.runs.2.2.2.1, installs_caught.same.1, evaluation.runs.2.1.2.2]
  intro pid hpid r hr
  obtain ⟨hbefore, hjoined⟩ := evaluation.undisturbed r hr
  rcases List.mem_cons.mp hpid with rfl | hpid
  · exact hbefore
  · rwa [List.mem_singleton.mp hpid]

/-- Both references can be redirected in the process that joined. -/
theorem allowsEdit_caught : ∀ r ∈ [relative, narrow], caught.2.AllowsEdit 9 ⟨1⟩ (.reference r) := by
  intro r hr p image hp himage
  obtain ⟨hrelative, hnarrow⟩ := fields_caught hp
  rw [evaluation.runs.2.2.2.1] at himage ⊢
  cases himage
  rcases List.mem_cons.mp hr with rfl | hr
  · exact ⟨by decide, _, evaluation.writings.1, _, hrelative⟩
  · obtain rfl := List.mem_singleton.mp hr
    exact ⟨by decide, _, evaluation.writings.2, _, hnarrow⟩

theorem installsEdit_caught {r : ReferenceRedirection} (hr : r ∈ [relative, narrow]) :
    InstallsEdit 9 told (.reference r) joined.2 caught.2 where
  run := run_caught
  room := ⟨_, installs_caught⟩
  process := ⟨_, process?_joined, fun _ _ ↦ rfl, fun _ hr' ↦ (List.not_mem_nil hr').elim⟩
  allows m₁ hrun := by
    have hfirst : joined.2.patches.take told.patch.token.index = [patch] := by
      rw [evaluation.runs.2.1.2.2]
      rfl
    rw [hfirst, forM_singleton, run_replay] at hrun
    rw [← (Prod.mk.inj hrun).2]
    exact allowsEdit_caught r hr

theorem workedEverywhere_relative : told.WorkedEverywhere (.reference relative) := by
  rintro (_ | _ | i) x hx heq
  · revert x
    decide
  · revert x
    decide
  · cases hx

theorem roomy_attached :
    ∀ p ∈ attached.processes, p.HasRoomFor cycled.2.registry attached.registry.next := by
  rw [evaluation.runs.1.2.1]
  exact evaluation.roomCycled

end CaughtUp

/-- The reference by distance, which worked in both processes, is made in the one that joined. -/
theorem relative_reference_is_made_in_later_process :
    .reference CaughtUp.relative ∈ CaughtUp.told.patch.edits ∧
      CaughtUp.told.patch ∈ CaughtUp.caught.2.patches ∧
      ∀ pid ∈ [7, 9], CaughtUp.caught.2.HasEdit pid ⟨1⟩ (.reference CaughtUp.relative) :=
  later_process_receives_what_worked_everywhere (i := 0) CaughtUp.arises_attached
    CaughtUp.tells_cycled CaughtUp.roomy_attached (p := CaughtUp.process 7 0xffff0000) rfl
    (fun _ _ _ ↦ rfl) (.inr (.inr ⟨(CaughtUp.relative, false), by decide, rfl, rfl⟩))
    CaughtUp.workedEverywhere_relative (CaughtUp.goesOn _) (by decide)
    (CaughtUp.installsEdit_caught (by decide))
    fun pid hpid ↦ CaughtUp.isUndisturbed_caught pid hpid _ (by decide)

/-- The reference by address worked in one of two processes. It is not made in a later process,
although the module and the patch lie there as they do in the process where it worked. -/
theorem narrow_reference_is_missing_in_later_process :
    ¬ ∀ (m m₁ m₂ m₃ : LiveModule) (act : CycleM CycleOutcome) (told : Activation.Told) (i : Nat)
        (p : AttachedProcess) (pid : UInt32) (edit : PatchEdit),
      m.Arises → Tells act m told m₁ →
      (∀ p ∈ m.processes, p.HasRoomFor m₁.registry m.registry.next) →
      m.processes[i]? = some p → p.target.gate.IsTolerant → told.IsReceived i edit →
      GoesOn p.pid told.patch.token edit m₁ m₂ → pid ≠ p.pid → InstallsEdit pid told edit m₂ m₃ →
      (∀ id ∈ [p.pid, pid], told.IsUndisturbed m₃.registry id m₃.patches edit) →
      m₃.HasEdit pid told.patch.token edit := by
  intro hcomplete
  obtain ⟨p, image, hp, himage, base, hbase, a, field, ha, hfield, hresolve⟩ :=
    hcomplete _ _ _ _ _ _ 0 (CaughtUp.process 7 0xffff0000) 9 (.reference CaughtUp.narrow)
      CaughtUp.arises_attached CaughtUp.tells_cycled CaughtUp.roomy_attached rfl (fun _ _ _ ↦ rfl)
      (.inr (.inr ⟨(CaughtUp.narrow, false), by decide, rfl, rfl⟩)) (CaughtUp.goesOn _) (by decide)
      (CaughtUp.installsEdit_caught (by decide))
      fun pid hpid ↦ CaughtUp.isUndisturbed_caught pid hpid _ (by decide)
  rw [CaughtUp.evaluation.runs.2.2.2.1] at himage hbase
  cases himage
  cases hbase
  cases ha
  cases hfield.symm.trans (CaughtUp.fields_caught hp).2
  cases hresolve

end LiveModule
end LivePatch
