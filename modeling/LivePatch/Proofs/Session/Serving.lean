import LivePatch.Proofs.Patch.Lasting
import LivePatch.Proofs.Session.Growth
import LivePatch.Proofs.Session.Succeeding

/-!
# Processes that are served

A process gets every patch of a session: those that are built while it is attached when they are
built, the earlier ones when they are installed in it, less the functions that one of its threads
was inside. Whatever it gets comes into it where nothing was, so that the jumps to older patches stay
in place. Attaching other processes and installing patches in them leaves it alone.
-/

namespace LivePatch

/-- A patch that is installed in a process again refers back as it did. -/
theorem PatchRecord.RefersBack.sparing {p : PatchRecord} (h : p.RefersBack) (registry : Registry)
    (pid : UInt32) (ips : List UInt64) : (p.sparing registry pid ips).RefersBack where
  references := h.references
  functions r hr := h.functions r (PatchRecord.mem_sparing_iff.mp hr).1
  libraryFunctions := h.libraryFunctions
  preHooks := h.preHooks
  postHooks := h.postHooks

/-- A process that received a patch is the same process. -/
theorem Target.Receives.pid {o : Target} {registry : Registry} {patch : PatchRecord}
    {seen : UInt32 × Memory} (h : o.Receives registry patch seen) : seen.1 = o.pid := by
  obtain ⟨_, _, _, -, -, -, rfl⟩ := h
  rfl

namespace Registry

/-- Where older images are mapped is not changed by an image that is added. -/
theorem mapping?_append_of_lt (r : Registry) (image : RegisteredImage) (pid : UInt32)
    {token : Token} (h : token.index < r.size) :
    (r.append image).mapping? pid token = r.mapping? pid token := by
  have hget : (r.images ++ [image])[token.index]? = r.images[token.index]? :=
    List.getElem?_append_left h
  simp only [mapping?, baseOf?, bases, append, get?, List.getElem?_map, hget]

/-- Where images are mapped in a process does not depend on what is noted for another one. -/
theorem mapping?_register_of_ne (r : Registry) (token : Token) {pid other : UInt32} (hne : other ≠ pid)
    (base : UInt64) (t : Token) :
    (r.register token other base).mapping? pid t = r.mapping? pid t := by
  have hfind : ∀ placed : List Placed,
      (without other placed).find? (fun p ↦ p.pid == pid) = placed.find? fun p ↦ p.pid == pid := by
    intro placed
    rw [without, List.find?_filter]
    refine congrArg (fun isIt ↦ List.find? isIt placed) (funext fun p ↦ ?_)
    by_cases hp : p.pid = pid
    · simp [hp, hne.symm]
    · simp [hp]
  unfold mapping? baseOf? bases get? register modifyAt
  simp only [List.getElem?_map, List.getElem?_modify]
  split
  · cases r.images[t.index]? with
    | none => rfl
    | some image => simp [hfind, hne]
  · simp

end Registry

namespace Chronicle

/-- The redirections of all patches leave room for their jumps. -/
def IsRoomy (c : Chronicle) : Prop := ∀ p ∈ c.patches, ∀ r ∈ p.functions, r.technique.IsRoomy

/-- A patch that is added has room for its jumps. -/
theorem IsRoomy.grows {c c' : Chronicle} (hc : c.IsRoomy) (h : c.Grows c') : c'.IsRoomy := by
  cases h with
  | stays => exact hc
  | adds _ _ _ _ hrun =>
    intro p hp
    rcases List.mem_append.mp hp with hp | hp
    · exact hc p hp
    · rw [List.mem_singleton.mp hp]
      exact (Activation.isRoomy_run _ _ _).ok trivial hrun

end Chronicle

namespace LiveModule

variable {pid : UInt32} {m m' m₁ : LiveModule} {installed : List PatchRecord}

theorem Arises.isRoomy (h : m.Arises) : m.chronicle.IsRoomy :=
  h.chronicle_induction (fun _ _ hp ↦ (List.not_mem_nil hp).elim) fun _ _ hc hgrows ↦ hc.grows hgrows

/-- Patches that are installed in a process one after another, each into room of its own. -/
inductive Installs (pid : UInt32) (m : LiveModule) :
    List PatchRecord → List PatchRecord → LiveModule → Prop where
  | nil : Installs pid m [] [] m
  | snoc {patches installed : List PatchRecord} {patch : PatchRecord} {m₁ m' : LiveModule}
      {p : AttachedProcess} (h : Installs pid m patches installed m₁)
      (process : m₁.process? pid = some p) (gate : p.target.gate.LetsGo)
      (room : p.HasRoomFor m'.registry patch.token)
      (run : (replay pid patch).run m₁ = (.ok (), m')) :
      Installs pid m (patches ++ [patch]) (installed ++ [patch.sparingIn m'.registry p]) m'

/-- Whatever happens to a session in which a process keeps the patches that it has: they are mapped
in it where they were, and the jumps of their redirections stay in place. -/
structure Passes (pid : UInt32) (installed : List PatchRecord) (m m' : LiveModule) : Prop where
  arises : m'.Arises
  patches : m'.patches = m.patches
  mapped : ∀ token, m'.registry.mapping? pid token = m.registry.mapping? pid token
  jumps : ∀ q, m'.process? pid = some q → ∃ p, m.process? pid = some p ∧
    ∀ patch ∈ installed, ∀ r ∈ patch.functions, ∀ image,
      m.registry.mapping? pid patch.token = some image →
      ∀ starts, r.startsIn m.registry pid image = .ok starts →
        p.target.memory.HasFronts starts → q.target.memory.HasFronts starts

/-- Sessions that serve a process, and what of the patches it got: whole patches when they were built
while it was attached, and what a replay does not leave out when they were installed in it. -/
inductive Serves (pid : UInt32) : List PatchRecord → LiveModule → Prop where
  | start {m : LiveModule} (h : m.Arises) (patches : m.patches = []) : Serves pid [] m
  | cycle {installed : List PatchRecord} {m m' : LiveModule} {patch : PatchRecord}
      (h : Serves pid installed m) {act : CycleM CycleOutcome} (hact : IsCycle act)
      (run : act.run m = (.ok .success, m')) (patches : m'.patches = m.patches ++ [patch])
      (room : ∀ p ∈ m.processes, p.HasRoomFor m'.registry m.registry.next) :
      Serves pid (installed ++ [patch]) m'
  | install {installed : List PatchRecord} {m m' : LiveModule} (h : m.Arises)
      (run : (installPatches pid).run m = (.ok (), m'))
      (installs : Installs pid m m.patches installed m') : Serves pid installed m'
  | passes {installed : List PatchRecord} {m m' : LiveModule} (h : Serves pid installed m)
      (passes : Passes pid installed m m') : Serves pid installed m'

theorem IsCycle.isOperation {act : CycleM CycleOutcome} (h : IsCycle act) : IsOperation act := by
  cases h with
  | update => exact .update
  | updateWithObjects objects => exact .updateWithObjects objects

theorem IsCycle.exists_begins {act : CycleM CycleOutcome} (h : IsCycle act) :
    ∃ begin, Begins begin act := by
  cases h with
  | update => exact ⟨_, .update⟩
  | updateWithObjects objects => exact ⟨_, .updateWithObjects objects⟩

theorem Serves.arises (h : m.Serves pid installed) : m.Arises := by
  induction h with
  | start h _ => exact h
  | cycle _ hact hrun _ _ ih => exact .operation ih hact.isOperation hrun nofun
  | install h hrun _ => exact .operation h (.installPatches pid) hrun nofun
  | passes _ hpasses _ => exact hpasses.arises

/-- A patch as a process got it. -/
def IsPartOf (pid : UInt32) (q p : PatchRecord) : Prop :=
  q = p ∨ ∃ registry ips, q = p.sparing registry pid ips

theorem IsPartOf.token {q p : PatchRecord} (h : IsPartOf pid q p) : q.token = p.token := by
  obtain rfl | ⟨_, _, rfl⟩ := h <;> rfl

theorem IsPartOf.functions {q p : PatchRecord} (h : IsPartOf pid q p) : q.functions ⊆ p.functions := by
  obtain rfl | ⟨_, _, rfl⟩ := h
  · exact List.Subset.refl _
  · exact fun r hr ↦ (PatchRecord.mem_sparing_iff.mp hr).1

theorem IsPartOf.refersBack {q p : PatchRecord} (h : IsPartOf pid q p) (hp : p.RefersBack) :
    q.RefersBack := by
  obtain rfl | ⟨_, _, rfl⟩ := h
  · exact hp
  · exact hp.sparing _ _ _

/-- A process has parts of patches, with the jumps of their redirections in place. -/
structure HasInPlace (pid : UInt32) (patches installed : List PatchRecord) (m : LiveModule) : Prop where
  parts : List.Forall₂ (IsPartOf pid) installed patches
  inPlace : ∀ p, m.process? pid = some p →
    PatchRecord.AreInPlace m.registry pid installed p.target.memory

variable {patches : List PatchRecord} {patch q : PatchRecord}

/-- A process keeps what it has when it receives a newer patch. -/
theorem HasInPlace.receive (h : m.HasInPlace pid patches installed) (hpart : IsPartOf pid q patch)
    (holder : ∀ p ∈ patches, p.RefersBack ∧ p.token.index < patch.token.index)
    (hroomy : ∀ p ∈ patches, ∀ r ∈ p.functions, r.technique.IsRoomy)
    (hsame : ∀ token : Token, token.index < patch.token.index →
      m'.registry.mapping? pid token = m.registry.mapping? pid token)
    (hreceives : ∀ p', m'.process? pid = some p' → ∃ p, m.process? pid = some p ∧
      p.target.Receives m'.registry q p'.target.sight) :
    m'.HasInPlace pid (patches ++ [patch]) (installed ++ [q]) := by
  refine ⟨List.rel_append h.parts (.cons hpart .nil), fun p' hp' ↦ ?_⟩
  obtain ⟨p, hp, hreceived⟩ := hreceives p' hp'
  obtain rfl : p.pid = pid := pid_of_process? hp
  refine (h.inPlace p hp).receive (fun a ha r hr ↦ ?_) (fun a ha ↦ ?_) (fun token htoken ↦ ?_) hreceived
  · obtain ⟨b, hb, hab⟩ := Pointwise.exists_right h.parts ha
    exact hroomy b hb r (hab.functions hr)
  · obtain ⟨b, hb, hab⟩ := Pointwise.exists_right h.parts ha
    rw [hab.token, hpart.token]
    exact ⟨hab.refersBack (holder b hb).1, (holder b hb).2⟩
  · exact hsame token (hpart.token ▸ htoken)

/-- A process is found by its identifier. -/
theorem process?_of_mem {p : AttachedProcess} (hm : m.IsConsistent) (hp : p ∈ m.processes) :
    m.process? p.pid = some p := by
  unfold process?
  cases hfound : m.processes.find? fun q ↦ q.pid == p.pid with
  | none => exact absurd (List.find?_eq_none.mp hfound p hp) (by simp)
  | some q =>
    have hpid : q.pid = p.pid := by simpa using List.find?_some hfound
    rw [List.inj_on_of_nodup_map hm.distinct (List.mem_of_find?_eq_some hfound) hp hpid]

/-- The patches of a session that come before another one refer back, and have older tokens. -/
theorem IsInStep.older (h : m.IsInStep) {before rest : List PatchRecord}
    (hpatches : m.patches = before ++ patch :: rest) :
    ∀ p ∈ before, p.RefersBack ∧ p.token.index < patch.token.index := by
  intro p hp
  obtain ⟨i, hi⟩ := List.mem_iff_getElem?.mp hp
  have hlt := (List.getElem?_eq_some_iff.mp hi).1
  have hfirst := h.tokens i p (by rw [hpatches, List.getElem?_append_left hlt, hi])
  have hlast := h.tokens before.length patch (by
    rw [hpatches, List.getElem?_append_right (Nat.le_refl _), Nat.sub_self]
    rfl)
  rw [hfirst, hlast]
  exact ⟨h.refersBack p (hpatches ▸ List.mem_append_left _ hp), Nat.add_lt_add_right hlt 1⟩

/-- The tokens of a session's patches name images of its registry. -/
theorem IsInStep.index_lt (h : m.IsInStep) {p : PatchRecord} (hp : p ∈ m.patches) :
    p.token.index < m.registry.size := by
  obtain ⟨i, hi⟩ := List.mem_iff_getElem?.mp hp
  rw [h.tokens i p hi, h.size]
  exact Nat.succ_lt_succ (List.getElem?_eq_some_iff.mp hi).1

/-- A patch that is added gets the next token. -/
theorem IsInStep.index_last (h : m.IsInStep) (h' : m'.IsInStep)
    (hpatches : m'.patches = m.patches ++ [patch]) : patch.token.index = m.registry.size := by
  rw [h'.tokens m.patches.length patch (by simp [hpatches]), h.size]

/-- A process that an install left in its place is found there. -/
theorem process?_of_processes {p q : AttachedProcess} (hp : m.process? pid = some p)
    (hq : q.pid = pid) (h : m'.processes = (m.putProcess q).processes) : m'.process? pid = some q := by
  have hput := process?_putProcess hp hq
  unfold process? at hput ⊢
  rwa [h]

/-- A patch of a session that is installed in a process is mapped there. -/
theorem mapping?_ne_none_of_replay (hindex : patch.token.index < m.registry.size)
    {p : AttachedProcess} (hp : m.process? pid = some p)
    (hrun : (replay pid patch).run m = (.ok (), m')) :
    m'.registry.mapping? pid patch.token ≠ none := by
  obtain ⟨base, _, hregistry, -⟩ := received_of_replay hp hrun
  rw [hregistry, Registry.mapping?_register, Registry.get?, List.getElem?_eq_getElem hindex]
  exact Option.some_ne_none _

/-- Where the other images are mapped in a process is not changed by the install of a patch. -/
theorem mapping?_of_replay {p : AttachedProcess} (hp : m.process? pid = some p)
    (hrun : (replay pid patch).run m = (.ok (), m')) {t : Token} (hne : patch.token ≠ t) :
    m'.registry.mapping? pid t = m.registry.mapping? pid t := by
  obtain ⟨_, _, hregistry, -⟩ := received_of_replay hp hrun
  rw [hregistry]
  exact Registry.mapping?_modifyAt hne _ pid

/-- Installing patches in a process leaves the patches and the images of a session alone. -/
theorem Installs.same (h : Installs pid m patches installed m') :
    m'.patches = m.patches ∧ m'.registry.size = m.registry.size := by
  induction h with
  | nil => exact ⟨rfl, rfl⟩
  | snoc _ hp _ _ hrun ih =>
    obtain ⟨base, q, hregistry, hpatches, -⟩ := received_of_replay hp hrun
    exact ⟨hpatches.trans ih.1, by rw [hregistry, Registry.size_register, ih.2]⟩

/-- A process that patches were installed in one after another has all of them. -/
theorem Installs.hasInPlace (hm : m.Arises) (h : Installs pid m patches installed m')
    (hfront : ∃ rest, m.patches = patches ++ rest) : m'.HasInPlace pid patches installed := by
  induction h with
  | nil => exact ⟨.nil, fun _ _ p hp ↦ (List.not_mem_nil hp).elim⟩
  | @snoc before installed patch m₁ m' p h hp hgate hroom hrun ih =>
    obtain ⟨rest, hpatches⟩ := hfront
    rw [List.append_assoc, List.singleton_append] at hpatches
    obtain ⟨base, q, hregistry, -, hprocesses, hpid, hreceived⟩ := received_of_replay hp hrun
    have hpatch : patch ∈ m.patches := hpatches ▸ List.mem_append_right _ (List.mem_cons_self ..)
    have hbefore : ∀ a ∈ before, a ∈ m.patches := fun a ha ↦ hpatches ▸ List.mem_append_left _ ha
    have hmapped : m'.registry.mapping? pid patch.token ≠ none :=
      mapping?_ne_none_of_replay (h.same.2 ▸ hm.isInStep.index_lt hpatch) hp hrun
    have hpart : IsPartOf pid (patch.sparingIn m'.registry p) patch :=
      .inr ⟨m'.registry, p.target.threads.map Thread.ip, by
        rw [PatchRecord.sparingIn, pid_of_process? hp]⟩
    refine (ih ⟨_, hpatches⟩).receive hpart (hm.isInStep.older hpatches)
      (fun a ha ↦ hm.isRoomy a (hbefore a ha)) (fun token htoken ↦ ?_) fun p' hp' ↦ ?_
    · exact mapping?_of_replay hp hrun fun heq ↦ Nat.lt_irrefl _ (heq ▸ htoken)
    · cases (process?_of_processes hp hpid hprocesses).symm.trans hp'
      exact ⟨p, hp, hreceived hmapped hgate hroom⟩

/-- A process that a session serves has all its patches in place. -/
theorem Serves.hasInPlace (h : m.Serves pid installed) : m.HasInPlace pid m.patches installed := by
  induction h with
  | start _ hpatches =>
    rw [hpatches]
    exact ⟨.nil, fun _ _ p hp ↦ (List.not_mem_nil hp).elim⟩
  | @cycle installed m m' patch h act hact hrun hpatches hroom ih =>
    obtain ⟨begin, hbegins⟩ := hact.exists_begins
    have hm := h.arises
    have hconsistent := hm.reachable.isConsistent
    obtain ⟨image, patch', hregistry, hpatches', -, hreceived⟩ :=
      hbegins.received hconsistent hrun hroom
    obtain rfl : patch = patch' := by simpa using hpatches.symm.trans hpatches'
    have hm' : m'.Arises := .operation hm hact.isOperation hrun nofun
    have hindex := hm.isInStep.index_last hm'.isInStep hpatches
    rw [hpatches]
    refine ih.receive (.inl rfl) (hm'.isInStep.older hpatches) (fun p hp ↦ hm.isRoomy p hp)
      (fun token htoken ↦ ?_) fun p' hp' ↦ ?_
    · rw [hregistry]
      exact Registry.mapping?_append_of_lt _ _ _ (hindex ▸ htoken)
    · obtain ⟨p, hp, hreceives⟩ := Pointwise.exists_left hreceived (List.mem_of_find?_eq_some hp')
      have hpid : p'.pid = p.pid := hreceives.pid
      exact ⟨p, pid_of_process? hp' ▸ hpid ▸ process?_of_mem hconsistent hp, hreceives⟩
  | install h _ hinstalls =>
    rw [hinstalls.same.1]
    exact hinstalls.hasInPlace h ⟨[], (List.append_nil _).symm⟩
  | @passes installed m m' h hpasses ih =>
    rw [hpasses.patches]
    refine ⟨ih.parts, fun q hq patch hpatch r hr image himage hunshared ↦ ?_⟩
    obtain ⟨p, hp, hjumps⟩ := hpasses.jumps q hq
    have hstarts : r.startsIn m'.registry pid image = r.startsIn m.registry pid image := by
      unfold FunctionRedirection.startsIn
      rw [hpasses.mapped]
    rw [hpasses.mapped] at himage
    obtain ⟨starts, hfound, hfronts⟩ := ih.inPlace p hp patch hpatch r hr image himage
      (hunshared.congr (List.Subset.refl _) (hpasses.mapped _) (hpasses.mapped _)
        fun _ _ ↦ ⟨hpasses.mapped _, fun _ _ ↦ hpasses.mapped _⟩)
    exact ⟨starts, hstarts.trans hfound, hjumps patch hpatch r hr image himage starts hfound hfronts⟩

/-! ### Steps beside a process -/

section Beside

variable {other : UInt32}

theorem process?_putProcess_of_ne {q : AttachedProcess} (hne : q.pid ≠ pid) :
    (m.putProcess q).process? pid = m.process? pid := by
  rw [process?_putProcess_eq_map]
  cases hfound : m.process? pid with
  | none => rfl
  | some r => rw [Option.map_some, if_neg fun h ↦ hne (h.symm.trans (pid_of_process? hfound))]

/-- A session that is as it was for a process. -/
structure IsSameFor (pid : UInt32) (m m' : LiveModule) : Prop where
  patches : m'.patches = m.patches
  mapped : ∀ t, m'.registry.mapping? pid t = m.registry.mapping? pid t
  process : m'.process? pid = m.process? pid

theorem IsSameFor.refl (m : LiveModule) : m.IsSameFor pid m := ⟨rfl, fun _ ↦ rfl, rfl⟩

theorem IsSameFor.trans (h : m.IsSameFor pid m₁) (h' : m₁.IsSameFor pid m') : m.IsSameFor pid m' :=
  ⟨h'.patches.trans h.patches, fun t ↦ (h'.mapped t).trans (h.mapped t),
    h'.process.trans h.process⟩

/-- Attaching another process leaves everything as it was for a process. -/
theorem isSameFor_attach {p : AttachedProcess} (hrun : (attach p).run m = (.ok (), m'))
    (hne : p.pid ≠ pid) : m.IsSameFor pid m' := by
  obtain ⟨-, rfl⟩ := eq_of_attach hrun
  refine ⟨rfl, Registry.mapping?_register_of_ne _ _ hne _, ?_⟩
  have hlast : (p.pid == pid) = false := by simpa using hne
  change List.find? _ (m.processes ++ [p]) = _
  rw [List.find?_append, List.find?_singleton, hlast]
  exact Option.or_none

/-- A process that was attached is there. -/
theorem process?_of_attach {p : AttachedProcess} (hrun : (attach p).run m = (.ok (), m')) :
    m'.process? p.pid = some p := by
  obtain ⟨hnew, rfl⟩ := eq_of_attach hrun
  have hnone : m.processes.find? (fun q ↦ q.pid == p.pid) = none :=
    List.find?_eq_none.mpr fun q hq hpid ↦ hnew q hq (by simpa using hpid)
  change List.find? _ (m.processes ++ [p]) = _
  rw [List.find?_append, hnone, List.find?_singleton, beq_self_eq_true]
  rfl

/-- An install goes through the patches one after another if patches are installed later at all. -/
theorem run_installPatches {p : AttachedProcess} (hlater : m.settings.installsLater = true)
    (hp : m.process? other = some p) :
    (installPatches other).run m = (m.patches.forM (replay other)).run m := by
  unfold installPatches
  rw [run_bind, run_get]
  dsimp only
  rw [hlater, hp]
  rfl

theorem forM_singleton (act : PatchRecord → CycleM Unit) : [patch].forM act = act patch :=
  bind_pure_unit

/-- A patch is installed in a process that is there. -/
theorem exists_process_of_replay (hrun : (replay other patch).run m = (.ok (), m')) :
    ∃ p, m.process? other = some p := by
  unfold replay at hrun
  rw [run_bind, run_get] at hrun
  dsimp only at hrun
  split at hrun
  · cases hrun
  · next p hp => exact ⟨p, hp⟩

/-- Installing a patch in another process leaves everything as it was for a process. -/
theorem isSameFor_replay (hrun : (replay other patch).run m = (.ok (), m')) (hne : other ≠ pid) :
    m.IsSameFor pid m' := by
  obtain ⟨p, hp⟩ := exists_process_of_replay hrun
  obtain ⟨base, q, hregistry, hpatches, hprocesses, hpid, -⟩ := received_of_replay hp hrun
  refine ⟨hpatches, fun t ↦ ?_, ?_⟩
  · rw [hregistry]
    exact Registry.mapping?_register_of_ne _ _ hne base t
  · rw [← process?_putProcess_of_ne (m := m) (hpid.trans_ne hne)]
    unfold process?
    rw [hprocesses]

theorem isSameFor_forM_replay {patches : List PatchRecord} (hne : other ≠ pid)
    (hrun : (patches.forM (replay other)).run m = (.ok (), m')) : m.IsSameFor pid m' := by
  induction patches generalizing m with
  | nil =>
    cases hrun
    exact .refl _
  | cons patch patches ih =>
    obtain ⟨_, s, hfirst, hrest⟩ := run_bind_eq_ok_iff.mp hrun
    exact (isSameFor_replay hfirst hne).trans (ih hrest)

/-- Installing the patches in another process leaves everything as it was for a process. -/
theorem isSameFor_installPatches (hrun : (installPatches other).run m = (.ok (), m'))
    (hne : other ≠ pid) : m.IsSameFor pid m' := by
  unfold installPatches at hrun
  rw [run_bind, run_get] at hrun
  dsimp only at hrun
  split at hrun
  · cases hrun
    exact .refl m
  · split at hrun
    · cases hrun
    · exact isSameFor_forM_replay hne hrun

end Beside

end LiveModule
end LivePatch
