import LivePatch.Proofs.Patch.Making
import LivePatch.Proofs.Patch.Receiving
import LivePatch.Proofs.Redirect.Fitting

/-!
# Patches that take effect

What is done to a process for a patch to take effect there: references are redirected, the entry point
is prepared and called, further references are redirected, and then the functions. Every edit that is
made on the way is in place in the end, unless another one gets into its spots. It is the same whether
the patch was just built or is installed again; only the references that are tried may differ.
-/

namespace LivePatch

/-- A gate that refuses nothing. -/
def Gate.IsOpen (g : Gate) : Prop := ∀ c n, g.refuses c n = false

theorem Gate.IsOpen.isTolerant {g : Gate} (h : g.IsOpen) : g.IsTolerant := fun c n _ ↦ h c n

theorem Gate.IsOpen.letsGo {g : Gate} (h : g.IsOpen) : g.LetsGo := fun c n _ ↦ h c n

/-- What can be read of a memory can be read of another one with the same regions. -/
theorem Memory.AgreesOff.exists_read {P : Places} {m m' : Memory} (h : m.AgreesOff P m')
    {address : UInt64} {len : Nat} {bytes : Bytes} (hread : m.read address len = .ok bytes) :
    ∃ bytes', m'.read address len = .ok bytes' := by
  obtain ⟨r, start, hwindow, -⟩ := Memory.read_eq_ok_iff.mp hread
  obtain ⟨r', hwindow', -⟩ := h.window hwindow
  exact ⟨_, Memory.read_eq_ok_iff.mpr ⟨r', start, hwindow', rfl⟩⟩

/-- A process whose memory is laid out as that of another one and that refuses the same. -/
structure Target.IsShapedAs (o t : Target) : Prop where
  pid : t.pid = o.pid
  refuses : t.gate.refuses = o.gate.refuses
  memory : o.memory.AgreesOff (fun _ _ ↦ True) t.memory

namespace Target

variable {o t : Target}

theorem IsShapedAs.refl (o : Target) : o.IsShapedAs o := ⟨rfl, rfl, .refl _ _⟩

theorem IsShapedAs.trans {u : Target} (h : o.IsShapedAs t) (h' : t.IsShapedAs u) : o.IsShapedAs u :=
  ⟨h'.pid.trans h.pid, h'.refuses.trans h.refuses, h.memory.trans h'.memory⟩

theorem IsShapedAs.isOpen (h : o.IsShapedAs t) (ho : o.gate.IsOpen) : t.gate.IsOpen := by
  unfold Gate.IsOpen
  rw [h.refuses]
  exact ho

theorem IsShapedAs.isTolerant (h : o.IsShapedAs t) (ho : o.gate.IsTolerant) : t.gate.IsTolerant := by
  unfold Gate.IsTolerant
  rw [h.refuses]
  exact ho

/-- What is known of the answer of work is known when the process is suspended around it. -/
theorem triple_suspended_answer {inv : Target → Prop} (h : IgnoresThreads inv) {α : Type}
    {act : TargetM α} {P : α → Prop} (hact : Triple inv act (fun a t ↦ P a ∧ inv t) fun _ ↦ True) :
    Triple inv (suspended act) (fun a t ↦ P a ∧ inv t) fun _ ↦ True :=
  h.suspend.any.bind fun _ ↦ hact.ensuring (fun _ _ ht ↦ ⟨ht.1, h.resume.run ht.2⟩) fun _ ht ↦ ht

/-- A process that is laid out as another one and in which nothing more was allocated. -/
def IsBareAs (o t : Target) : Prop := o.IsShapedAs t ∧ t.nextAllocation = o.nextAllocation

theorem isBareAs_ignoresThreads : IgnoresThreads o.IsBareAs where
  counted := fun _ ⟨h, hnext⟩ ↦ ⟨⟨h.pid, h.refuses, h.memory⟩, hnext⟩
  flushed := fun ⟨h, hnext⟩ ↦ ⟨⟨h.pid, h.refuses, h.memory⟩, hnext⟩
  suspended := fun _ ⟨h, hnext⟩ ↦ ⟨⟨h.pid, h.refuses, h.memory⟩, hnext⟩
  changed := fun _ _ ⟨h, hnext⟩ ↦ ⟨⟨h.pid, h.refuses, h.memory⟩, hnext⟩

/-- Writing into a process does not change how it is laid out. -/
theorem isBareAs_allowsPatch (registry : Registry) (token : Token) :
    AllowsPatch o.pid registry token o.IsBareAs where
  toIgnoresThreads := isBareAs_ignoresThreads
  owner := fun h ↦ h.1.pid
  write := by
    refine fun _ rva bytes ↦ (Keeps.lift _).bind fun _ ↦ (Keeps.lift _).bind fun address ↦
      Keeps.bind ?_ fun _ ↦ isBareAs_ignoresThreads.flush
    refine Keeps.inContext ((isBareAs_ignoresThreads.pass _).bind fun _ ↦ Triple.bind_get fun t ht ↦
      Triple.bind_lift (fun m hm ↦ Triple.set fun _ _ ↦ ?_) fun _ h ↦ h ▸ ht)
    refine ⟨⟨ht.1.pid, ht.1.refuses, ht.1.memory.trans ?_⟩, ht.2⟩
    exact (Memory.agreesOff_write hm).mono fun _ _ _ _ ↦ trivial

end Target

namespace ReferenceRedirection

variable {r : ReferenceRedirection} {patch : Mapping} {bases : List (Option UInt64)}

/-- A redirection that can be made in a process: the field is mapped and takes the value. -/
def IsPossibleIn (r : ReferenceRedirection) (patch : Mapping) (bases : List (Option UInt64))
    (m : Memory) : Prop :=
  r.patchRva.toNat + r.kind.size ≤ patch.size.toNat ∧
    ∃ write, r.writing? patch bases = some write ∧ ∃ old, m.read write.1 r.kind.size = .ok old

theorem IsPossibleIn.agrees {P : Places} {m m' : Memory} (h : r.IsPossibleIn patch bases m)
    (hm : m.AgreesOff P m') : r.IsPossibleIn patch bases m' := by
  obtain ⟨hinside, write, hwrite, old, hread⟩ := h
  exact ⟨hinside, write, hwrite, hm.exists_read hread⟩

/-- Making a redirection that can be made works in a process that refuses nothing. -/
theorem exists_apply {t : Target} (hgate : t.gate.IsOpen) (h : r.IsPossibleIn patch bases t.memory) :
    ∃ t', (r.apply patch bases).run t = (.ok (), t') := by
  obtain ⟨hinside, ⟨p, field⟩, hwriting, old, hread⟩ := h
  obtain ⟨base, s, hbase, hp, hs, hvalue⟩ := writing?_eq_some_iff.mp hwriting
  have hfilled := Field.size_of_value? hvalue
  have hbase : Registry.baseOf? bases r.target = some (⟨base, 0⟩ : Mapping).base := hbase
  obtain ⟨u, hu, hrun⟩ := run_apply hbase hp hs hinside hread ⟨rfl, fun c n _ ↦ hgate c n⟩
  obtain ⟨m', hwrite⟩ := Memory.exists_write_of_read hread hfilled
  obtain ⟨_, t', hwritten, -⟩ := (Mapping.triple_write_serves (hfilled ▸ hinside) hp hwrite).exists_ok hu
  refine ⟨t', ?_⟩
  rw [hrun, run_bind, run_lift,
    Field.relocate_of_value? hvalue ((Memory.size_of_read hread).trans hfilled.symm)]
  exact hwritten

end ReferenceRedirection

namespace PatchSteps

variable {registry : Registry} {token : Token} {q : AttachedProcess}

/-- Redirecting references does not change how a process is laid out, and fails for none that can be
redirected there, if the process refuses nothing. -/
theorem triple_redirectReferences_possible (records : List ReferenceRedirection) :
    Triple (fun p : AttachedProcess ↦ q.target.IsBareAs p.target)
      (redirectReferences registry token records)
      (fun failures p ↦ q.target.IsBareAs p.target ∧ failures.length = records.length ∧
        (q.target.gate.IsOpen → ∀ image, registry.mapping? q.pid token = some image →
          ∀ x ∈ records.zip failures,
            x.1.IsPossibleIn image (registry.bases q.pid) q.target.memory → x.2 = false))
      fun _ ↦ True := by
  refine Triple.bind_get fun p hp ↦ ?_
  rw [show p.pid = q.pid from hp.1.pid]
  dsimp only
  have hallows : Target.AllowsPatch q.target.pid registry token q.target.IsBareAs :=
    Target.isBareAs_allowsPatch registry token
  cases hmapped : registry.mapping? q.pid token with
  | none => exact Triple.pure fun _ h ↦ ⟨h ▸ hp, by simp, fun _ _ h ↦ by cases h⟩
  | some image =>
    have hone : ∀ r ∈ records, Triple q.target.IsBareAs
        (redirectReference image (registry.bases q.pid) r)
        (fun failed t ↦ (q.target.gate.IsOpen →
          r.IsPossibleIn image (registry.bases q.pid) q.target.memory → failed = false) ∧
          q.target.IsBareAs t) fun _ ↦ True := by
      intro r _ t ht
      have hkept := (hallows.redirectReference hmapped (registry.bases q.pid) r) t ht
      rw [run_redirectReference] at hkept ⊢
      rcases happly : (r.apply image (registry.bases q.pid)).run t with ⟨(_ | _) | _, t'⟩
      · rw [happly] at hkept
        refine ⟨fun hopen hpossible ↦ ?_, hkept⟩
        obtain ⟨u, hu⟩ := ReferenceRedirection.exists_apply (ht.1.isOpen hopen)
          (hpossible.agrees ht.1.memory)
        cases happly.symm.trans hu
      · trivial
      · rw [happly] at hkept
        exact ⟨fun _ _ ↦ rfl, hkept⟩
    have hignores : Target.IgnoresThreads q.target.IsBareAs := Target.isBareAs_ignoresThreads
    have hall := Triple.mapM_forall₂ (R := fun (r : ReferenceRedirection) failed ↦
      q.target.gate.IsOpen →
      r.IsPossibleIn image (registry.bases q.pid) q.target.memory → failed = false) hone
    refine (AttachedProcess.triple_target (Target.triple_suspended_answer hignores hall)).mono
      (fun _ h ↦ h ▸ hp) (fun failures p' h ↦ ?_) fun _ h ↦ h
    obtain ⟨hlength, hzip⟩ := List.forall₂_iff_zip.mp h.1
    refine ⟨h.2, hlength.symm, fun hopen image' himage' x hx hpossible ↦ ?_⟩
    cases himage'
    exact hzip hx hopen hpossible

/-- Redirecting references answers for each of them. -/
theorem map_zip_of_redirectReferences {records : List ReferenceRedirection} {failures : List Bool}
    {q' : AttachedProcess}
    (hrun : (redirectReferences registry token records).run q = (.ok failures, q')) :
    (records.zip failures).map Prod.fst = records ∧ (records.zip failures).map Prod.snd = failures := by
  obtain ⟨-, hlength, -⟩ :=
    (triple_redirectReferences_possible records).ok ⟨.refl q.target, rfl⟩ hrun
  exact ⟨List.map_fst_zip (Nat.le_of_eq hlength.symm), List.map_snd_zip (Nat.le_of_eq hlength)⟩

end PatchSteps

/-- No other edit gets into the spots of an edit, and they do not overlap. -/
structure PlacedEdit.IsAlone (e : PlacedEdit) (edits : List PatchEdit) : Prop where
  apart : e.spots.Pairwise Spot.Apart
  spared : ∀ other ∈ edits, e.IsSparedBy other

theorem PlacedEdit.IsAlone.subset {e : PlacedEdit} {edits edits' : List PatchEdit} (h : e.IsAlone edits)
    (hsub : edits' ⊆ edits) : e.IsAlone edits' :=
  ⟨h.apart, fun other hother ↦ h.spared other (hsub hother)⟩

/-- An edit that can be made in a process. Only for the field of a reference this is a question. -/
def PatchEdit.IsPossibleIn (registry : Registry) (pid : UInt32) (image : Mapping) (m : Memory) :
    PatchEdit → Prop
  | .reference r => r.IsPossibleIn image (registry.bases pid) m
  | _ => True

namespace PatchRecord

/-- What a patch records, kind by kind. -/
theorem mem_edits_iff {p : PatchRecord} {edit : PatchEdit} : edit ∈ p.edits ↔
    (∃ r ∈ p.preEntry ++ p.postEntry, .reference r = edit) ∨ edit ∈ p.preparations ∨
      (∃ saved, p.entryPoint = some saved ∧ .entryPoint saved = edit) ∨
      ∃ r ∈ p.redirections, .redirection r = edit := by
  simp only [edits, List.mem_append, List.mem_map, Option.mem_toList, Option.map_eq_some_iff]
  constructor
  · rintro ((((⟨r, hr, heq⟩ | hedit) | hedit) | ⟨r, hr, heq⟩) | hedit)
    · exact .inl ⟨r, .inl hr, heq⟩
    · exact .inr (.inl hedit)
    · exact .inr (.inr (.inl hedit))
    · exact .inl ⟨r, .inr hr, heq⟩
    · exact .inr (.inr (.inr hedit))
  · rintro (⟨r, hr | hr, heq⟩ | hedit | hedit | hedit)
    · exact .inl (.inl (.inl (.inl ⟨r, hr, heq⟩)))
    · exact .inl (.inr ⟨r, hr, heq⟩)
    · exact .inl (.inl (.inl (.inr hedit)))
    · exact .inl (.inl (.inr hedit))
    · exact .inr hedit

/-- Nothing is asked of what is made right before the entry point runs. -/
theorem isSound_of_mem_preparations {p : PatchRecord} {edit : PatchEdit}
    (h : edit ∈ p.preparations) : edit.IsSound := by
  simp only [preparations, List.mem_append, List.mem_map, Option.mem_toList,
    Option.map_eq_some_iff] at h
  rcases h with (⟨_, _, rfl⟩ | ⟨_, _, rfl⟩) | ⟨_, _, rfl⟩ <;> trivial

/-- A patch with the references that were tried in place of those that are recorded. -/
def trying (p : PatchRecord) (pre post : List ReferenceRedirection) : PatchRecord :=
  { p with preEntry := pre, postEntry := post }

/-- What a process received of a patch, if certain references were tried, each noted with whether that
failed. -/
def IsReceived (p : PatchRecord) (tried : List (ReferenceRedirection × Bool)) (edit : PatchEdit) :
    Prop :=
  edit ∈ p.preparations ∨ (∃ r ∈ p.redirections, .redirection r = edit) ∨
    ∃ x ∈ tried, .reference x.1 = edit ∧ x.2 = false

end PatchRecord

/-- A patch takes effect in a process: what is done there, one after another, with the references that
are tried, each with whether that fails, and what is seen of the process in the end. -/
inductive AttachedProcess.Takes (files : FileTree) (registry : Registry) (p : PatchRecord)
    (pre post : List (ReferenceRedirection × Bool)) (q : AttachedProcess) :
    UInt32 × Memory → Prop where
  | intro {q₁ q₂ q₃ q₄ : AttachedProcess} {log : List (UInt64 × Bytes)} {m : Memory}
      (preEntry : (PatchSteps.redirectReferences registry p.token (pre.map Prod.fst)).run q
        = (.ok (pre.map Prod.snd), q₁))
      (prepared : (PatchSteps.prepareEntry registry p).run q₁ = (.ok ⟨⟩, q₂))
      (called : (PatchSteps.callEntryPoint files registry p).run q₂ = (.ok ⟨⟩, q₃))
      (postEntry : (PatchSteps.redirectReferences registry p.token (post.map Prod.fst)).run q₃
        = (.ok (post.map Prod.snd), q₄))
      (writing : p.writesIn registry q₄.pid = .ok log)
      (written : Memory.writeAll log q₄.target.memory = .ok m) :
      Takes files registry p pre post q (q₄.pid, m)

namespace AttachedProcess.Takes

variable {files : FileTree} {p : PatchRecord} {pre post : List (ReferenceRedirection × Bool)}
  {q : AttachedProcess} {seen : UInt32 × Memory} {e : PlacedEdit}

/-- A reference that is redirected is in place behind the redirections, as is what was before. -/
private theorem isSeen_redirectReferences {tried : List (ReferenceRedirection × Bool)}
    {u u' : AttachedProcess} {done : Prop} (hsound : e.edit.IsSound)
    (himage : e.registry.mapping? e.pid p.token = some e.image)
    (hkinds : ∀ x ∈ tried, x.1.kind.isPatchable = true)
    (hspared : ∀ x ∈ tried, e.IsSparedBy (.reference x.1))
    (hrun : (PatchSteps.redirectReferences e.registry p.token (tried.map Prod.fst)).run u
      = (.ok (tried.map Prod.snd), u')) (hu : e.IsSeen done u.target.sight) :
    e.IsSeen (done ∨ ∃ x ∈ tried, .reference x.1 = e.edit ∧ x.2 = false) u'.target.sight := by
  have hmade := (PlacedEdit.isMadeBy_redirectReferences hsound himage (List.forall_mem_map.mpr hkinds)
    (List.forall_mem_map.mpr hspared) done).ok hu hrun
  dsimp only at hmade
  rwa [List.zip_map', List.map_id'] at hmade

/-- Every edit that a process receives is in place in the end if it is alone. -/
theorem stands (h : q.Takes files e.registry p pre post seen) (hgate : q.target.gate.IsTolerant)
    (hpage : q.target.memory.isMapped q.target.nextAllocation = false) (hpid : q.pid = e.pid)
    (himage : e.registry.mapping? e.pid p.token = some e.image) (hsound : e.edit.IsSound)
    (hkinds : ∀ x ∈ pre ++ post, x.1.kind.isPatchable = true)
    (halone : e.IsAlone (p.trying (pre.map Prod.fst) (post.map Prod.fst)).edits)
    (hreceived : p.IsReceived (pre ++ post) e.edit) : e.Stands seen.2 := by
  obtain ⟨hpre, hprepared, hcalled, hpost, hwriting, hwritten⟩ := h
  have hspared := halone.spared
  simp only [PatchRecord.edits, PatchRecord.trying, List.forall_mem_append, List.forall_mem_map,
    Option.mem_toList, Option.map_eq_some_iff] at hspared
  obtain ⟨⟨⟨⟨hspre, hsprepared⟩, hsentry⟩, hspost⟩, hsredirections⟩ := hspared
  obtain ⟨hkpre, hkpost⟩ := List.forall_mem_append.mp hkinds
  have hstart : e.IsSeen False q.target.sight := ⟨hpid, False.elim⟩
  have hfirst := isSeen_redirectReferences hsound himage hkpre hspre hpre hstart
  have hsecond := (PlacedEdit.isMadeBy_prepareEntry hsound himage hsprepared halone.apart _).ok hfirst
    hprepared
  -- up to here, nothing changed of what a cave needs
  have hbare := ((PatchSteps.triple_redirectReferences_possible _).ok ⟨.refl q.target, rfl⟩ hpre).1
  have hbare := ((Target.isBareAs_allowsPatch e.registry p.token).prepareEntry rfl).run_eq hbare
    hprepared
  have hthird := PlacedEdit.keeps_callEntryPoint hsound himage
    (fun saved hsaved ↦ hsentry _ ⟨saved, hsaved, rfl⟩) (hbare.1.isTolerant hgate)
    (by rw [hbare.2, ← hbare.1.memory.isMapped, hpage]) hcalled hsecond
  have hfourth := isSeen_redirectReferences hsound himage hkpost hspost hpost hthird
  obtain ⟨hpid', hdone⟩ := hfourth
  have hpid' : _ = e.pid := hpid'
  rw [← hpid'] at himage
  obtain ⟨logs, hlogs, rfl⟩ := p.exists_logs himage hwriting
  rw [hpid'] at hlogs
  refine PlacedEdit.stands_of_writeAll hsound hlogs hsredirections halone.apart hwritten ?_
  rcases hreceived with hedit | hredirection | ⟨x, hx, heq, hworked⟩
  · exact .inl (hdone (.inl (.inr hedit)))
  · exact .inr hredirection
  · refine .inl (hdone ?_)
    rcases List.mem_append.mp hx with hx | hx
    · exact .inl (.inl (.inr ⟨x, hx, heq, hworked⟩))
    · exact .inr ⟨x, hx, heq, hworked⟩

/-- A patch that takes effect does not change how memory is laid out, and of the references that can
be redirected none fails in a process that refuses nothing. -/
theorem lays_out {registry : Registry} (h : q.Takes files registry p pre post seen)
    (hgate : q.target.gate.IsTolerant)
    (hpage : q.target.memory.isMapped q.target.nextAllocation = false) :
    q.target.memory.AgreesOff (fun _ _ ↦ True) seen.2 ∧ (q.target.gate.IsOpen →
      ∀ image, registry.mapping? q.pid p.token = some image → ∀ x ∈ pre ++ post,
        x.1.IsPossibleIn image (registry.bases q.pid) q.target.memory → x.2 = false) := by
  obtain ⟨hpre, hprepared, hcalled, hpost, -, hwritten⟩ := h
  obtain ⟨hfirst, -, hwpre⟩ :=
    (PatchSteps.triple_redirectReferences_possible _).ok ⟨.refl q.target, rfl⟩ hpre
  have hsecond := ((Target.isBareAs_allowsPatch registry p.token).prepareEntry rfl).run_eq hfirst
    hprepared
  have hin := PatchSteps.within_callEntryPoint (P := fun _ _ ↦ True)
    (hsecond.1.isTolerant hgate) (by rw [hsecond.2, ← hsecond.1.memory.isMapped, hpage]) hcalled
    fun _ _ _ _ _ _ _ ↦ trivial
  have hthird := hsecond.1.trans ⟨hin.target.pid, hin.target.refuses, hin.target.memory⟩
  obtain ⟨hfourth, -, hwpost⟩ :=
    (PatchSteps.triple_redirectReferences_possible _).ok ⟨.refl _, rfl⟩ hpost
  refine ⟨(hthird.trans hfourth.1).memory.trans
    ((Memory.agreesOff_writeAll hwritten).mono fun _ _ _ _ ↦ trivial), fun hopen image himage x hx hx' ↦ ?_⟩
  rw [List.zip_map', List.map_id'] at hwpre hwpost
  rcases List.mem_append.mp hx with hx | hx
  · exact hwpre hopen image himage x hx hx'
  · have hpid : _ = q.pid := hthird.pid
    rw [← hpid] at himage hx'
    exact hwpost (hthird.isOpen hopen) image himage x hx (hx'.agrees hthird.memory)

end AttachedProcess.Takes

/-- Work on a process that a patch is activated in is work on the process. -/
theorem Staged.run_of_onProcess {α : Type} {act : ProcessM α} {s t : Staged} {a : α}
    (h : (onProcess act).run s = (.ok a, t)) : act.run s.process = (.ok a, t.process) := by
  rw [run_onProcess] at h
  obtain ⟨hanswer, rfl⟩ := Prod.mk.inj h
  exact Prod.ext hanswer rfl

namespace PatchRecord

/-- A patch that is installed again takes effect in the process, but for the functions that a thread
is inside. -/
theorem takes_replay {p : PatchRecord} {files : FileTree} {registry : Registry} {q : AttachedProcess}
    {t : Staged} (hgate : q.target.gate.LetsGo)
    (hrun : (p.replay files registry).run (.ofProcess q) = (.ok ⟨⟩, t)) :
    ∃ (q' : AttachedProcess) (pre post : List (ReferenceRedirection × Bool)), q'.target = q.target ∧
      pre.map Prod.fst = p.preEntry ∧ post.map Prod.fst = p.postEntry ∧
      q'.Takes files registry (p.sparingIn registry q) pre post t.sight := by
  unfold replay at hrun
  obtain ⟨_, s₁, hhold, hrun⟩ := run_bind_eq_ok_iff.mp hrun
  obtain ⟨_, s₂, hhooks, hrun⟩ := run_bind_eq_ok_iff.mp hrun
  obtain ⟨preFailures, s₃, hpre, hrun⟩ := run_bind_eq_ok_iff.mp hrun
  obtain ⟨_, s₄, hprepared, hrun⟩ := run_bind_eq_ok_iff.mp hrun
  obtain ⟨_, s₅, hcalled, hrun⟩ := run_bind_eq_ok_iff.mp hrun
  obtain ⟨postFailures, s₆, hpost, hrun⟩ := run_bind_eq_ok_iff.mp hrun
  obtain ⟨_, s₇, hfunctions, hrun⟩ := run_bind_eq_ok_iff.mp hrun
  obtain ⟨_, s₈, hlast, hletGo⟩ := run_bind_eq_ok_iff.mp hrun
  have hhooksKeep : ∀ {I : Target → Prop} hooks, Keeps (fun s ↦ I (Staged.process s).target)
      (Staged.onProcess (callHooks files registry hooks)) := fun hooks ↦
    Staged.triple_onProcess (keeps_callHooks_of (fun r base ↦ r.keeps_callIn_target files base) hooks)
  have hheld : s₁.process.target = q.target :=
    (Staged.keeps_hold_target (I := (· = q.target))).run_eq rfl hhold
  have hcalledHooks : s₂.process.target = q.target :=
    (hhooksKeep (I := (· = q.target)) _).run_eq hheld hhooks
  -- the threads are where they were found when the functions are redirected
  have hstep : ∀ {α : Type} {act : ProcessM α} {s s' : Staged} {a : α}, Keeps (q.UnderWay 0) act →
      Staged.UnderWay q 0 s → (Staged.onProcess act).run s = (.ok a, s') → Staged.UnderWay q 0 s' :=
    fun h hs hrun ↦ h.run_eq hs (Staged.run_of_onProcess hrun)
  have hunder : Staged.UnderWay q 0 s₆ := by
    have h₁ : Staged.UnderWay q 0 s₁ :=
      (Staged.underWay_hold files).run_eq (s := .ofProcess q) (AttachedProcess.UnderWay.refl q) hhold
    have h₂ := (underWay_callHooks files registry _).run_eq h₁ hhooks
    have h₃ := hstep (PatchSteps.underWay_redirectReferences hgate _ _ _) h₂ hpre
    have h₄ := hstep (PatchSteps.underWay_prepareEntry hgate _ _) h₃ hprepared
    have h₅ := hstep (PatchSteps.underWay_callEntryPoint hgate _ _ _) h₄ hcalled
    exact hstep (PatchSteps.underWay_redirectReferences hgate _ _ _) h₅ hpost
  have hips : s₆.ips = q.target.threads.map Thread.ip := congrArg _ hunder.2.threads
  have hpid : s₆.process.pid = q.pid := hunder.2.pid
  rw [run_redirectFunctions] at hfunctions
  obtain ⟨⟨log, m, hwriting, hwritten, hseen⟩, -⟩ :=
    (p.triple_redirectFunctions s₆).ok ⟨rfl, rfl⟩ hfunctions
  rw [hips, hpid] at hwriting
  have hseen : t.sight = (s₆.process.pid, m) := by
    have h₈ := (hhooksKeep (I := fun t ↦ t.sight = s₇.sight) _).run_eq rfl hlast
    have h₉ := (Staged.keeps_letGo_target (I := fun t ↦ t.sight = s₇.sight)).run_eq h₈ hletGo
    exact h₉.trans hseen
  have hpre := Staged.run_of_onProcess hpre
  have hpost := Staged.run_of_onProcess hpost
  obtain ⟨hpreFst, hpreSnd⟩ := PatchSteps.map_zip_of_redirectReferences hpre
  obtain ⟨hpostFst, hpostSnd⟩ := PatchSteps.map_zip_of_redirectReferences hpost
  refine ⟨s₂.process, p.preEntry.zip preFailures, p.postEntry.zip postFailures, hcalledHooks,
    hpreFst, hpostFst, ?_⟩
  rw [hseen]
  refine .intro ?_ (Staged.run_of_onProcess hprepared) (Staged.run_of_onProcess hcalled) ?_ ?_ hwritten
  · rw [hpreFst, hpreSnd]
    exact hpre
  · rw [hpostFst, hpostSnd]
    exact hpost
  · rw [hpid]
    exact hwriting

/-- What is left of a patch for a process is recorded in it. -/
theorem edits_sparingIn_subset (p : PatchRecord) (registry : Registry) (q : AttachedProcess) :
    (p.sparingIn registry q).edits ⊆ p.edits := by
  intro edit hedit
  rw [mem_edits_iff] at hedit ⊢
  refine hedit.imp_right (Or.imp_right (Or.imp_right ?_))
  rintro ⟨r, hr, heq⟩
  refine ⟨r, ?_, heq⟩
  unfold redirections at hr ⊢
  rcases List.mem_append.mp hr with hr | hr
  · obtain ⟨f, hf, rfl⟩ := List.mem_map.mp hr
    exact List.mem_append_left _ (List.mem_map_of_mem (mem_sparing_iff.mp hf).1)
  · exact List.mem_append_right _ hr

/-- Behind an installation in a process that refuses nothing, an edit that is recorded is in place, if
it can be made, is alone and is not left out for a thread. -/
theorem edit_stands_replay {p : PatchRecord} {files : FileTree} {e : PlacedEdit} {q : AttachedProcess}
    {t : Staged} (hgate : q.target.gate.IsOpen)
    (hpage : q.target.memory.isMapped q.target.nextAllocation = false) (hpid : q.pid = e.pid)
    (himage : e.registry.mapping? e.pid p.token = some e.image) (hsound : e.edit.IsSound)
    (hkinds : ∀ r ∈ p.preEntry ++ p.postEntry, r.kind.isPatchable = true)
    (halone : e.IsAlone p.edits) (hedit : e.edit ∈ (p.sparingIn e.registry q).edits)
    (hpossible : e.edit.IsPossibleIn e.registry e.pid e.image t.process.target.memory)
    (hrun : (p.replay files e.registry).run (.ofProcess q) = (.ok ⟨⟩, t)) :
    e.Stands t.process.target.memory := by
  obtain ⟨q', pre, post, htarget, hpre, hpost, htakes⟩ := takes_replay hgate.letsGo hrun
  have hpid' : q'.pid = e.pid := (congrArg Target.pid htarget).trans hpid
  rw [← htarget] at hgate hpage
  obtain ⟨hagrees, hworked⟩ := htakes.lays_out hgate.isTolerant hpage
  have hrecorded : (pre ++ post).map Prod.fst = p.preEntry ++ p.postEntry := by
    rw [List.map_append, hpre, hpost]
  have hall : e.IsAlone ((p.sparingIn e.registry q).trying (pre.map Prod.fst) (post.map Prod.fst)).edits := by
    rw [hpre, hpost]
    exact halone.subset (p.edits_sparingIn_subset e.registry q)
  have hkinds' : ∀ x ∈ pre ++ post, x.1.kind.isPatchable = true := fun x hx ↦
    hkinds x.1 (hrecorded ▸ List.mem_map_of_mem hx)
  rcases mem_edits_iff.mp hedit with ⟨r, hr, heq⟩ | hedit | ⟨saved, -, heq⟩ | hedit
  · refine htakes.stands hgate.isTolerant hpage hpid' himage hsound hkinds' hall (.inr (.inr ?_))
    have hr : r ∈ (pre ++ post).map Prod.fst := hrecorded ▸ hr
    obtain ⟨x, hx, rfl⟩ := List.mem_map.mp hr
    refine ⟨x, hx, heq, hworked hgate e.image (hpid' ▸ himage) x hx ?_⟩
    rw [← heq] at hpossible
    rw [hpid']
    exact ReferenceRedirection.IsPossibleIn.agrees hpossible hagrees.symm
  · exact htakes.stands hgate.isTolerant hpage hpid' himage hsound hkinds' hall (.inl hedit)
  · unfold PlacedEdit.Stands
    rw [← heq]
    trivial
  · exact htakes.stands hgate.isTolerant hpage hpid' himage hsound hkinds' hall (.inr (.inl hedit))

end PatchRecord
end LivePatch
