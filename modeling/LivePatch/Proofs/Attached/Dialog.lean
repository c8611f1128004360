import LivePatch.Patch.Steps
import LivePatch.Proofs.Attached.Informing
import LivePatch.Proofs.Attached.Protocol

/-!
# Dialogs with agents

What an agent was asked to do over a stretch of time, what came back each time, and where its process
stands after it. Only commands count that make an agent do something; those that inform it may come
at any time.
-/

namespace LivePatch

namespace AttachedProcess

variable {p q r : AttachedProcess} {h h' : List Exchange} {α : Type}

/-- Whatever happened to a process, its agent is the same and was only informed meanwhile. -/
structure IsOnlyInformed (p q : AttachedProcess) : Prop where
  reacts : q.agent.reacts = p.agent.reacts
  refusesLoads : q.agent.refusesLoads = p.agent.refusesLoads
  loadAt : q.agent.loadAt = p.agent.loadAt
  sent : ∃ more, q.agent.sent = p.agent.sent ++ more ∧ ∀ s ∈ more, s.command.informs = true

theorem isOnlyInformed_of_agent (hagent : q.agent = p.agent) : p.IsOnlyInformed q :=
  ⟨hagent ▸ rfl, hagent ▸ rfl, hagent ▸ rfl, [], by rw [hagent, List.append_nil],
    fun _ hs ↦ (List.not_mem_nil hs).elim⟩

theorem Informed.isOnlyInformed (h : p.Informed q) : p.IsOnlyInformed q := by
  obtain ⟨more, hsent, hmore⟩ := h.sent
  refine ⟨h.reacts, h.refusesLoads, h.loadAt, more, hsent, fun s hs ↦ ?_⟩
  simpa [Command.informs] using hmore s hs

theorem IsOnlyInformed.trans (h : p.IsOnlyInformed q) (h' : q.IsOnlyInformed r) :
    p.IsOnlyInformed r := by
  obtain ⟨more, hsent, hmore⟩ := h.sent
  obtain ⟨more', hsent', hmore'⟩ := h'.sent
  refine ⟨h'.reacts.trans h.reacts, h'.refusesLoads.trans h.refusesLoads,
    h'.loadAt.trans h.loadAt, more ++ more', ?_, List.forall_mem_append.mpr ⟨hmore, hmore'⟩⟩
  rw [hsent', hsent, List.append_assoc]

/-- One process became another through some exchanges with its agent, which was only informed
between them. -/
inductive History (p : AttachedProcess) : List Exchange → AttachedProcess → Prop where
  | start : History p [] p
  | between {h : List Exchange} {q r : AttachedProcess} (hq : History p h q)
      (hr : q.IsOnlyInformed r) : History p h r
  | exchanged {h : List Exchange} {q : AttachedProcess} (hq : History p h q) (files : FileTree)
      {c : Command} (hc : c.informs = false) :
      History p (h ++ [⟨c, ((exchange files c).run q).1⟩]) ((exchange files c).run q).2

/-- Every command that was sent is noted with the agent. -/
theorem run_exchange_sent (files : FileTree) (c : Command) (p : AttachedProcess) :
    ∃ s, ((exchange files c).run p).2.agent.sent = p.agent.sent ++ [s] ∧ s.command = c := by
  have hserve : ∀ p : AttachedProcess, ((serve files c).run p).2.agent = p.agent := by
    intro p
    have hkeeps : Keeps (fun q : AttachedProcess ↦ q.agent = p.agent) (serve files c) := by
      cases c with
      | loadPatch path =>
        refine Triple.bind_get fun q hq ↦ ?_
        split
        · exact Triple.pure fun _ h ↦ h ▸ hq
        · refine Triple.bind_lift (fun image _ ↦ ?_) fun _ h ↦ h ▸ hq
          have hset : ∀ base, Triple (· = q) (do
              set ({ q with target := q.target.map base image.data } : AttachedProcess)
              pure (Reply.patchLoaded (some base)) : ProcessM Reply)
              (fun _ s ↦ s.agent = p.agent) fun s ↦ s.agent = p.agent := fun base ↦
            Triple.bind (R := fun _ (s : AttachedProcess) ↦ s.agent = p.agent)
              (Triple.set fun _ _ ↦ hq) fun _ ↦ Triple.pure fun _ h ↦ h
          cases q.agent.loadAt with
          | some base => exact hset base
          | none => exact Triple.bind_lift (fun base _ ↦ hset base) fun _ h ↦ h ▸ hq
      | unloadPatch base => exact Keeps.of_run fun _ h ↦ h
      | _ => exact Keeps.pure _
    exact hkeeps.run rfl
  have hagent : ((exchange files c).run p).2.agent = p.agent.noted p.target c := by
    simp only [exchange, run_bind, run_get, run_set]
    cases p.agent.reacts c (p.agent.count c.name)
    · exact hserve _
    · rfl
    · rfl
  exact ⟨_, by rw [hagent]; rfl, rfl⟩

/-- What an agent was asked to do while its process became another one. -/
def requestsTo (p q : AttachedProcess) : List Command :=
  ((q.agent.sent.drop p.agent.sent.length).map Sent.command).filter fun c ↦ !c.informs

/-- The commands of a history are what the agent was asked to do meanwhile. -/
theorem History.requests (hpq : History p h q) : p.requestsTo q = h.map Exchange.command := by
  have hsent : ∃ more, q.agent.sent = p.agent.sent ++ more ∧
      (more.map Sent.command).filter (fun c ↦ !c.informs) = h.map Exchange.command := by
    induction hpq with
    | start => exact ⟨[], by simp, rfl⟩
    | between _ hr ih =>
      obtain ⟨more, hsent, hcommands⟩ := ih
      obtain ⟨news, hnews, hinforms⟩ := hr.sent
      refine ⟨more ++ news, by rw [hnews, hsent, List.append_assoc], ?_⟩
      rw [List.map_append, List.filter_append, hcommands, List.append_right_eq_self,
        List.filter_eq_nil_iff]
      simpa using hinforms
    | @exchanged h q _ files c hc ih =>
      obtain ⟨more, hsent, hcommands⟩ := ih
      obtain ⟨s, hs, rfl⟩ := run_exchange_sent files c q
      refine ⟨more ++ [s], by rw [hs, hsent, List.append_assoc], ?_⟩
      simp [hcommands, hc]
  obtain ⟨more, hsent, hcommands⟩ := hsent
  rw [requestsTo, hsent, List.drop_left, hcommands]

/-- What only depends on what an agent was asked to do. -/
def OfDialog (inv : AttachedProcess → Prop) : Prop :=
  ∀ ⦃q r : AttachedProcess⦄, inv q → q.IsOnlyInformed r → inv r

theorem isOnlyInformed_ofDialog (p : AttachedProcess) : OfDialog p.IsOnlyInformed :=
  fun _ _ hq hr ↦ hq.trans hr

namespace OfDialog

variable {inv : AttachedProcess → Prop}

theorem onTarget (h : OfDialog inv) (act : TargetM α) : Keeps inv (AttachedProcess.onTarget act) :=
  Keeps.of_run fun _ hq ↦ h hq (isOnlyInformed_of_agent rfl)

theorem mark (h : OfDialog inv) (start : UInt64) : Keeps inv (AttachedProcess.mark start) := by
  refine Keeps.modify fun q hq ↦ ?_
  split
  · exact hq
  · exact h hq (isOnlyInformed_of_agent rfl)

theorem unmark (h : OfDialog inv) (start : UInt64) : Keeps inv (AttachedProcess.unmark start) :=
  Keeps.modify fun _ hq ↦ h hq (isOnlyInformed_of_agent rfl)

theorem callIn (h : OfDialog inv) (r : HookRecord) (files : FileTree) (base : UInt64) :
    Keeps inv (r.callIn files base) :=
  Keeps.of_run fun q hq ↦ h hq ((r.informed_callIn files base).run (.refl q)).isOnlyInformed

theorem redirectReferences (h : OfDialog inv) (registry : Registry) (token : Token)
    (records : List ReferenceRedirection) :
    Keeps inv (PatchSteps.redirectReferences registry token records) := by
  refine Keeps.get.bind fun q ↦ ?_
  dsimp only
  split
  · exact Keeps.pure _
  · exact h.onTarget _

theorem prepareEntry (h : OfDialog inv) (registry : Registry) (patch : PatchRecord) :
    Keeps inv (PatchSteps.prepareEntry registry patch) := by
  refine Keeps.get.bind fun q ↦ ?_
  dsimp only
  split
  · exact Keeps.pure _
  · exact h.onTarget _

theorem putBackAll (h : OfDialog inv) (undo : Undo) : Keeps inv (Staged.putBackAll undo) :=
  (h.onTarget _).bind fun _ ↦ Keeps.ensuring
    ((Keeps.forM fun _ _ ↦ h.onTarget _).bind fun _ ↦ Keeps.forM fun _ _ ↦ h.unmark _)
    (h.onTarget _)

end OfDialog

/-- Where a process stands that was another one before. -/
def Stands (p : AttachedProcess) (w : Standing) (q : AttachedProcess) : Prop :=
  ∃ h, p.History h q ∧ Standing.Leads .outside h w

variable {w w' w'' : Standing} {c : Command}

theorem stands_outside (p : AttachedProcess) : p.Stands .outside p := ⟨[], .start, .nil _⟩

/-- Only what its agent is asked to do moves a process on. -/
theorem stands_ofDialog (p : AttachedProcess) (w : Standing) : OfDialog (p.Stands w) :=
  fun _ _ ⟨h, hq, hw⟩ hr ↦ ⟨h, hq.between hr, hw⟩

/-- An exchange is a step from where a process stands. -/
theorem Stands.exchange (hq : p.Stands w q) (files : FileTree) (hc : c.informs = false)
    (hstep : w.Step ⟨c, ((AttachedProcess.exchange files c).run q).1⟩ w') :
    p.Stands w' ((AttachedProcess.exchange files c).run q).2 := by
  obtain ⟨h, hq, hw⟩ := hq
  exact ⟨_, hq.exchanged files hc, hw.snoc hstep⟩

/-- Telling an agent to do something moves its process on, by whether that was acknowledged. -/
theorem stands_tell (files : FileTree) (hc : c.informs = false)
    (hacked : w.Step ⟨c, .ok .ack⟩ w')
    (hother : ∀ reply, reply ≠ .ok .ack → w.Step ⟨c, reply⟩ w'') :
    Triple (p.Stands w) (tell files c) (fun _ ↦ p.Stands w') (p.Stands w'') := by
  intro q hq
  have hexchange : ∀ {w'}, w.Step ⟨c, ((exchange files c).run q).1⟩ w' →
      p.Stands w' ((exchange files c).run q).2 := fun hstep ↦ hq.exchange files hc hstep
  rw [tell, run_bind]
  generalize (exchange files c).run q = r at hexchange ⊢
  rcases r with ⟨e | _ | base, q'⟩
  · exact hexchange (hother _ fun h ↦ by cases h)
  · exact hexchange hacked
  · exact hexchange (hother _ fun h ↦ by cases h)

/-- Telling an agent to do something moves its process on, whatever comes back. -/
theorem stands_tell_any (files : FileTree) (hc : c.informs = false)
    (hstep : ∀ reply, w.Step ⟨c, reply⟩ w') :
    Triple (p.Stands w) (tell files c) (fun _ ↦ p.Stands w') (p.Stands w') :=
  stands_tell files hc (hstep _) fun _ _ ↦ hstep _

/-- Asking an agent to load a patch. -/
theorem stands_loadPatch (files : FileTree) (file : Path) :
    Triple (p.Stands .outside) (loadPatch files file)
      (fun base ↦ p.Stands (base.elim .turnedAway .loaded)) (p.Stands .turnedAway) := by
  intro q hq
  have hexchange : ∀ {w'},
      Standing.outside.Step ⟨.loadPatch file, ((exchange files (.loadPatch file)).run q).1⟩ w' →
      p.Stands w' ((exchange files (.loadPatch file)).run q).2 :=
    fun hstep ↦ hq.exchange files rfl hstep
  rw [loadPatch, run_bind]
  generalize (exchange files (.loadPatch file)).run q = r at hexchange ⊢
  rcases r with ⟨e | _ | _ | base, q'⟩
  · exact hexchange (.fails file nofun)
  · exact hexchange (.fails file nofun)
  · exact hexchange (.fails file nofun)
  · exact hexchange (.loads file base)

/-- The process is at a sync point, whether its entry point was called or not. -/
def IsHeldAt (p : AttachedProcess) (base : UInt64) (q : AttachedProcess) : Prop :=
  ∃ called, p.Stands (.held base called) q

theorem isHeldAt_ofDialog (p : AttachedProcess) (base : UInt64) : OfDialog (p.IsHeldAt base) :=
  fun _ _ ⟨called, hq⟩ hr ↦ ⟨called, stands_ofDialog p _ hq hr⟩

variable {base : UInt64}

/-- Running the entry point of a patch takes one call at most. -/
theorem stands_callOnce (saved : SavedEntryPoint) (files : FileTree) (image : Mapping) :
    Triple (p.Stands (.held base false)) (saved.callOnce files image) (fun _ ↦ p.IsHeldAt base)
      (p.IsHeldAt base) := by
  have hbefore : ∀ {β : Type} (act : TargetM β), Triple (p.Stands (.held base false))
      (onTarget act) (fun _ ↦ p.Stands (.held base false)) (p.IsHeldAt base) := fun act ↦
    ((stands_ofDialog p _).onTarget act).mono (fun _ h ↦ h) (fun _ _ h ↦ h) fun _ h ↦ ⟨_, h⟩
  have hbehind : ∀ {β : Type} (act : TargetM β), Keeps (p.IsHeldAt base) (onTarget act) :=
    fun act ↦ (isHeldAt_ofDialog p base).onTarget act
  have hcall : Triple (p.Stands (.held base false))
      (tell files (.callEntryPoint image.base saved.rva)) (fun _ ↦ p.IsHeldAt base)
      (p.IsHeldAt base) :=
    (stands_tell_any files rfl fun reply ↦ .calls _ _ _ reply).mono (fun _ h ↦ h) (fun _ _ h ↦ ⟨_, h⟩)
      fun _ h ↦ ⟨_, h⟩
  have huncovered : Triple (p.Stands (.held base false)) (saved.callUncovered files image)
      (fun _ ↦ p.IsHeldAt base) (p.IsHeldAt base) := by
    refine Triple.bind (hbefore _) fun _ ↦ Triple.bind (R := fun _ ↦ p.IsHeldAt base)
      (hcall.tried.mono (fun _ h ↦ h) (fun called _ h ↦ ?_) fun _ h ↦ h.elim) fun called ↦
      (hbehind _).bind fun _ ↦ Keeps.lift _
    cases called <;> exact h
  refine Triple.bind_get fun q hq ↦ Triple.bind
    ((hbefore _).mono (fun _ h ↦ h ▸ hq) (fun _ _ h ↦ h) fun _ h ↦ h) fun cave ↦ ?_
  exact Triple.ensuring huncovered (fun _ _ h ↦ (hbehind _).run h) fun _ h ↦ (hbehind _).run h

/-- Running the entry point of a patch takes one call at most, if there is one to run. -/
theorem stands_callEntryPoint (files : FileTree) (registry : Registry) (patch : PatchRecord) :
    Triple (p.Stands (.held base false)) (PatchSteps.callEntryPoint files registry patch)
      (fun _ ↦ p.IsHeldAt base) (p.IsHeldAt base) := by
  refine Triple.bind_get fun q hq ↦ ?_
  split
  · exact (stands_callOnce _ files _).mono (fun _ h ↦ h ▸ hq) (fun _ _ h ↦ h) fun _ h ↦ h
  · exact Triple.pure fun _ h ↦ ⟨_, h ▸ hq⟩

end AttachedProcess
end LivePatch
