import LivePatch.Attached.Process
import LivePatch.Proofs.Attached.Fleet

/-!
# Informed processes

Agents are told what tools printed, and hooks tell a program what happens to it. Neither changes
anything in a process: whatever the agents answer, all that is left of it is what they were sent.
-/

namespace LivePatch

/-- Whether a command informs of something: of output, or through the hooks of a program. -/
def Command.informs (c : Command) : Bool := c.name == .logOutput || c.name == .callHooks

namespace AttachedProcess

/-- A process that nothing happened to since but that its agent was sent commands that inform. -/
structure Informed (p p' : AttachedProcess) : Prop where
  target : p'.target = p.target
  commandThread : p'.commandThread = p.commandThread
  moduleBase : p'.moduleBase = p.moduleBase
  redirected : p'.redirected = p.redirected
  reacts : p'.agent.reacts = p.agent.reacts
  refusesLoads : p'.agent.refusesLoads = p.agent.refusesLoads
  loadAt : p'.agent.loadAt = p.agent.loadAt
  sent : ∃ more, p'.agent.sent = p.agent.sent ++ more ∧
    ∀ s ∈ more, s.command.name = .logOutput ∨ s.command.name = .callHooks

variable {p p' p'' : AttachedProcess}

/-- Nothing happened to a process yet. -/
theorem Informed.refl (p : AttachedProcess) : p.Informed p :=
  ⟨rfl, rfl, rfl, rfl, rfl, rfl, rfl, [], by simp, by simp⟩

/-- Being informed twice. -/
theorem Informed.trans (h : p.Informed p') (h' : p'.Informed p'') : p.Informed p'' := by
  obtain ⟨more, hsent, hmore⟩ := h.sent
  obtain ⟨more', hsent', hmore'⟩ := h'.sent
  refine ⟨h'.target.trans h.target, h'.commandThread.trans h.commandThread,
    h'.moduleBase.trans h.moduleBase, h'.redirected.trans h.redirected, h'.reacts.trans h.reacts,
    h'.refusesLoads.trans h.refusesLoads, h'.loadAt.trans h.loadAt, more ++ more', ?_, ?_⟩
  · rw [hsent', hsent, List.append_assoc]
  · exact List.forall_mem_append.mpr ⟨hmore, hmore'⟩

/-- The identifier of a process that was informed. -/
theorem Informed.pid (h : p.Informed p') : p'.pid = p.pid := congrArg Target.pid h.target

/-- Sending a command that neither loads nor unloads is noted, whatever it comes to. -/
theorem run_exchange_of_isQuiet (files : FileTree) {c : Command} (hc : isQuiet c = true)
    (p : AttachedProcess) :
    ((exchange files c).run p).2 = { p with agent := p.agent.noted p.target c } := by
  simp only [exchange, serve_of_isQuiet files hc, run_bind, run_get, run_set]
  cases p.agent.reacts c (p.agent.count c.name) <;> rfl

/-- Telling an agent something that neither loads nor unloads is noted, whatever it comes to. -/
theorem run_tell_of_isQuiet (files : FileTree) {c : Command} (hc : isQuiet c = true)
    (p : AttachedProcess) :
    ((tell files c).run p).2 = { p with agent := p.agent.noted p.target c } := by
  rw [← run_exchange_of_isQuiet files hc p, tell, run_bind]
  rcases (exchange files c).run p with ⟨_ | reply, s⟩
  · rfl
  · cases reply <;> rfl

theorem isQuiet_of_informs {c : Command} (h : c.informs = true) : isQuiet c = true := by
  cases c <;> first | rfl | cases h

/-- Informing a process does nothing else to it. -/
theorem informed_tell (files : FileTree) {c : Command} (hc : c.informs = true) :
    Keeps p.Informed (tell files c) := by
  apply Keeps.of_run
  intro s hs
  rw [run_tell_of_isQuiet files (isQuiet_of_informs hc)]
  have hname : c.name = .logOutput ∨ c.name = .callHooks := by
    simpa [Command.informs] using hc
  exact hs.trans ⟨rfl, rfl, rfl, rfl, rfl, rfl, rfl, _, rfl, by simpa using hname⟩

end AttachedProcess

namespace HookRecord

/-- Calling hooks only informs. -/
theorem informed_callIn {p : AttachedProcess} (r : HookRecord) (files : FileTree) (base : UInt64) :
    Keeps p.Informed (r.callIn files base) :=
  (Keeps.lift _).bind fun _ ↦ (Keeps.lift _).bind fun _ ↦ AttachedProcess.informed_tell files rfl

end HookRecord

/-- Each of some processes is as another one was but that it was informed since. -/
abbrev Fleet.Informed : Fleet → Fleet → Prop := List.Forall₂ AttachedProcess.Informed

/-- Nothing happened to processes yet. -/
theorem Fleet.informed_refl (fleet : Fleet) : fleet.Informed fleet :=
  List.forall₂_same.mpr fun _ _ ↦ .refl _

/-- Being informed twice. -/
theorem Fleet.informed_trans {fleet fleet' fleet'' : Fleet} (h : fleet.Informed fleet')
    (h' : fleet'.Informed fleet'') : fleet.Informed fleet'' :=
  Pointwise.comp h h' fun _ _ _ hfirst hsecond ↦ hfirst.trans hsecond

variable {fleet : Fleet}

/-- Calling hooks only informs. -/
theorem Hooks.informed_call (files : FileTree) (registry : Registry) (kind : HookKind)
    (exclude : Option Token) :
    Keeps (Fleet.Informed fleet) (Hooks.call files registry kind exclude) :=
  keeps_call_of (fun _ _ r base ↦ r.informed_callIn files base) registry kind exclude

/-- Forwarding output only informs. -/
theorem Output.informed_forward (files : FileTree) (text : String) :
    Keeps (Fleet.Informed fleet) (Each.attempt (Output.forward files text)) :=
  Each.keeps_attempt fun _ _ ↦ Keeps.forM fun _ _ ↦ AttachedProcess.informed_tell files rfl

end LivePatch
