import LivePatch.Failure

/-!
# Protocol of a cycle with one process

What an agent may be asked for while a patch is loaded and activated, and in which order. A process
stands somewhere in that protocol, and every exchange with its agent moves it on. How a process
stands at the end of a cycle says what its agent was asked for on the way.
-/

namespace LivePatch

/-- A command that was sent, and what came back. -/
structure Exchange where
  command : Command
  reply : Outcome Reply

/-- Where a process stands in a cycle. -/
inductive Standing where
  | outside
  /-- The patch could not be loaded. -/
  | turnedAway
  | loaded (base : UInt64)
  /-- That it entered a sync point was not acknowledged. -/
  | refused (base : UInt64)
  /-- It is at a sync point, and the entry point of the patch was called or not. -/
  | held (base : UInt64) (called : Bool)
  /-- It was asked to leave the sync point. -/
  | left (base : UInt64)
  /-- The patch was unloaded before the process was asked to enter a sync point. -/
  | withdrawn
  | unloaded

namespace Standing

/-- What an exchange makes of where a process stands. -/
inductive Step : Standing → Exchange → Standing → Prop where
  | loads (file : Path) (base : UInt64) :
    Step .outside ⟨.loadPatch file, .ok (.patchLoaded (some base))⟩ (.loaded base)
  | fails (file : Path) {reply : Outcome Reply}
      (h : ∀ base, reply ≠ .ok (.patchLoaded (some base))) :
    Step .outside ⟨.loadPatch file, reply⟩ .turnedAway
  | enters (base : UInt64) : Step (.loaded base) ⟨.enterSyncPoint, .ok .ack⟩ (.held base false)
  | refuses (base : UInt64) {reply : Outcome Reply} (h : reply ≠ .ok .ack) :
    Step (.loaded base) ⟨.enterSyncPoint, reply⟩ (.refused base)
  | calls (base image : UInt64) (entry : UInt32) (reply : Outcome Reply) :
    Step (.held base false) ⟨.callEntryPoint image entry, reply⟩ (.held base true)
  | leaves (base : UInt64) (called : Bool) (reply : Outcome Reply) :
    Step (.held base called) ⟨.leaveSyncPoint, reply⟩ (.left base)
  | leavesAgain (base : UInt64) (reply : Outcome Reply) :
    Step (.left base) ⟨.leaveSyncPoint, reply⟩ (.left base)
  | withdraws (base : UInt64) (reply : Outcome Reply) :
    Step (.loaded base) ⟨.unloadPatch base, reply⟩ .withdrawn
  | unloads {w : Standing} {base : UInt64} (h : w = .refused base ∨ w = .left base)
      (reply : Outcome Reply) : Step w ⟨.unloadPatch base, reply⟩ .unloaded

/-- What exchanges make of where a process stands, one after another. -/
inductive Leads : Standing → List Exchange → Standing → Prop where
  | nil (w : Standing) : Leads w [] w
  | cons {w w' w'' : Standing} {e : Exchange} {h : List Exchange} (hstep : Step w e w')
      (hrest : Leads w' h w'') : Leads w (e :: h) w''

variable {w w' w'' : Standing} {e : Exchange} {h h' : List Exchange}

theorem leads_append_iff : Leads w (h ++ h') w'' ↔ ∃ w', Leads w h w' ∧ Leads w' h' w'' := by
  constructor
  · intro hleads
    induction h generalizing w with
    | nil => exact ⟨w, .nil w, hleads⟩
    | cons e h ih =>
      cases hleads with
      | cons hstep hrest =>
        obtain ⟨w', hfirst, hsecond⟩ := ih hrest
        exact ⟨w', .cons hstep hfirst, hsecond⟩
  · rintro ⟨w', hfirst, hsecond⟩
    induction hfirst with
    | nil => exact hsecond
    | cons hstep _ ih => exact .cons hstep (ih hsecond)

theorem Leads.snoc (hleads : Leads w h w') (hstep : Step w' e w'') : Leads w (h ++ [e]) w'' :=
  leads_append_iff.mpr ⟨w', hleads, .cons hstep (.nil w'')⟩

/-- An exchange within a history was a step. -/
theorem Leads.split (hleads : Leads w (h ++ e :: h') w'') :
    ∃ w₀ w₁, Leads w h w₀ ∧ Step w₀ e w₁ ∧ Leads w₁ h' w'' := by
  obtain ⟨w₀, hbefore, hrest⟩ := leads_append_iff.mp hleads
  cases hrest with
  | cons hstep hbehind => exact ⟨w₀, _, hbefore, hstep, hbehind⟩

/-- The last exchange of a history. -/
theorem Leads.last (hleads : Leads .outside h w) :
    (h = [] ∧ w = .outside) ∨ ∃ h' e w', h = h' ++ [e] ∧ Leads .outside h' w' ∧ Step w' e w := by
  rcases h.eq_nil_or_concat with rfl | ⟨h', e, rfl⟩
  · cases hleads
    exact .inl ⟨rfl, rfl⟩
  · rw [List.concat_eq_append] at hleads
    obtain ⟨w', w₁, hbefore, hstep, hbehind⟩ := hleads.split
    cases hbehind
    exact .inr ⟨h', e, w', List.concat_eq_append, hbefore, hstep⟩

/-! ### How processes came to stand where they do -/

variable {base : UInt64}

theorem eq_nil_of_outside (hleads : Leads .outside h .outside) : h = [] := by
  rcases hleads.last with ⟨rfl, -⟩ | ⟨_, _, _, _, _, hstep⟩
  · rfl
  · cases hstep

/-- A process that has a patch was asked for nothing else. -/
theorem eq_of_loaded (hleads : Leads .outside h (.loaded base)) :
    ∃ file, h = [⟨.loadPatch file, .ok (.patchLoaded (some base))⟩] := by
  rcases hleads.last with ⟨-, hw⟩ | ⟨h', e, w', rfl, hbefore, hstep⟩
  · cases hw
  · cases hstep with
    | loads file _ =>
      rw [eq_nil_of_outside hbefore]
      exact ⟨file, rfl⟩

/-- A process whose entry point was not called yet came to its sync point right after it got its
patch. -/
theorem eq_of_held (hleads : Leads .outside h (.held base false)) :
    ∃ file, h = [⟨.loadPatch file, .ok (.patchLoaded (some base))⟩,
      ⟨.enterSyncPoint, .ok .ack⟩] := by
  rcases hleads.last with ⟨-, hw⟩ | ⟨h', e, w', rfl, hbefore, hstep⟩
  · cases hw
  · cases hstep with
    | enters _ =>
      obtain ⟨file, rfl⟩ := eq_of_loaded hbefore
      exact ⟨file, rfl⟩

/-! ### What processes are asked for before they stand somewhere -/

/-- The process is at a sync point. -/
def IsHeld (w : Standing) : Prop := ∃ base called, w = .held base called

/-- A process gets away from a sync point by being asked to leave it. -/
theorem Leads.leaves (hleads : Leads w h w') (hw : w.IsHeld) (hw' : ¬ w'.IsHeld) :
    ∃ e ∈ h, e.command = .leaveSyncPoint := by
  induction hleads with
  | nil => exact (hw' hw).elim
  | cons hstep _ ih =>
    obtain ⟨base, called, rfl⟩ := hw
    cases hstep with
    | calls =>
      obtain ⟨e, he, hcommand⟩ := ih ⟨_, _, rfl⟩ hw'
      exact ⟨e, List.mem_cons_of_mem _ he, hcommand⟩
    | leaves => exact ⟨_, List.mem_cons_self .., rfl⟩
    | unloads h => rcases h with h | h <;> cases h

/-- Where the patch lies in the process, if it was loaded and not unloaded yet. -/
def base? : Standing → Option UInt64
  | .loaded base | .refused base | .held base _ | .left base => some base
  | .outside | .turnedAway | .withdrawn | .unloaded => none

/-- The patch was unloaded from the process. -/
def IsRid (w : Standing) : Prop := w = .withdrawn ∨ w = .unloaded

theorem IsRid.not_step (hw : w.IsRid) : ¬ Step w e w' := by
  intro hstep
  rcases hw with rfl | rfl <;> rcases hstep with _ | _ | _ | _ | _ | _ | _ | _ | ⟨h, _⟩ <;>
    rcases h with h | h <;> cases h

/-- An exchange either leaves the patch in the process or is what unloads it. -/
theorem Step.of_base (hstep : Step w e w') (hw : w.base? = some base) :
    (w'.base? = some base ∧ e.command.name ≠ .unloadPatch) ∨
      (w'.IsRid ∧ ∃ reply, e = ⟨.unloadPatch base, reply⟩) := by
  cases hstep with
  | loads | fails => cases hw
  | enters | refuses | calls | leaves | leavesAgain => exact .inl ⟨hw, nofun⟩
  | withdraws =>
    cases hw
    exact .inr ⟨.inl rfl, _, rfl⟩
  | unloads h reply =>
    refine .inr ⟨.inr rfl, reply, ?_⟩
    rcases h with rfl | rfl <;> cases hw <;> rfl

/-- From when it has a patch, a process either keeps it and is not asked to unload it, or is asked
to once, at last. -/
theorem Leads.of_base (hleads : Leads w h w') (hw : w.base? = some base) :
    (w'.base? = some base ∧ ∀ e ∈ h, e.command.name ≠ .unloadPatch) ∨
      (w'.IsRid ∧ ∃ (front : List Exchange) (reply : Outcome Reply),
        h = front ++ [⟨.unloadPatch base, reply⟩] ∧
        ∀ e ∈ front, e.command.name ≠ .unloadPatch) := by
  induction hleads with
  | nil => exact .inl ⟨hw, fun e he ↦ (List.not_mem_nil he).elim⟩
  | @cons w w₁ w' e h hstep hrest ih =>
    rcases hstep.of_base hw with ⟨hw₁, he⟩ | ⟨hrid, reply, rfl⟩
    · rcases ih hw₁ with ⟨hw', hh⟩ | ⟨hrid, front, reply, rfl, hfront⟩
      · exact .inl ⟨hw', List.forall_mem_cons.mpr ⟨he, hh⟩⟩
      · exact .inr ⟨hrid, e :: front, reply, rfl, List.forall_mem_cons.mpr ⟨he, hfront⟩⟩
    · cases hrest with
      | nil => exact .inr ⟨hrid, [], reply, rfl, fun e he ↦ (List.not_mem_nil he).elim⟩
      | cons hstep _ => exact (hrid.not_step hstep).elim

/-! ### Discipline -/

/-- Where a process may stand at the end of a cycle. -/
def IsOver (succeeded : Prop) (w : Standing) : Prop :=
  (succeeded ∧ ∃ base, w = .left base) ∨ (¬ succeeded ∧ (w = .outside ∨ w = .turnedAway ∨ w.IsRid))

theorem IsOver.not_isHeld {succeeded : Prop} (hw : w.IsOver succeeded) : ¬ w.IsHeld := by
  rintro ⟨base, called, rfl⟩
  rcases hw with ⟨-, _, h⟩ | ⟨-, h | h | h | h⟩ <;> cases h

end Standing

/-- What an agent was asked for in a cycle is what it may be asked for. -/
structure IsDisciplined (succeeded : Prop) (h : List Exchange) : Prop where
  /-- A sync point is entered only when the patch is loaded. -/
  enters : ∀ (before : List Exchange) (e : Exchange) (behind : List Exchange),
    h = before ++ e :: behind → e.command = .enterSyncPoint →
    ∃ file base, ⟨.loadPatch file, .ok (.patchLoaded (some base))⟩ ∈ before
  /-- An entry point is called once at most, and only at a sync point. -/
  calls : ∀ (before : List Exchange) (e : Exchange) (behind : List Exchange),
    h = before ++ e :: behind → e.command.name = .callEntryPoint →
    ⟨.enterSyncPoint, .ok .ack⟩ ∈ before ∧
      (∀ e' ∈ before, e'.command.name ≠ .callEntryPoint ∧ e'.command ≠ .leaveSyncPoint) ∧
      ∃ e' ∈ behind, e'.command = .leaveSyncPoint
  /-- A sync point that was entered is left. -/
  leaves : ∀ before behind : List Exchange, h = before ++ ⟨.enterSyncPoint, .ok .ack⟩ :: behind →
    ∃ e ∈ behind, e.command = .leaveSyncPoint
  /-- A patch that was loaded is unloaded once, at last, unless the cycle succeeded. -/
  unloads : ∀ (before : List Exchange) file base (behind : List Exchange),
    h = before ++ ⟨.loadPatch file, .ok (.patchLoaded (some base))⟩ :: behind → ¬ succeeded →
    ∃ (front : List Exchange) (reply : Outcome Reply),
      behind = front ++ [⟨.unloadPatch base, reply⟩] ∧
      ∀ e ∈ front, e.command.name ≠ .unloadPatch
  /-- A patch stays where it is when the cycle succeeded. -/
  stays : succeeded → ∀ e ∈ h, e.command.name ≠ .unloadPatch

/-- Who followed the protocol to one of its ends was disciplined. -/
theorem isDisciplined_of_leads {succeeded : Prop} {w : Standing} {h : List Exchange}
    (hleads : Standing.Leads .outside h w) (hw : w.IsOver succeeded) :
    IsDisciplined succeeded h where
  enters := by
    rintro before ⟨command, reply⟩ behind rfl hcommand
    obtain ⟨w₀, w₁, hbefore, hstep, -⟩ := hleads.split
    cases hcommand
    cases hstep with
    | enters base | refuses base _ =>
      obtain ⟨file, rfl⟩ := Standing.eq_of_loaded hbefore
      exact ⟨file, base, List.mem_singleton.mpr rfl⟩
  calls := by
    rintro before ⟨command, reply⟩ behind rfl hcommand
    obtain ⟨w₀, w₁, hbefore, hstep, hbehind⟩ := hleads.split
    cases hstep with
    | calls base =>
      obtain ⟨file, rfl⟩ := Standing.eq_of_held hbefore
      refine ⟨by simp, ?_, hbehind.leaves ⟨_, _, rfl⟩ hw.not_isHeld⟩
      simp [Command.name]
    | _ => cases hcommand
  leaves := by
    rintro before behind rfl
    obtain ⟨w₀, w₁, -, hstep, hbehind⟩ := hleads.split
    cases hstep with
    | enters base => exact hbehind.leaves ⟨_, _, rfl⟩ hw.not_isHeld
    | refuses _ h => exact (h rfl).elim
  unloads := by
    rintro before file base behind rfl hfailed
    obtain ⟨w₀, w₁, -, hstep, hbehind⟩ := hleads.split
    cases hstep with
    | loads =>
      rcases hbehind.of_base rfl with ⟨hpatch, -⟩ | ⟨-, hunloaded⟩
      · rcases hw with ⟨hsucceeded, -⟩ | ⟨-, rfl | rfl | rfl | rfl⟩
        · exact (hfailed hsucceeded).elim
        all_goals cases hpatch
      · exact hunloaded
    | fails _ h => exact (h base rfl).elim
  stays := by
    intro hsucceeded e he hunload
    obtain ⟨before, behind, rfl⟩ := List.append_of_mem he
    obtain ⟨w₀, w₁, -, hstep, hbehind⟩ := hleads.split
    have hrid : w₁.IsRid := by
      cases hstep with
      | withdraws => exact .inl rfl
      | unloads => exact .inr rfl
      | _ => cases hunload
    cases hbehind with
    | nil =>
      rcases hw with ⟨-, base, rfl⟩ | ⟨hfailed, -⟩
      · rcases hrid with h | h <;> cases h
      · exact hfailed hsucceeded
    | cons hstep _ => exact hrid.not_step hstep

end LivePatch
