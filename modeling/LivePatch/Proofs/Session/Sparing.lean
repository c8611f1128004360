import LivePatch.Proofs.Patch.Redirecting
import LivePatch.Proofs.Redirect.Threads
import LivePatch.Proofs.Session.Identity
import LivePatch.Session.Replay

/-!
# Redirections spare running code

A redirection that is installed again in a process passes over the functions that a thread of the
process runs inside. A redirection that was just planned is installed unchecked, so that its
technique has to be safe already: it is in the processes in which nothing runs behind the bytes that
were looked at there.
-/

namespace LivePatch

namespace Target

variable {threads : List Thread}

theorem keeps_threads_pass (c : Call) : Keeps (·.threads = threads) (pass c) := by
  apply Keeps.of_run
  intro t ht
  rw [run_pass]
  exact ht

theorem keeps_threads_suspend : Keeps (·.threads = threads) suspend :=
  (keeps_threads_pass _).bind fun _ ↦ Keeps.modify fun _ ht ↦ ht

/-- A thread is found by its identifier. -/
theorem find?_threads {t : Target} {th : Thread} (h : th ∈ t.threads) :
    (t.threads.find? fun th' ↦ th'.id == th.id) = some th := by
  cases hf : t.threads.find? fun th' ↦ th'.id == th.id with
  | none => exact absurd (List.find?_eq_none.mp hf th h) (by simp)
  | some th' =>
    have hid : th'.id = th.id := by simpa using List.find?_some hf
    rw [List.inj_on_of_nodup_map t.distinct (List.mem_of_find?_eq_some hf) h hid]

/-- Where a thread runs is where it was. -/
theorem triple_threadIp {th : Thread} (hth : th ∈ threads) :
    Triple (·.threads = threads) (threadIp th.id) (fun ip t ↦ ip = th.ip ∧ t.threads = threads)
      (·.threads = threads) := by
  refine Triple.bind (keeps_threads_pass _) fun _ t ht ↦ ?_
  rw [run_bind, run_thread, find?_threads (ht ▸ hth)]
  exact ⟨rfl, ht⟩

/-- Where the threads run is where they were. -/
theorem triple_threadIps :
    Triple (·.threads = threads) threadIps
      (fun ips t ↦ ips = threads.map Thread.ip ∧ t.threads = threads) (·.threads = threads) := by
  have hids : Triple (·.threads = threads) threadIds
      (fun ids t ↦ ids = threads.map Thread.id ∧ t.threads = threads) (·.threads = threads) :=
    Triple.bind (keeps_threads_pass _) fun _ ↦ Triple.bind_get fun t ht ↦ Triple.pure fun s hs ↦
      ⟨congrArg (List.map Thread.id) ht, hs ▸ ht⟩
  refine hids.bind fun ids ↦ Triple.of_pre fun t ⟨hids, ht⟩ ↦ ?_
  subst hids
  have hips : Triple (·.threads = threads) ((threads.map Thread.id).mapM threadIp)
      (fun ips t ↦ List.Forall₂ (fun id ip ↦ ∀ th ∈ threads, th.id = id → ip = th.ip)
        (threads.map Thread.id) ips ∧ t.threads = threads) (·.threads = threads) := by
    refine Triple.mapM_forall₂ fun id hid ↦ ?_
    obtain ⟨th, hth, rfl⟩ := List.mem_map.mp hid
    refine Triple.mono (triple_threadIp hth) (fun _ h ↦ h) ?_ fun _ h ↦ h
    rintro ip s ⟨rfl, hs⟩
    refine ⟨fun th' hth' hid ↦ ?_, hs⟩
    rw [List.inj_on_of_nodup_map (hs ▸ s.distinct) hth' hth hid]
  refine hips.mono (fun s hs ↦ hs ▸ ht) ?_ fun _ h ↦ h
  rintro ips s ⟨hall, hs⟩
  have heq : List.Forall₂ (· = ·) (threads.map Thread.ip) ips := by
    rw [List.forall₂_map_left_iff] at hall ⊢
    exact Pointwise.imp_of_mem hall fun th hth ip _ hip ↦ (hip th hth rfl).symm
  rw [List.forall₂_eq_eq_eq] at heq
  exact ⟨heq.symm, hs⟩

end Target

/-- A redirection is left out when a thread runs inside its span. -/
theorem PatchSteps.isUnsafe_eq_ok_iff {ips : List UInt64} {r : FunctionRedirection}
    {start : UInt64} {found : Bool} :
    isUnsafe true ips r start = .ok found ↔ isInside ips start r.span = .ok found := by
  unfold isUnsafe FunctionRedirection.isSafe
  cases isInside ips start r.span with
  | error e => simp [bind, Except.bind]
  | ok b => simp [bind, Except.bind, pure, Except.pure]

namespace FunctionRedirection

/-- A thread of a process runs inside what the redirection replaces. -/
def IsEntered (registry : Registry) (pid : UInt32) (ips : List UInt64) (r : FunctionRedirection) :
    Prop :=
  ∃ existing start, registry.mapping? pid r.existing = some existing ∧
    existing.address r.existingRva = .ok start ∧ RunsInside ips start r.span

/-- Whether the redirection is found unsafe in a process. -/
def isLeftOut (registry : Registry) (pid : UInt32) (ips : List UInt64) (r : FunctionRedirection) :
    Bool :=
  match registry.mapping? pid r.existing with
  | none => false
  | some existing =>
    match existing.address r.existingRva with
    | .error _ => false
    | .ok start =>
      match r.isSafe start ips with
      | .ok isSafe => !isSafe
      | .error _ => false

/-- A redirection is left out where it is found that a thread runs inside its span. -/
theorem isLeftOut_iff {registry : Registry} {pid : UInt32} {ips : List UInt64}
    {r : FunctionRedirection} :
    r.isLeftOut registry pid ips = true ↔ ∃ existing start,
      registry.mapping? pid r.existing = some existing ∧
        existing.address r.existingRva = .ok start ∧ isInside ips start r.span = .ok true := by
  unfold isLeftOut
  cases registry.mapping? pid r.existing with
  | none => simp
  | some existing =>
    cases haddress : existing.address r.existingRva with
    | error e => simp [haddress]
    | ok start =>
      unfold isSafe
      cases hinside : isInside ips start r.span with
      | error e => simp [haddress, hinside, bind, Except.bind]
      | ok b => simp [haddress, hinside, bind, Except.bind, pure, Except.pure]

/-- What is left out of a process is run there. -/
theorem isEntered_of_isLeftOut {registry : Registry} {pid : UInt32} {ips : List UInt64}
    {r : FunctionRedirection} (h : r.isLeftOut registry pid ips = true) :
    r.IsEntered registry pid ips := by
  obtain ⟨existing, start, hexisting, hstart, hinside⟩ := isLeftOut_iff.mp h
  exact ⟨existing, start, hexisting, hstart, runsInside_of_isInside hinside⟩

end FunctionRedirection

namespace PatchSteps

open FunctionRedirection

variable {registry : Registry} {pid : UInt32} {image : Mapping} {ips : List UInt64}
  {r : FunctionRedirection}

/-- A redirection that is left out of a process changes nothing there. -/
theorem run_redirectFunction_of_isLeftOut {s : Staged}
    (h : r.isLeftOut registry s.process.pid ips = true) :
    (redirectFunction registry image ips true r).run s = (.ok (), s) := by
  obtain ⟨existing, start, hexisting, hstart, hinside⟩ := isLeftOut_iff.mp h
  unfold redirectFunction
  rw [run_bind, run_get]
  dsimp only
  rw [hexisting]
  dsimp only
  rw [run_bind, run_lift, hstart]
  dsimp only
  rw [run_bind, run_lift, isUnsafe_eq_ok_iff.mpr hinside]
  rfl

/-- What is saved of an image is no larger than the image. -/
theorem triple_save_len (image : Mapping) (rva : UInt32) (len : Nat) :
    Triple (Staged.Is pid) (Staged.save image rva len)
      (fun _ s ↦ len < UInt64.size ∧ Staged.Is pid s) fun _ ↦ True := by
  have hread : Triple (fun _ ↦ True) (image.read rva len) (fun _ _ ↦ len < UInt64.size)
      fun _ ↦ True := by
    refine Triple.bind_lift (fun _ hcheck ↦ ?_) fun _ _ ↦ trivial
    have hlen : len < UInt64.size := by
      unfold Mapping.check at hcheck
      split at hcheck
      · next hle =>
        have := image.size.toNat_lt
        exact Nat.lt_of_le_of_lt (m := 2 ^ 32) (by omega) (by decide)
      · cases hcheck
    exact (Keeps.triv _).mono (fun _ h ↦ h) (fun _ _ _ ↦ hlen) fun _ h ↦ h
  have hsave : Triple (fun _ ↦ True) (Staged.save image rva len) (fun _ _ ↦ len < UInt64.size)
      fun _ ↦ True := by
    exact Triple.bind_lift (fun address _ ↦ Triple.bind (Staged.triple_onTarget hread)
      fun _ ↦ Triple.modify fun _ h ↦ h) fun _ h ↦ h
  exact (hsave.and (Staged.is_save image rva len)).mono (fun _ hs ↦ ⟨trivial, hs⟩)
    (fun _ _ h ↦ h) fun _ _ ↦ trivial

private theorem mem_overwritten {ranges : List (UInt32 × Nat)} (h : r.overwritten = .ok ranges) :
    (r.existingRva, r.span) ∈ ranges := by
  unfold overwritten at h
  unfold span
  dsimp only at h
  split at h
  · cases h
    simp
  · obtain ⟨padding, -, h⟩ := Outcome.bind_eq_ok_iff.mp h
    cases h
    simp

/-- A redirection that is neither left out nor refused is run by no thread. -/
theorem triple_redirectFunction_checked (h : r.isLeftOut registry pid ips = false) :
    Triple (Staged.Is pid) (redirectFunction registry image ips true r)
      (fun _ s ↦ ¬r.IsEntered registry pid ips ∧ Staged.Is pid s) fun _ ↦ True := by
  refine Triple.bind_get fun s hpid ↦ ?_
  rw [show s.process.pid = pid from hpid]
  cases hexisting : registry.mapping? pid r.existing with
  | none =>
    refine Triple.pure fun _ hs ↦ ⟨?_, hs ▸ hpid⟩
    rintro ⟨existing, -, hmapping, -⟩
    cases hexisting.symm.trans hmapping
  | some existing =>
    refine Triple.bind_lift (fun start hstart ↦ Triple.bind_lift (fun found hfound ↦ ?_) fun _ _ ↦
      trivial) fun _ _ ↦ trivial
    have hinside := isUnsafe_eq_ok_iff.mp hfound
    cases found with
    | true =>
      have := isLeftOut_iff.mpr ⟨existing, start, hexisting, hstart, hinside⟩
      rw [h] at this
      cases this
    | false =>
      refine Triple.bind_lift (fun ranges hranges ↦ ?_) fun _ _ ↦ trivial
      have hsaves : Triple (Staged.Is pid) (ranges.forM fun range ↦
          Staged.save existing range.1 range.2)
          (fun _ s ↦ (∀ range ∈ ranges, range.2 < UInt64.size) ∧ Staged.Is pid s) fun _ ↦ True :=
        Triple.forM fun range _ ↦ triple_save_len existing range.1 range.2
      refine Triple.bind (hsaves.mono (fun _ hs ↦ hs ▸ hpid) (fun _ _ h ↦ h) fun _ h ↦ h) fun _ ↦ ?_
      refine Triple.of_pre fun t ⟨hlen, ht⟩ ↦ ?_
      have hnone : ¬r.IsEntered registry pid ips := by
        rintro ⟨existing', start', hexisting', hstart', hruns⟩
        cases hexisting.symm.trans hexisting'
        cases hstart.symm.trans hstart'
        exact not_runsInside_of_isInside (hlen _ (mem_overwritten hranges)) hinside hruns
      have hrest : Keeps (Staged.Is pid) (do
          Staged.noteMark start
          Staged.onTarget (r.install existing image)
          Staged.onProcess (AttachedProcess.mark start)) :=
        (Staged.is_noteMark start).bind fun _ ↦ (Staged.is_onTarget (r.is_install _ _)).bind fun _ ↦
          Staged.is_onProcess (AttachedProcess.is_mark start)
      exact hrest.mono (fun _ hs ↦ hs ▸ ht) (fun _ _ hs ↦ ⟨hnone, hs⟩) fun _ _ ↦ trivial

end PatchSteps

namespace Staged

/-- Where the threads of a process run. -/
def ips (s : Staged) : List UInt64 := s.process.target.threads.map Thread.ip

/-- A process stands as before: with the same memory and the same threads. -/
def StandsAs (s t : Staged) : Prop :=
  t.sight = s.sight ∧ t.process.target.threads = s.process.target.threads

/-- Suspending a process leaves it as it stands. -/
theorem keeps_suspend (s : Staged) : Keeps s.StandsAs (onTarget Target.suspend) :=
  (quiet_onTarget Target.quiet_suspend s.sight).and
    (triple_onTarget Target.keeps_threads_suspend)

/-- Asking where the threads run answers that and leaves the process as it stands. -/
theorem triple_threadIps (s : Staged) :
    Triple s.StandsAs (onTarget Target.threadIps) (fun ips t ↦ ips = s.ips ∧ s.StandsAs t)
      s.StandsAs :=
  ((quiet_onTarget Target.quiet_threadIps s.sight).and
    (triple_onTarget Target.triple_threadIps)).mono (fun _ h ↦ h)
      (fun _ _ h ↦ ⟨h.2.1, h.1, h.2.2⟩) fun _ h ↦ h

end Staged

namespace PatchRecord

/-- A patch without the redirections that are left out of a process. -/
def sparing (p : PatchRecord) (registry : Registry) (pid : UInt32) (ips : List UInt64) :
    PatchRecord :=
  { p with functions := p.functions.filter fun r ↦ !r.isLeftOut registry pid ips }

variable {registry : Registry} {pid : UInt32} {ips : List UInt64}

theorem mem_sparing_iff {p : PatchRecord} {r : FunctionRedirection} :
    r ∈ (p.sparing registry pid ips).functions ↔
      r ∈ p.functions ∧ r.isLeftOut registry pid ips = false := by
  unfold sparing
  simp

/-- A process in which exactly the redirections were installed that no thread was inside. -/
structure IsSparedIn (p : PatchRecord) (registry : Registry) (s t : Staged) : Prop where
  written : Staged.IsWritten registry (p.sparing registry s.process.pid s.ips) s t
  spared : (registry.mapping? s.process.pid p.token).isSome → ∀ r ∈ p.functions,
    r ∈ (p.sparing registry s.process.pid s.ips).functions ↔
      ¬r.IsEntered registry s.process.pid s.ips

@[simp] theorem token_sparing (p : PatchRecord) :
    (p.sparing registry pid ips).token = p.token := rfl

/-- Redirections that are left out might as well not be there. -/
theorem run_redirectFunctions_sparing (p : PatchRecord) (s : Staged) :
    (PatchSteps.redirectFunctions registry p ips true).run s
      = (PatchSteps.redirectFunctions registry (p.sparing registry s.process.pid ips) ips true).run
        s := by
  have hkeeps : ∀ image, ∀ r ∈ p.functions, Keeps (Staged.Is s.process.pid)
      (PatchSteps.redirectFunction registry image ips true r) :=
    fun image r _ ↦ PatchSteps.is_redirectFunction registry image ips true r
  have hskips : ∀ image, ∀ r ∈ p.functions, r.isLeftOut registry s.process.pid ips = true →
      ∀ t, Staged.Is s.process.pid t →
        (PatchSteps.redirectFunction registry image ips true r).run t = (.ok (), t) := by
    intro image r _ hr t ht
    exact PatchSteps.run_redirectFunction_of_isLeftOut (ht.symm ▸ hr)
  unfold PatchSteps.redirectFunctions
  rw [run_bind, run_bind, run_get]
  dsimp only
  rw [token_sparing]
  cases registry.mapping? s.process.pid p.token with
  | none => rfl
  | some image =>
    dsimp only
    rw [run_bind, run_bind, Keeps.run_forM_filter (hkeeps image) (hskips image) rfl]
    rfl

/-- What is installed in a process is run by no thread, and its writes are all that are made. -/
theorem triple_redirectFunctions_sparing (p : PatchRecord) (s : Staged) :
    Triple (fun t ↦ t.sight = s.sight)
      (PatchSteps.redirectFunctions registry (p.sparing registry s.process.pid s.ips) s.ips true)
      (fun _ ↦ p.IsSparedIn registry s) fun _ ↦ True := by
  have hleft : ∀ r ∈ (p.sparing registry s.process.pid s.ips).functions,
      r.isLeftOut registry s.process.pid s.ips = false := fun r hr ↦ (mem_sparing_iff.mp hr).2
  have hwrites : Writes Staged.sight s.process.pid (PatchSteps.redirectFunctions registry
      (p.sparing registry s.process.pid s.ips) s.ips true) _ :=
    PatchSteps.writes_redirectFunctions fun r hr existing start hexisting hstart hunsafe ↦ by
      have := hleft r hr
      rw [FunctionRedirection.isLeftOut_iff.mpr ⟨existing, start, hexisting, hstart,
        PatchSteps.isUnsafe_eq_ok_iff.mp hunsafe⟩] at this
      cases this
  have hspared : Triple (Staged.Is s.process.pid) (PatchSteps.redirectFunctions registry
      (p.sparing registry s.process.pid s.ips) s.ips true)
      (fun _ t ↦ ((registry.mapping? s.process.pid p.token).isSome →
        ∀ r ∈ (p.sparing registry s.process.pid s.ips).functions,
          ¬r.IsEntered registry s.process.pid s.ips) ∧ Staged.Is s.process.pid t) fun _ ↦ True := by
    refine Triple.bind_get fun t ht ↦ ?_
    rw [show t.process.pid = s.process.pid from ht, token_sparing]
    cases registry.mapping? s.process.pid p.token with
    | none => exact Triple.pure fun _ hu ↦ ⟨fun h ↦ (by cases h), hu ▸ ht⟩
    | some image =>
      have hfunctions : Triple (Staged.Is s.process.pid)
          ((p.sparing registry s.process.pid s.ips).functions.forM
            (PatchSteps.redirectFunction registry image s.ips true)) _ fun _ ↦ True :=
        Triple.forM fun r hr ↦ PatchSteps.triple_redirectFunction_checked (hleft r hr)
      refine Triple.bind (hfunctions.mono (fun _ hu ↦ hu ▸ ht) (fun _ _ h ↦ h) fun _ h ↦ h)
        fun _ ↦ Triple.of_pre fun u ⟨hspared, hu⟩ ↦ ?_
      exact (Keeps.forM fun r _ ↦ PatchSteps.is_redirectLibraryFunction registry image r).mono
        (fun _ hv ↦ hv ▸ hu) (fun _ _ hv ↦ ⟨fun _ ↦ hspared, hv⟩) fun _ _ ↦ trivial
  refine ((hwrites s.process.target.memory).and hspared).mono
    (fun t ht ↦ ⟨ht, congrArg Prod.fst ht⟩) (fun _ t ht ↦ ⟨ht.1, fun himage r hr ↦ ?_⟩)
    fun _ _ ↦ trivial
  refine ⟨ht.2.1 himage r, fun hentered ↦ mem_sparing_iff.mpr ⟨hr, ?_⟩⟩
  rw [Bool.eq_false_iff]
  exact fun hleft ↦ hentered (FunctionRedirection.isEntered_of_isLeftOut hleft)

/-- A replay comes to what it would come to without the redirections that are left out. -/
theorem run_redirectFunctions (p : PatchRecord) (s : Staged) :
    (p.redirectFunctions registry).run s
      = ((p.sparing registry s.process.pid s.ips).redirectFunctions registry).run s := by
  unfold PatchRecord.redirectFunctions
  refine Triple.run_bind_congr s.keeps_suspend (fun _ t ht ↦ ?_) ⟨rfl, rfl⟩
  rw [run_ensuring, run_ensuring]
  refine congrArg (fun r : Outcome Unit × Staged ↦
    (r.1, ((Staged.onTarget Target.resume).run r.2).2)) ?_
  refine Triple.run_bind_congr s.triple_threadIps (fun ips u hu ↦ ?_) ht
  obtain ⟨rfl, hsight, -⟩ := hu
  have hpid : u.process.pid = s.process.pid := congrArg Prod.fst hsight
  rw [run_redirectFunctions_sparing p u, hpid]

/-- A replay that works installs the redirections that no thread is inside. -/
theorem triple_redirectFunctions (p : PatchRecord) (s : Staged) :
    Triple s.StandsAs ((p.sparing registry s.process.pid s.ips).redirectFunctions registry)
      (fun _ ↦ p.IsSparedIn registry s) fun _ ↦ True := by
  have hstop : ∀ t, s.StandsAs t → True := fun _ _ ↦ trivial
  have hwork : Triple s.StandsAs (do
      let ips ← Staged.onTarget Target.threadIps
      PatchSteps.redirectFunctions registry (p.sparing registry s.process.pid s.ips) ips true)
      (fun _ ↦ p.IsSparedIn registry s) fun _ ↦ True := by
    refine Triple.bind (s.triple_threadIps.mono (fun _ h ↦ h) (fun _ _ h ↦ h) hstop) fun ips ↦ ?_
    refine Triple.of_pre fun t ⟨hips, ht⟩ ↦ ?_
    subst hips
    exact (triple_redirectFunctions_sparing p s).mono (fun _ hu ↦ hu ▸ ht.1) (fun _ _ h ↦ h)
      fun _ h ↦ h
  refine Triple.bind (s.keeps_suspend.mono (fun _ h ↦ h) (fun _ _ h ↦ h) hstop) fun _ ↦
    hwork.ensuring ?_ fun _ h ↦ h
  rintro _ t ⟨⟨log, m', hlog, hm', ht⟩, hspared⟩
  exact ⟨⟨log, m', hlog, hm', (Staged.quiet_onTarget Target.quiet_resume _).run ht⟩, hspared⟩

end PatchRecord

/-- A technique that is chosen for several processes is safe in those in which nothing runs behind
the bytes that were looked at there, and it is found safe in no others. A redirection that is
installed again is written where no thread runs inside its span and nowhere else. -/
theorem techniques_are_safe_iff_and_replays_spare_threads
    (sites : List (FunctionSite × List UInt64)) (options : List TechniqueOptions) (t : Technique)
    (p : PatchRecord) (registry : Registry) (s : Staged) :
    (sites.mapM (fun s ↦ s.1.evaluate s.2) = .ok options →
      TechniqueOptions.combine options = some t →
        List.Forall₂ (fun s o ↦
          (¬RunsInside s.2 s.1.start t.span ↔ ¬RunsBehind s.2 s.1.start (o.reach t) t.span) ∧
          ∀ (r : FunctionRedirection) (isSafe : Bool), r.technique = t →
            r.isSafe s.1.start s.2 = .ok isSafe →
              (isSafe = true ↔ ¬RunsInside s.2 s.1.start t.span)) sites options) ∧
    (p.redirectFunctions registry).run s
      = ((p.sparing registry s.process.pid s.ips).redirectFunctions registry).run s ∧
    ∀ s', (p.redirectFunctions registry).run s = (.ok (), s') → p.IsSparedIn registry s s' := by
  constructor
  · intro hoptions ht
    have hall := Outcome.forall₂_of_mapM hoptions
    have hsafe : ∀ o ∈ options, ∀ covered, o.direct = some covered → covered < UInt64.size := by
      intro o ho
      obtain ⟨s, -, hs⟩ := Pointwise.exists_left hall ho
      exact (FunctionSite.areSafe_of_evaluate hs).bounded
    refine Pointwise.imp_of_mem hall fun s _ o ho hs ↦ ⟨?_, fun r isSafe hr hisSafe ↦ ?_⟩
    · exact TechniqueOptions.not_runsInside_span_iff ht ho (FunctionSite.areSafe_of_evaluate hs)
        (FunctionSite.isRoomy_of_evaluate hs)
    · have hspan : r.span = t.span := by rw [r.span_eq, hr]
      rw [← hspan]
      exact r.isSafe_iff (hspan ▸ TechniqueOptions.span_lt_of_combine ht hsafe) hisSafe
  · refine ⟨p.run_redirectFunctions s, fun s' hrun ↦ ?_⟩
    rw [p.run_redirectFunctions s] at hrun
    exact (p.triple_redirectFunctions s).ok ⟨rfl, rfl⟩ hrun

/-! A function whose first instructions differ between two processes, and a thread that runs inside
one of two functions. -/

namespace Spread

/-- The function in two processes: its first instruction takes five bytes in the one and six in the
other. A thread of the first process is about to run the second instruction. -/
def sites : List (FunctionSite × List UInt64) :=
  [(⟨0x1000, 16, none, #[0xb8, 1, 0, 0, 0, 0xc3], false⟩, [0x1005]),
    (⟨0x1000, 16, none, #[0x8b, 0x05, 0, 0, 0, 0, 0xc3], false⟩, [])]

/-- What was found in the two processes. -/
def options : List TechniqueOptions := [⟨some 5, false⟩, ⟨some 6, false⟩]

/-- The process of two packed functions, with a thread behind the first instruction of the one. -/
def entered : Staged :=
  .ofProcess { Activation.Packed.staged.process with
    target := Activation.Packed.staged.process.target.spawn 0x140000011 }

private theorem evaluate_sites : sites.mapM (fun s ↦ s.1.evaluate s.2) = .ok options := by
  decide +kernel

private theorem run_entered : ∃ s,
    (Activation.Packed.redirected.redirectFunctions Activation.Packed.registry).run entered
      = (.ok (), s) := by
  have hresult : ((Activation.Packed.redirected.redirectFunctions Activation.Packed.registry).run
      entered).1 = .ok () := by decide +kernel
  generalize (Activation.Packed.redirected.redirectFunctions Activation.Packed.registry).run
    entered = r at hresult ⊢
  obtain ⟨result, s⟩ := r
  exact ⟨s, Prod.ext hresult rfl⟩

end Spread

/-- Where the jump over six bytes is safe is decided by what runs behind the bytes that were looked
at, and a replay into the process of two packed functions spares the one that a thread is inside. -/
theorem spread_techniques_are_safe_iff_and_packed_replay_spares_thread :
    (Spread.sites.mapM (fun s ↦ s.1.evaluate s.2) = .ok Spread.options ∧
      TechniqueOptions.combine Spread.options = some (.direct 6) ∧
      List.Forall₂ (fun s o ↦
        (¬RunsInside s.2 s.1.start 6 ↔ ¬RunsBehind s.2 s.1.start (o.reach (.direct 6)) 6) ∧
        ∀ (r : FunctionRedirection) (isSafe : Bool), r.technique = .direct 6 →
          r.isSafe s.1.start s.2 = .ok isSafe → (isSafe = true ↔ ¬RunsInside s.2 s.1.start 6))
        Spread.sites Spread.options) ∧
    ∃ s, (Activation.Packed.redirected.redirectFunctions Activation.Packed.registry).run
        Spread.entered = (.ok (), s) ∧
      Activation.Packed.redirected.IsSparedIn Activation.Packed.registry Spread.entered s := by
  have hcombine : TechniqueOptions.combine Spread.options = some (.direct 6) := by decide
  obtain ⟨s, hrun⟩ := Spread.run_entered
  have hspread := techniques_are_safe_iff_and_replays_spare_threads Spread.sites Spread.options
    (.direct 6) Activation.Packed.redirected Activation.Packed.registry Spread.entered
  exact ⟨⟨Spread.evaluate_sites, hcombine, hspread.1 Spread.evaluate_sites hcombine⟩,
    s, hrun, hspread.2.2 s hrun⟩

/-- A jump over six bytes is chosen for both processes, and a thread of the first one is inside. -/
theorem chosen_technique_is_unsafe_where_fewer_bytes_were_covered : ∃ t,
    (∃ options, Spread.sites.mapM (fun s ↦ s.1.evaluate s.2) = .ok options ∧
      TechniqueOptions.combine options = some t) ∧
    ∃ s ∈ Spread.sites, RunsInside s.2 s.1.start t.span ∧
      ∀ r : FunctionRedirection, r.technique = t → r.isSafe s.1.start s.2 = .ok false := by
  refine ⟨.direct 6, ⟨Spread.options, Spread.evaluate_sites, by decide⟩, _, List.mem_cons_self ..,
    by decide, fun r hr ↦ ?_⟩
  have hinside : isInside [0x1005] 0x1000 6 = .ok true := by decide
  unfold FunctionRedirection.isSafe
  rw [r.span_eq, hr]
  exact congrArg (· >>= fun found ↦ pure !found) hinside

end LivePatch
