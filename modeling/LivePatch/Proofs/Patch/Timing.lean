import LivePatch.Proofs.Patch.Entry
import LivePatch.Proofs.Patch.Planning

/-!
# When edits are made

Every write into a process is logged, and with every command to its agent how many writes came before
it. While a patch is activated, the phases write different things: first what the entry point has to
find, then the code around the entry point itself, and only behind the calls of all entry points what
leads into the patch. No phase but one calls an entry point. So the log of every process is in that
order, wherever the activation stops.
-/

namespace LivePatch

/-! ### What was written -/

namespace Target

/-- Since a process was `b`, nothing was written into it that is not of a kind. -/
structure WroteOnly (kind : UInt64 → Bytes → Prop) (b t : Target) : Prop where
  pid : t.pid = b.pid
  edits : ∃ since, t.edits = since ++ b.edits ∧ ∀ e ∈ since, kind e.address e.bytes

namespace WroteOnly

variable {kind : UInt64 → Bytes → Prop} {b t u : Target}

theorem refl (kind : UInt64 → Bytes → Prop) (b : Target) : b.WroteOnly kind b :=
  ⟨rfl, [], rfl, fun _ he ↦ (List.not_mem_nil he).elim⟩

theorem trans (h : b.WroteOnly kind t) (h' : t.WroteOnly kind u) : b.WroteOnly kind u := by
  obtain ⟨since, hedits, hsince⟩ := h.edits
  obtain ⟨more, hmore, hkind⟩ := h'.edits
  refine ⟨h'.pid.trans h.pid, more ++ since, ?_, List.forall_mem_append.mpr ⟨hkind, hsince⟩⟩
  rw [hmore, hedits, List.append_assoc]

theorem length_le (h : b.WroteOnly kind t) : b.edits.length ≤ t.edits.length := by
  obtain ⟨since, hedits, -⟩ := h.edits
  rw [hedits, List.length_append]
  omega

theorem ignoresMemory : IgnoresMemory (b.WroteOnly kind) where
  counted := fun _ ht ↦ ⟨ht.pid, ht.edits⟩
  flushed := fun ht ↦ ⟨ht.pid, ht.edits⟩
  suspended := fun _ ht ↦ ⟨ht.pid, ht.edits⟩
  changed := fun _ _ ht ↦ ⟨ht.pid, ht.edits⟩
  remapped := fun _ _ ht ↦ ⟨ht.pid, ht.edits⟩

theorem ignoresThreads : IgnoresThreads (b.WroteOnly kind) := ignoresMemory.toIgnoresThreads

theorem writeMemory {address : UInt64} {bytes : Bytes} (h : kind address bytes) :
    Keeps (b.WroteOnly kind) (Target.writeMemory address bytes) := by
  refine (ignoresThreads.pass _).bind fun _ ↦ Triple.bind_get fun t ht ↦
    Triple.bind_lift (fun memory _ ↦ Triple.set fun _ _ ↦ ?_) fun _ hs ↦ hs ▸ ht
  obtain ⟨since, hedits, hsince⟩ := ht.edits
  exact ⟨ht.pid, _ :: since, congrArg (List.cons _) hedits, List.forall_mem_cons.mpr ⟨h, hsince⟩⟩

theorem write (image : Mapping) {rva : UInt32} {bytes : Bytes}
    (h : ∀ address, image.address rva = .ok address → kind address bytes) :
    Keeps (b.WroteOnly kind) (image.write rva bytes) :=
  (Keeps.lift _).bind fun _ ↦ Triple.bind_lift (fun address ha ↦
    (writeMemory (h address ha)).inContext.bind fun _ ↦ ignoresThreads.flush) fun _ hs ↦ hs

end WroteOnly
end Target

/-! ### What was asked for -/

namespace AttachedProcess

/-- What happened to a process since it was `o`: its agent was only informed or asked for certain
commands, and nothing was written but edits of a kind. The writes that came before a command are the
ones from before, and some of these. -/
structure Did (asks : List CommandName) (kind : UInt64 → Bytes → Prop) (o p : AttachedProcess) :
    Prop where
  wrote : o.target.WroteOnly kind p.target
  sent : ∃ more, p.agent.sent = o.agent.sent ++ more ∧ ∀ s ∈ more,
    (s.command.informs = true ∨ s.command.name ∈ asks) ∧
    o.target.edits.length ≤ s.editsBefore ∧ s.editsBefore ≤ p.target.edits.length

namespace Did

variable {asks : List CommandName} {kind : UInt64 → Bytes → Prop} {o p q : AttachedProcess}

theorem refl (asks : List CommandName) (kind : UInt64 → Bytes → Prop) (p : AttachedProcess) :
    p.Did asks kind p :=
  ⟨.refl kind p.target, [], (List.append_nil _).symm, fun _ hs ↦ (List.not_mem_nil hs).elim⟩

theorem trans (h : o.Did asks kind p) (h' : p.Did asks kind q) : o.Did asks kind q := by
  obtain ⟨more, hsent, hmore⟩ := h.sent
  obtain ⟨more', hsent', hmore'⟩ := h'.sent
  have hfirst := h.wrote.length_le
  have hsecond := h'.wrote.length_le
  refine ⟨h.wrote.trans h'.wrote, more ++ more', by rw [hsent', hsent, List.append_assoc],
    List.forall_mem_append.mpr ⟨fun s hs ↦ ?_, fun s hs ↦ ?_⟩⟩
  · obtain ⟨hasks, hle, hge⟩ := hmore s hs
    exact ⟨hasks, hle, by omega⟩
  · obtain ⟨hasks, hle, hge⟩ := hmore' s hs
    exact ⟨hasks, by omega, hge⟩

theorem pid (h : o.Did asks kind p) : p.pid = o.pid := h.wrote.pid

theorem mono {asks' : List CommandName} {kind' : UInt64 → Bytes → Prop} (h : o.Did asks kind p)
    (hasks : asks ⊆ asks') (hkind : ∀ address bytes, kind address bytes → kind' address bytes) :
    o.Did asks' kind' p := by
  obtain ⟨since, hedits, hsince⟩ := h.wrote.edits
  obtain ⟨more, hsent, hmore⟩ := h.sent
  exact ⟨⟨h.wrote.pid, since, hedits, fun e he ↦ hkind _ _ (hsince e he)⟩, more, hsent,
    fun s hs ↦ ⟨(hmore s hs).1.imp id fun h ↦ hasks h, (hmore s hs).2⟩⟩

/-- Work on the target writes what it writes there. -/
theorem onTarget {α : Type} {act : TargetM α}
    (h : ∀ t : Target, t.pid = o.pid → Keeps (t.WroteOnly kind) act) :
    Keeps (o.Did asks kind) (AttachedProcess.onTarget act) := by
  refine Keeps.of_run fun p hp ↦ hp.trans ?_
  rw [run_onTarget]
  exact ⟨(h p.target hp.pid).run (.refl kind _), (refl asks kind p).sent.imp fun more hmore ↦
    ⟨hmore.1, fun s hs ↦ (by cases List.append_right_eq_self.mp hmore.1.symm; cases hs)⟩⟩

/-- Asking for a command neither loads nor unloads nor writes anything. -/
theorem tell (files : FileTree) {c : Command} (hc : isQuiet c = true)
    (hasks : c.informs = true ∨ c.name ∈ asks) :
    Keeps (o.Did asks kind) (AttachedProcess.tell files c) := by
  refine Keeps.of_run fun p hp ↦ hp.trans ?_
  rw [run_tell_of_isQuiet files hc]
  exact ⟨.refl kind _, _, rfl, List.forall_mem_singleton.mpr ⟨hasks, Nat.le_refl _, Nat.le_refl _⟩⟩

/-- Marking functions writes nothing and asks for nothing. -/
theorem mark (start : UInt64) : Keeps (o.Did asks kind) (AttachedProcess.mark start) := by
  refine Keeps.modify fun p hp ↦ ?_
  split
  · exact hp
  · exact ⟨hp.wrote, hp.sent⟩

/-- Calling hooks writes nothing. -/
theorem callIn (r : HookRecord) (files : FileTree) (base : UInt64) :
    Keeps (o.Did asks kind) (r.callIn files base) :=
  (Keeps.lift _).bind fun _ ↦ (Keeps.lift _).bind fun _ ↦ tell files rfl (.inl rfl)

end Did
end AttachedProcess

/-! ### Steps in one process -/

/-- Redirecting a reference keeps what its write keeps. -/
theorem ReferenceRedirection.keeps_apply_of {inv : Target → Prop} (h : Target.IgnoresCalls inv)
    {r : ReferenceRedirection} (hkind : r.kind.isPatchable = true) {image : Mapping}
    {bases : List (Option UInt64)}
    (hwrite : ∀ write, r.writing? image bases = some write →
      Keeps inv (image.write r.patchRva write.2)) :
    Keeps inv (r.apply image bases) := by
  unfold apply
  split
  · exact Keeps.get.bind fun _ ↦ Keeps.fail _
  · next base hbase =>
    refine Triple.bind_lift (fun p hp ↦ Triple.bind_lift (fun s hs ↦ ?_) fun _ h ↦ h) fun _ h ↦ h
    exact (h.read _ _ _).bind fun old ↦ Triple.bind_lift (fun field hfield ↦
      hwrite (p, field) (writing?_of_relocate hkind hbase hp hs hfield)) fun _ h ↦ h

/-- What preparing the entry point of a patch writes into its image. -/
inductive PatchRecord.Prepares (p : PatchRecord) (image : Mapping) : UInt64 → Bytes → Prop where
  | slot {rva : UInt32} {address : UInt64} (h : rva ∈ p.neutered)
      (ha : image.address rva = .ok address) : Prepares p image address (Bytes.ofU64 0)
  | cookie {c : CookieRecord} {address : UInt64} (h : p.cookie = some c)
      (ha : image.address c.patchRva = .ok address) (value : UInt64) :
      Prepares p image address (Bytes.ofU64 value)
  | dllMain {rva : UInt32} {address : UInt64} (h : p.dllMain = some rva)
      (ha : image.address rva = .ok address) : Prepares p image address X86.successStub

/-- What preparing the entry point writes depends on what there is to prepare. -/
theorem PatchRecord.Prepares.congr {p q : PatchRecord} {image : Mapping} {address : UInt64}
    {bytes : Bytes} (h : p.Prepares image address bytes) (hneutered : q.neutered = p.neutered)
    (hcookie : q.cookie = p.cookie) (hmain : q.dllMain = p.dllMain) :
    q.Prepares image address bytes := by
  cases h with
  | slot h ha => exact .slot (hneutered ▸ h) ha
  | cookie h ha value => exact .cookie (hcookie.trans h) ha value
  | dllMain h ha => exact .dllMain (hmain.trans h) ha

namespace PatchSteps

open AttachedProcess Target

variable {registry : Registry} {o : AttachedProcess} {kind : UInt64 → Bytes → Prop}
  {asks : List CommandName}

theorem did_redirectReferences {token : Token} {records : List ReferenceRedirection}
    (hkinds : ∀ r ∈ records, r.kind.isPatchable = true)
    (h : ∀ r ∈ records, ∀ image, registry.mapping? o.pid token = some image →
      ∀ write, r.writing? image (registry.bases o.pid) = some write → kind write.1 write.2) :
    Keeps (o.Did asks kind) (redirectReferences registry token records) := by
  refine Triple.bind_get fun p hp ↦ ?_
  rw [hp.pid]
  dsimp only
  cases himage : registry.mapping? o.pid token with
  | none => exact Triple.pure fun _ heq ↦ heq ▸ hp
  | some image =>
    refine (Did.onTarget fun t _ ↦ WroteOnly.ignoresThreads.suspended_act
      (Keeps.mapM fun r hr ↦ Keeps.of_run fun u hu ↦ ?_)).mono (fun _ heq ↦ heq ▸ hp)
      (fun _ _ hq ↦ hq) fun _ hq ↦ hq
    rw [run_redirectReference]
    refine (r.keeps_apply_of WroteOnly.ignoresThreads.toIgnoresCalls (hkinds r hr)
      fun write hwrite ↦ WroteOnly.write image fun address ha ↦ ?_).run hu
    obtain ⟨-, -, -, ha', -⟩ := ReferenceRedirection.writing?_eq_some_iff.mp hwrite
    cases ha.symm.trans ha'
    exact h r hr image himage write hwrite

theorem did_prepareEntry {patch : PatchRecord}
    (h : ∀ image, registry.mapping? o.pid patch.token = some image →
      ∀ address bytes, patch.Prepares image address bytes → kind address bytes) :
    Keeps (o.Did asks kind) (prepareEntry registry patch) := by
  refine Triple.bind_get fun p hp ↦ ?_
  rw [hp.pid]
  dsimp only
  cases himage : registry.mapping? o.pid patch.token with
  | none => exact Triple.pure fun _ heq ↦ heq ▸ hp
  | some image =>
    have hentry : ∀ (t : Target) (rva : UInt32), patch.dllMain = some rva →
        Keeps (t.WroteOnly kind) (disableFunction image rva) := fun t rva hrva ↦
      WroteOnly.write image fun _ ha ↦ h image himage _ _ (.dllMain hrva ha)
    refine (Did.onTarget fun t _ ↦ WroteOnly.ignoresThreads.suspended_act ?_).mono
      (fun _ heq ↦ heq ▸ hp) (fun _ _ hq ↦ hq) fun _ hq ↦ hq
    refine (Keeps.forM fun slot hslot ↦ WroteOnly.write image fun _ ha ↦
      h image himage _ _ (.slot hslot ha)).bind fun _ ↦ ?_
    split
    · next cookie module hcookie _ =>
      refine Keeps.bind ((WroteOnly.ignoresThreads.readWord module _).bind fun value ↦
        WroteOnly.write image fun _ ha ↦ h image himage _ _ (.cookie hcookie ha value)) fun _ ↦ ?_
      split
      · next rva hrva => exact hentry t rva hrva
      · exact Keeps.pure _
    · split
      · next rva hrva => exact hentry t rva hrva
      · exact Keeps.pure _

theorem did_callEntryPoint (files : FileTree) {patch : PatchRecord}
    (hspin : ∀ page, kind page Cave.spin)
    (hcode : ∀ saved image address, patch.entryPoint = some saved →
      registry.mapping? o.pid patch.token = some image → image.address saved.rva = .ok address →
      kind address saved.code ∧ kind address X86.successStub) :
    Keeps (o.Did [.callEntryPoint] kind) (callEntryPoint files registry patch) := by
  refine Triple.bind_get fun p hp ↦ ?_
  rw [hp.pid]
  split
  · next saved image hsaved himage =>
    have hcave : ∀ t : Target, AllowsCaves (t.WroteOnly kind) (t.WroteOnly kind) := fun t ↦
      WroteOnly.ignoresMemory.allowsCaves fun page ↦ WroteOnly.writeMemory (hspin page)
    have hcall : Keeps (o.Did [.callEntryPoint] kind) (saved.callOnce files image) := by
      refine SavedEntryPoint.triple_callOnce_of files (fun commandThread ↦ ?_)
        (Did.onTarget fun t _ ↦ WroteOnly.write image fun _ ha ↦ (hcode _ _ _ hsaved himage ha).1)
        (Did.tell files rfl (.inr (List.mem_singleton_self _)))
        (Did.onTarget fun t _ ↦ WroteOnly.write image fun _ ha ↦ (hcode _ _ _ hsaved himage ha).2)
      refine (Did.onTarget fun t _ ↦ ((hcave t).enter commandThread).mono
        (fun _ ht ↦ ht) (fun _ _ ht ↦ ht.1) fun _ ht ↦ ht).mono (fun _ hq ↦ hq)
        (fun c _ hq ↦ ⟨hq, ?_⟩) fun _ hq ↦ hq
      exact Did.onTarget fun t _ ↦ WroteOnly.ignoresThreads.leave (WroteOnly.ignoresMemory.free _)
    exact hcall.mono (fun _ heq ↦ heq ▸ hp) (fun _ _ hq ↦ hq) fun _ hq ↦ hq
  · exact Triple.pure fun _ heq ↦ heq ▸ hp

end PatchSteps

/-! ### Steps in all processes -/

namespace Staged

open AttachedProcess Target

variable {asks : List CommandName} {α β : Type}

/-- Work on all processes that asks their agents for nothing but certain commands and writes nothing
but edits of a kind, wherever it stops short. -/
def DoesOnly (asks : List CommandName) (kind : UInt32 → UInt64 → Bytes → Prop)
    (act : EachM Staged α) : Prop :=
  ∀ fleet : Fleet,
    Keeps (List.Forall₂ (fun o s ↦ o.Did asks (kind o.pid) (Staged.process s)) fleet) act

namespace DoesOnly

variable {kind : UInt32 → UInt64 → Bytes → Prop} {act : EachM Staged α} {fleet : Fleet}

/-- What work on all processes did to each comes behind what happened there before. -/
theorem behind (h : DoesOnly asks kind act) (fleet : Fleet)
    {R : AttachedProcess → AttachedProcess → Prop}
    (hpid : ∀ {o p}, R o p → p.pid = o.pid) :
    Triple (List.Forall₂ (fun o s ↦ R o (Staged.process s)) fleet) act
      (fun _ ↦ List.Forall₂ (fun o s ↦ ∃ p, R o p ∧ p.Did asks (kind o.pid) (Staged.process s)) fleet)
      (List.Forall₂ (fun o s ↦ ∃ p, R o p ∧ p.Did asks (kind o.pid) (Staged.process s)) fleet) := by
  intro staged hs
  have hrun := (h (staged.map process)).run (s := staged)
    (List.forall₂_map_left_iff.mpr (List.forall₂_same.mpr fun _ _ ↦ .refl _ _ _))
  have hall : List.Forall₂ (fun o s ↦ ∃ p, R o p ∧ p.Did asks (kind o.pid) (Staged.process s)) fleet
      (act.run staged).2 :=
    Pointwise.comp hs (List.forall₂_map_left_iff.mp hrun) fun _ s _ hR hdid ↦
      ⟨s.process, hR, hpid hR ▸ hdid⟩
  generalize act.run staged = r at hall ⊢
  rcases r with ⟨_ | _, _⟩ <;> exact hall

/-- Work that does less than other work may do. -/
theorem mono (h : DoesOnly asks kind act) {asks' : List CommandName}
    {kind' : UInt32 → UInt64 → Bytes → Prop} (hasks : asks ⊆ asks')
    (hkind : ∀ pid address bytes, kind pid address bytes → kind' pid address bytes) :
    DoesOnly asks' kind' act := by
  intro fleet
  have hmore : ∀ {o p : AttachedProcess}, (∃ q, o.Did asks' (kind' o.pid) q ∧
      q.Did asks (kind o.pid) p) → o.Did asks' (kind' o.pid) p := fun ⟨_, hfirst, hsecond⟩ ↦
    hfirst.trans (hsecond.mono hasks (hkind _))
  exact (h.behind fleet (R := fun o p ↦ o.Did asks' (kind' o.pid) p) Did.pid).mono (fun _ hs ↦ hs)
    (fun _ _ hs ↦ hs.imp fun _ _ ↦ hmore) fun _ hs ↦ hs.imp fun _ _ ↦ hmore

end DoesOnly

section Single

variable {kind : UInt64 → Bytes → Prop} {o : AttachedProcess}

theorem did_onProcess {act : ProcessM α} (h : Keeps (o.Did asks kind) act) :
    Keeps (fun s ↦ o.Did asks kind s.process) (onProcess act) := triple_onProcess h

theorem did_onTarget {act : TargetM α}
    (h : ∀ t : Target, t.pid = o.pid → Keeps (t.WroteOnly kind) act) :
    Keeps (fun s ↦ o.Did asks kind s.process) (onTarget act) := triple_onProcess (Did.onTarget h)

theorem did_hold (files : FileTree) (hasks : CommandName.enterSyncPoint ∈ asks) :
    Keeps (fun s ↦ o.Did asks kind s.process) (hold files) :=
  (did_onProcess (Did.tell files rfl (.inr hasks))).bind fun _ ↦ Keeps.modify fun _ hs ↦ hs

theorem did_letGo (files : FileTree) (hasks : CommandName.leaveSyncPoint ∈ asks) :
    Keeps (fun s ↦ o.Did asks kind s.process) (letGo files) :=
  (did_onProcess (Did.tell files rfl (.inr hasks))).bind fun _ ↦ Keeps.modify fun _ hs ↦ hs

theorem did_save (image : Mapping) (rva : UInt32) (len : Nat) :
    Keeps (fun s ↦ o.Did asks kind s.process) (save image rva len) :=
  (Keeps.lift _).bind fun _ ↦ (did_onTarget fun _ _ ↦ WroteOnly.ignoresThreads.read _ _ _).bind
    fun _ ↦ Keeps.modify fun _ hs ↦ hs

theorem did_noteMark (start : UInt64) :
    Keeps (fun s ↦ o.Did asks kind s.process) (noteMark start) := by
  refine Keeps.modify fun s hs ↦ ?_
  split <;> exact hs

variable {registry : Registry} {image : Mapping}

theorem did_redirectFunction (ips : List UInt64) (checks : Bool) {r : FunctionRedirection}
    (h : ∀ existing ranges, registry.mapping? o.pid r.existing = some existing →
      r.overwritten = .ok ranges → ∀ rva address (bytes : Bytes), (rva, bytes.size) ∈ ranges →
        existing.address rva = .ok address → kind address bytes) :
    Keeps (fun s ↦ o.Did asks kind s.process)
      (PatchSteps.redirectFunction registry image ips checks r) := by
  refine Triple.bind_get fun s hs ↦ ?_
  rw [hs.pid]
  split
  · exact Triple.pure fun _ heq ↦ heq ▸ hs
  · next existing hexisting =>
    refine Triple.mono (?_ : Keeps (fun s ↦ o.Did asks kind s.process) _) (fun _ heq ↦ heq ▸ hs)
      (fun _ _ hs ↦ hs) fun _ hs ↦ hs
    refine (Keeps.lift _).bind fun start ↦ (Keeps.lift _).bind fun isUnsafe ↦ ?_
    split
    · exact Keeps.pure _
    · refine Triple.bind_lift (fun ranges hranges ↦ ?_) fun _ hs ↦ hs
      refine (Keeps.forM fun _ _ ↦ did_save _ _ _).bind fun _ ↦ (did_noteMark start).bind
        fun _ ↦ Keeps.bind (did_onTarget fun t _ ↦ ?_) fun _ ↦ did_onProcess (Did.mark start)
      exact r.keeps_install_of image hranges fun rva bytes hrange ↦
        WroteOnly.write existing fun address ↦
          h existing ranges hexisting hranges rva address bytes hrange

theorem did_redirectLibraryFunction {r : LibraryRedirection}
    (h : ∀ address bytes, image.address r.patchRva = .ok address → kind address bytes) :
    Keeps (fun s ↦ o.Did asks kind s.process)
      (PatchSteps.redirectLibraryFunction registry image r) := by
  refine Keeps.get.bind fun s ↦ ?_
  split
  · exact Keeps.pure _
  · exact did_onTarget fun t _ ↦ (Keeps.lift _).bind fun _ ↦ (Keeps.lift _).bind fun _ ↦
      (Keeps.lift _).bind fun bytes ↦ WroteOnly.write image fun address ha ↦ h address bytes ha

end Single
end Staged

/-! ### Kinds of writes -/

/-- A reference of an object file leads to a function which was not stripped from it. -/
def ObjectTable.LeadsToFunction (t : ObjectTable) (stripped : List String) (r : Relocation) : Prop :=
  r.target ∉ stripped ∧ ∃ s, t.symbol? r.target = some s ∧ s.isFunction = true

/-- References to functions that were not stripped wait for the entry point, and no others do. -/
theorem PatchView.phaseOf_eq_postEntry_iff {t : ObjectTable} {stripped : List String}
    {r : Relocation} : phaseOf t stripped r = .postEntry ↔ t.LeadsToFunction stripped r := by
  have hof : ∀ isFunction isStripped, Phase.of isFunction isStripped = .postEntry ↔
      isStripped = false ∧ isFunction = true := by decide
  unfold phaseOf ObjectTable.LeadsToFunction
  rw [hof, List.contains_eq_mem, decide_eq_false_iff_not, Option.any_eq_true]

namespace Activation

open AttachedProcess Staged Target

variable (a : Activation) (objects : List (ObjectTable × List String)) (patch : PatchRecord)

/-- The write that redirects a reference of a kind. The reference is one that the linker took into
the patch from an object file. -/
def WritesReference (kind : ObjectTable → List String → Relocation → Prop) (pid : UInt32)
    (address : UInt64) (bytes : Bytes) : Prop :=
  ∃ e ∈ objects, ∃ s ∈ e.1.defined, ∃ rva, a.view.Links e.1 s.name rva ∧
    ∃ r ∈ s.relocations, kind e.1 e.2 r ∧ ∃ record image,
      a.view.resolve r s.name rva e.2 = .ok (some record) ∧
      a.view.registry.mapping? pid a.view.token = some image ∧
      record.writing? image (a.view.registry.bases pid) = some (address, bytes)

/-- What the entry point of a patch has to find written: references to anything but functions of the
patch, and what prepares the entry point. -/
inductive EarlyWrite (pid : UInt32) (address : UInt64) (bytes : Bytes) : Prop where
  | reference (h : a.WritesReference objects
      (fun t stripped r ↦ ¬ t.LeadsToFunction stripped r) pid address bytes)
  | entry {image : Mapping} (himage : a.view.registry.mapping? pid a.view.token = some image)
      (h : (a.entryEdits patch).Prepares image address bytes)

/-- What calling an entry point takes: its code, which is disabled again, and a cave. -/
inductive EntryWrite (entryPoint : Option SavedEntryPoint) (pid : UInt32) (address : UInt64)
    (bytes : Bytes) : Prop where
  | cave (h : bytes = Cave.spin)
  | code {saved : SavedEntryPoint} {image : Mapping} (hsaved : entryPoint = some saved)
      (himage : a.view.registry.mapping? pid a.view.token = some image)
      (ha : image.address saved.rva = .ok address)
      (h : bytes = saved.code ∨ bytes = X86.successStub)

/-- What leads into the patch and its copies of library functions out of it: references to functions,
and the code of redirected functions. -/
inductive LateWrite (pid : UInt32) (address : UInt64) (bytes : Bytes) : Prop where
  | reference (h : a.WritesReference objects ObjectTable.LeadsToFunction pid address bytes)
  | function {r : FunctionRedirection} {existing : Mapping} {ranges : List (UInt32 × Nat)}
      {rva : UInt32} (hjoins : a.Joins r.name r.patchRva r.existing r.existingRva)
      (hexisting : a.view.registry.mapping? pid r.existing = some existing)
      (hranges : r.overwritten = .ok ranges) (hrange : (rva, bytes.size) ∈ ranges)
      (ha : existing.address rva = .ok address)
  | libraryFunction {r : LibraryRedirection} {image : Mapping}
      (hjoins : a.Joins r.name r.patchRva r.existing r.existingRva)
      (himage : a.view.registry.mapping? pid a.view.token = some image)
      (ha : image.address r.patchRva = .ok address)

section Steps

variable {a objects patch} {asks : List CommandName} {o : AttachedProcess}

theorem writesReference_of_references {phase : Phase} {records : List ReferenceRedirection}
    (h : a.references phase objects = .ok records)
    {kind : ObjectTable → List String → Relocation → Prop}
    (hkind : ∀ t stripped r, PatchView.phaseOf t stripped r = phase → kind t stripped r)
    {record : ReferenceRedirection} (hrecord : record ∈ records) {pid : UInt32} {image : Mapping}
    (himage : a.view.registry.mapping? pid a.view.token = some image) {write : UInt64 × Bytes}
    (hwrite : record.writing? image (a.view.registry.bases pid) = some write) :
    a.WritesReference objects kind pid write.1 write.2 := by
  obtain ⟨e, he, s, hs, rva, hlinks, r, hr, hphase, hresolve⟩ := (mem_references_iff h).mp hrecord
  exact ⟨e, he, s, hs, rva, hlinks, r, hr, hkind _ _ _ hphase, record, image, hresolve, himage, hwrite⟩

/-- Calling hooks in all processes writes nothing. -/
theorem doesOnly_hooks {kind : UInt32 → UInt64 → Bytes → Prop} (hooks : HookKind)
    (exclude : Option Token) :
    DoesOnly asks kind (onFleet (Hooks.call a.files a.view.registry hooks exclude)) := fun _ ↦
  keeps_onFleet_of (Hooks.keeps_call_of (fun _ _ r base ↦ Did.callIn r a.files base) _ _ _)

/-- Redirecting references in all processes writes what it writes in each. -/
theorem doesOnly_redirectReferences {kind : UInt32 → UInt64 → Bytes → Prop}
    {phase : Phase} {records : List ReferenceRedirection}
    (hrecords : a.references phase objects = .ok records)
    (h : ∀ pid, ∀ record ∈ records, ∀ image,
      a.view.registry.mapping? pid a.view.token = some image → ∀ write,
      record.writing? image (a.view.registry.bases pid) = some write → kind pid write.1 write.2) :
    DoesOnly asks kind (Each.collect fun _ ↦
      onProcess (PatchSteps.redirectReferences a.view.registry a.view.token records)) := fun _ ↦
  Each.keeps_collect fun o _ _ ↦ did_onProcess (PatchSteps.did_redirectReferences
    (fun _ ↦ isPatchable_of_mem_references hrecords) (h o.pid))

theorem doesOnly_redirectFunctions (tables : List ObjectTable) (htoken : patch.token = a.view.token) :
    DoesOnly asks (a.LateWrite objects) (a.redirectFunctions tables patch) := by
  have hstill : ∀ {o : AttachedProcess} {α : Type} {act : TargetM α},
      (∀ t : Target, Keeps (t.WroteOnly (a.LateWrite objects o.pid)) act) →
      Keeps (fun s ↦ o.Did asks (a.LateWrite objects o.pid) (Staged.process s))
        (Staged.onTarget act) := fun h ↦ did_onTarget fun t _ ↦ h t
  intro fleet
  refine (keeps_suspendEach (fun _ _ ↦ hstill fun _ ↦ WroteOnly.ignoresThreads.suspend)
    fun _ _ ↦ hstill fun _ ↦ WroteOnly.ignoresThreads.resume).bind fun _ ↦ Keeps.ensuring ?_
    (Each.keeps_attempt fun _ _ ↦ hstill fun _ ↦ WroteOnly.ignoresThreads.resume)
  refine (Each.keeps_collect fun _ _ _ ↦ hstill fun _ ↦ WroteOnly.ignoresThreads.threadIps).bind
    fun ips ↦ ?_
  have hquiet : Keeps (List.Forall₂ (fun o s ↦ o.Did asks (a.LateWrite objects o.pid)
      (Staged.process s)) fleet) (a.planFunctions tables ips) :=
    keeps_planFunctions a (fun existing size ips ↦ Each.keeps_collect fun o _ i ↦
      keeps_optionsIn (fun image rva size ↦ hstill fun _ ↦ keeps_readSite
        (WroteOnly.ignoresThreads.read image) rva size) _ _ _ _) tables ips
  refine Triple.bind ((hquiet.and (arePlanned_planFunctions tables ips)).mono
    (fun _ hs ↦ ⟨hs, trivial⟩) (fun _ _ h ↦ h) fun _ h ↦ h.1)
    fun plan staged hs ↦ ?_
  obtain ⟨hstaged, hplanned⟩ := hs
  refine (Keeps.bind (Each.keeps_collect fun o _ i ↦ ?_) fun _ ↦ Keeps.pure _) staged hstaged
  refine Triple.bind_get fun s hs ↦ ?_
  rw [hs.pid, htoken]
  have hdone : ∀ {s'}, s' = s → o.Did asks (a.LateWrite objects o.pid) s'.process :=
    fun heq ↦ heq ▸ hs
  split
  · exact Triple.pure fun _ heq ↦ hdone heq
  · next image himage =>
    refine Triple.mono (Keeps.bind (Keeps.forM fun r hr ↦ did_redirectFunction _ _ ?_) fun _ ↦
      Keeps.forM fun r hr ↦ did_redirectLibraryFunction ?_) (fun _ heq ↦ hdone heq)
      (fun _ _ h ↦ h) fun _ h ↦ h
    · exact fun existing ranges hexisting hranges rva address bytes hrange ha ↦
        .function (hplanned.functions r hr).2 hexisting hranges hrange ha
    · exact fun address bytes ha ↦
        .libraryFunction (hplanned.libraries r hr).2 himage ha

end Steps

/-! ### Phases -/

theorem doesOnly_holdAll : DoesOnly [.enterSyncPoint] (fun _ _ _ ↦ False) a.holdAll := fun _ ↦
  Each.keeps_forEach fun _ _ ↦ did_hold a.files (List.mem_singleton_self _)

theorem doesOnly_prepareAll (htoken : patch.token = a.view.token) :
    DoesOnly [] (a.EarlyWrite objects patch) (a.prepareAll objects patch) := by
  have hearly : ∀ t stripped r, PatchView.phaseOf t stripped r = .preEntry →
      ¬ t.LeadsToFunction stripped r := by
    intro t stripped r hphase hleads
    cases hphase.symm.trans (PatchView.phaseOf_eq_postEntry_iff.mpr hleads)
  intro fleet
  refine (doesOnly_hooks _ _ fleet).bind fun preHooks ↦
    Triple.bind_lift (fun records hrecords ↦ ?_) fun _ hs ↦ hs
  refine Keeps.bind (doesOnly_redirectReferences hrecords (fun pid record hrecord image himage _ hwrite ↦
    .reference (writesReference_of_references hrecords hearly hrecord himage hwrite)) fleet)
    fun failures ↦ Keeps.bind (Each.keeps_forEach fun o _ ↦ did_onProcess ?_) fun _ ↦ Keeps.pure _
  exact PatchSteps.did_prepareEntry fun image himage address bytes h ↦
    EarlyWrite.entry (htoken ▸ himage) (h.congr rfl rfl rfl)

theorem doesOnly_callAll (htoken : patch.token = a.view.token) :
    DoesOnly [.callEntryPoint] (a.EntryWrite patch.entryPoint) (a.callAll patch) := fun _ ↦
  Each.keeps_forEach fun _ _ ↦ did_onProcess (PatchSteps.did_callEntryPoint a.files
    (fun _ ↦ .cave rfl) fun _ _ _ hsaved himage ha ↦
      ⟨.code hsaved (htoken ▸ himage) ha (.inl rfl), .code hsaved (htoken ▸ himage) ha (.inr rfl)⟩)

theorem doesOnly_completeAll (htoken : patch.token = a.view.token) :
    DoesOnly [] (a.LateWrite objects) (a.completeAll objects patch) := by
  intro fleet
  refine Triple.bind_lift (fun records hrecords ↦ ?_) fun _ hs ↦ hs
  have hreferences : DoesOnly [] (a.LateWrite objects) (a.redirectEverywhere records) := fun fleet ↦
    (doesOnly_redirectReferences hrecords (fun pid record hrecord image himage _ hwrite ↦
      .reference (writesReference_of_references hrecords
        (fun _ _ _ ↦ PatchView.phaseOf_eq_postEntry_iff.mp) hrecord himage hwrite)) fleet).bind
      fun _ ↦ Keeps.pure _
  exact (hreferences fleet).bind fun postEntry ↦
    (doesOnly_redirectFunctions _ (show ({ patch with postEntry } : PatchRecord).token = _ from htoken)
      fleet).bind
      fun _ ↦ (doesOnly_hooks _ _ fleet).bind fun _ ↦ Keeps.pure _

theorem doesOnly_letGoAll : DoesOnly [.leaveSyncPoint] (fun _ _ _ ↦ False) a.letGoAll := fun _ ↦
  Each.keeps_forEach fun _ _ ↦ did_letGo a.files (List.mem_singleton_self _)

/-- Up to the call of the entry point, processes are brought to a sync point, nothing else is asked
of them, and only early edits are written. -/
theorem doesOnly_beforeEntry (htoken : patch.token = a.view.token) :
    DoesOnly [.enterSyncPoint] (a.EarlyWrite objects patch) (a.beforeEntry objects patch) :=
  fun fleet ↦ (a.doesOnly_holdAll.mono (List.Subset.refl _) (fun _ _ _ h ↦ h.elim) fleet).bind
    fun _ ↦ (a.doesOnly_prepareAll objects patch htoken).mono (List.nil_subset _)
      (fun _ _ _ h ↦ h) fleet

/-- What is prepared for the entry point is the same patch. -/
theorem triple_prepareAll :
    Triple (fun _ ↦ True) (a.prepareAll objects patch)
      (fun before _ ↦ before.patch.token = patch.token ∧ before.patch.entryPoint = patch.entryPoint)
      fun _ ↦ True :=
  Keeps.triv_bind fun _ ↦ Keeps.triv_bind fun _ ↦ Keeps.triv_bind fun _ ↦ Keeps.triv_bind fun _ ↦
    Triple.pure fun _ _ ↦ ⟨rfl, rfl⟩

/-- What an activation did to a process up to its preparation: the process was brought to a sync
point, and only early edits were written. -/
def IsPrepared (o p : AttachedProcess) : Prop :=
  o.Did [.enterSyncPoint] (a.EarlyWrite objects patch o.pid) p

/-- What it did up to the call of the entry point, which comes behind that. -/
def IsCalled (o p : AttachedProcess) : Prop :=
  ∃ q, a.IsPrepared objects patch o q ∧
    q.Did [.callEntryPoint] (a.EntryWrite patch.entryPoint o.pid) p

/-- What it did up to its completion: only late edits were written behind the call. -/
def IsCompleted (o p : AttachedProcess) : Prop :=
  ∃ q, a.IsCalled objects patch o q ∧ q.Did [] (a.LateWrite objects o.pid) p

/-- What an activation did to a process, wherever it stopped. -/
def WentThrough (o p : AttachedProcess) : Prop :=
  ∃ q, a.IsCompleted objects patch o q ∧ q.Did [.leaveSyncPoint] (fun _ _ ↦ False) p

section Orders

variable {a objects patch} {o p : AttachedProcess}

theorem IsPrepared.isCalled (h : a.IsPrepared objects patch o p) : a.IsCalled objects patch o p :=
  ⟨p, h, .refl _ _ _⟩

theorem IsCalled.isCompleted (h : a.IsCalled objects patch o p) : a.IsCompleted objects patch o p :=
  ⟨p, h, .refl _ _ _⟩

theorem IsCompleted.wentThrough (h : a.IsCompleted objects patch o p) :
    a.WentThrough objects patch o p :=
  ⟨p, h, .refl _ _ _⟩

theorem IsCalled.pid (h : a.IsCalled objects patch o p) : p.pid = o.pid := by
  obtain ⟨q, hprepared, hcalled⟩ := h
  exact hcalled.pid.trans (Did.pid hprepared)

theorem IsCompleted.pid (h : a.IsCompleted objects patch o p) : p.pid = o.pid := by
  obtain ⟨q, hcalled, hcompleted⟩ := h
  exact hcompleted.pid.trans hcalled.pid

end Orders

/-- The phases of an activation: how they follow one another, what the agents of all processes are
asked for in each and what is written, and between which points of their dialogs the processes are
brought, where a phase comes to an end and where it may stop short. -/
structure IsPhased (hosts : List Host) : Prop where
  phases : a.run objects patch = (do
    a.holdAll
    let before ← a.prepareAll objects patch
    a.callAll before.patch
    let patch ← a.completeAll objects before.patch
    a.letGoAll
    pure patch)
  same : Triple (fun _ ↦ True) (a.prepareAll objects patch)
    (fun before _ ↦ before.patch.token = patch.token ∧ before.patch.entryPoint = patch.entryPoint)
    fun _ ↦ True
  holds : DoesOnly [.enterSyncPoint] (fun _ _ _ ↦ False) a.holdAll
  prepares : DoesOnly [] (a.EarlyWrite objects patch) (a.prepareAll objects patch)
  calls : ∀ patch', patch'.token = patch.token →
    DoesOnly [.callEntryPoint] (a.EntryWrite patch'.entryPoint) (a.callAll patch')
  completes : ∀ patch', patch'.token = patch.token →
    DoesOnly [] (a.LateWrite objects) (a.completeAll objects patch')
  letsGo : DoesOnly [.leaveSyncPoint] (fun _ _ _ ↦ False) a.letGoAll
  log : ∀ fleet : Fleet, List.Forall₂ (a.WentThrough objects patch) fleet
    (((a.run objects patch).run (fleet.map Staged.ofProcess)).2.map Staged.process)
  toEntered : Triple (List.Forall₂ Host.IsLoaded hosts) a.holdAll
    (fun _ ↦ List.Forall₂ Host.IsEntered hosts) (List.Forall₂ Host.IsUncalled hosts)
  atEntered : Keeps (List.Forall₂ Host.IsEntered hosts) (a.prepareAll objects patch)
  toHeld : ∀ patch', Triple (List.Forall₂ Host.IsEntered hosts) (a.callAll patch')
    (fun _ ↦ List.Forall₂ Host.IsHeld hosts) (List.Forall₂ Host.IsHeld hosts)
  atHeld : ∀ patch', Keeps (List.Forall₂ Host.IsHeld hosts) (a.completeAll objects patch')
  toLeft : Triple (List.Forall₂ Host.IsHeld hosts) a.letGoAll
    (fun _ ↦ List.Forall₂ Host.IsLeft hosts) (List.Forall₂ Host.IsRevertible hosts)

variable {patch}

/-- What an activation writes into processes and asks of their agents is in the order of its
phases. -/
theorem wentThrough_run (htoken : patch.token = a.view.token) (fleet : Fleet) :
    List.Forall₂ (a.WentThrough objects patch) fleet
      (((a.run objects patch).run (fleet.map Staged.ofProcess)).2.map Staged.process) := by
  have hrun : Triple (List.Forall₂ (fun o s ↦ a.IsPrepared objects patch o (Staged.process s)) fleet)
      (a.run objects patch)
      (fun _ ↦ List.Forall₂ (fun o s ↦ a.WentThrough objects patch o (Staged.process s)) fleet)
      (List.Forall₂ (fun o s ↦ a.WentThrough objects patch o (Staged.process s)) fleet) := by
    rw [run_eq_phases]
    refine Triple.bind ((a.doesOnly_holdAll.mono (List.Subset.refl _) (fun _ _ _ h ↦ h.elim)
      fleet).mono (fun _ hs ↦ hs) (fun _ _ hs ↦ hs)
      fun _ hs ↦ hs.imp fun _ _ h ↦ (IsPrepared.isCalled h).isCompleted.wentThrough) fun _ ↦ ?_
    refine Triple.bind ((((a.doesOnly_prepareAll objects patch htoken).mono (List.nil_subset _)
      (fun _ _ _ h ↦ h) fleet).and (a.triple_prepareAll objects patch)).mono
      (fun _ hs ↦ ⟨hs, trivial⟩) (fun _ _ hs ↦ hs)
      fun _ hs ↦ hs.1.imp fun _ _ h ↦ (IsPrepared.isCalled h).isCompleted.wentThrough)
      fun before staged hs ↦ ?_
    obtain ⟨hstaged, hbefore, hentry⟩ := hs
    have hcalls := (a.doesOnly_callAll before.patch (hbefore.trans htoken)).behind fleet
      (R := a.IsPrepared objects patch) Did.pid
    rw [hentry] at hcalls
    refine (Triple.bind (hcalls.mono (fun _ hs ↦ hs) (fun _ _ hs ↦ hs)
      fun _ hs ↦ hs.imp fun _ _ h ↦ (IsCalled.isCompleted h).wentThrough) fun _ ↦ ?_) staged hstaged
    refine Triple.bind (((a.doesOnly_completeAll objects before.patch (hbefore.trans htoken)).behind fleet
      (R := a.IsCalled objects patch) IsCalled.pid).mono (fun _ hs ↦ hs) (fun _ _ hs ↦ hs)
      fun _ hs ↦ hs.imp fun _ _ h ↦ IsCompleted.wentThrough h) fun _ ↦ ?_
    exact Triple.bind (a.doesOnly_letGoAll.behind fleet (R := a.IsCompleted objects patch)
        IsCompleted.pid)
      fun _ ↦ Triple.pure fun _ hs ↦ hs
  have hend := hrun (fleet.map Staged.ofProcess)
    (List.forall₂_map_right_iff.mpr (List.forall₂_same.mpr fun _ _ ↦ .refl _ _ _))
  refine List.forall₂_map_right_iff.mpr ?_
  generalize (a.run objects patch).run (fleet.map Staged.ofProcess) = r at hend ⊢
  rcases r with ⟨_ | _, _⟩ <;> exact hend

/-- An activation goes through its phases. -/
theorem isPhased (htoken : patch.token = a.view.token) (hosts : List Host) :
    a.IsPhased objects patch hosts where
  phases := a.run_eq_phases objects patch
  same := a.triple_prepareAll objects patch
  holds := a.doesOnly_holdAll
  prepares := a.doesOnly_prepareAll objects patch htoken
  calls := fun patch' heq ↦ a.doesOnly_callAll patch' (heq.trans htoken)
  completes := fun patch' heq ↦ a.doesOnly_completeAll objects patch' (heq.trans htoken)
  letsGo := a.doesOnly_letGoAll
  log := a.wentThrough_run objects htoken
  toEntered := a.triple_holdAll hosts
  atEntered := a.keeps_prepareAll_of_dialog objects patch Host.isEntered_ofDialog
  toHeld := fun patch' ↦ a.triple_callAll patch' hosts
  atHeld := fun patch' ↦ a.keeps_completeAll_of_dialog objects patch' Host.isHeld_ofDialog
  toLeft := a.triple_letGoAll hosts

end Activation
end LivePatch
