import LivePatch.Proofs.Patch.Edits
import LivePatch.Proofs.Patch.Entry

/-!
# Making edits

Work on a process makes an edit when the edit is in place behind it, wherever the work starts, and
leaves an edit alone that is in place already. Each step of an activation makes the edits that it is
there for, as long as no two of them get into each other's spots.
-/

namespace LivePatch

/-- Running the entry point changes memory at most at places that its code takes. -/
theorem PatchSteps.within_callEntryPoint {p : PatchRecord} {registry : Registry}
    {q q' : AttachedProcess} {files : FileTree} {P : Places} (hgate : q.target.gate.IsTolerant)
    (hpage : q.target.memory.isMapped q.target.nextAllocation = false)
    (hrun : (callEntryPoint files registry p).run q = (.ok (), q'))
    (hplaces : ∀ saved image, p.entryPoint = some saved → registry.mapping? q.pid p.token = some image →
      ∀ base i, (image.spot saved.rva (max saved.code.size X86.successStub.size)).places base i →
        P base i) : q.Within ⟨P, 0, [], true⟩ q' := by
  unfold callEntryPoint at hrun
  rw [run_bind, run_get] at hrun
  dsimp only at hrun
  split at hrun
  · next saved image hsaved himage =>
    let spot := image.spot saved.rva (max saved.code.size X86.successStub.size)
    have hwrite : ∀ (c : Cave) (bytes : Bytes), bytes.size ≤ spot.size →
        Keeps ((Cave.opened q.target c.page).Within (Cave.leewayInside (.at P) c))
          (image.write saved.rva bytes) := by
      refine fun c bytes hsize ↦ Mapping.keeps_write_of_touches fun address ha base i ht ↦
        .inl (hplaces saved image hsaved himage base i ?_)
      have hstart : address.toNat = spot.start := (Mapping.address_eq_ok ha).1
      have hbounds := ht.bounds
      change spot.start ≤ base.toNat + i ∧ base.toNat + i < spot.start + spot.size
      omega
    exact (saved.triple_callOnce_of_call (l := .at P) files hgate
      (fun c ↦ saved.keeps_callUncovered_of_write files (hwrite c _ (Nat.le_max_left ..))
        (hwrite c _ (Nat.le_max_right ..))) hpage rfl rfl).ok (.refl ..) hrun
  · cases hrun
    exact .refl ..

namespace PlacedEdit

variable {σ τ α β : Type} {sight : σ → UInt32 × Memory} {e : PlacedEdit}

/-- Work in the process of an edit that makes it, if its result says so, and that leaves it in place
if it is. -/
def IsMadeBy (e : PlacedEdit) (sight : σ → UInt32 × Memory) (act : ExceptT Stop (StateM σ) α)
    (made : α → Prop) : Prop :=
  ∀ done, Triple (fun s ↦ e.IsSeen done (sight s)) act
    (fun a s ↦ e.IsSeen (done ∨ made a) (sight s)) fun s ↦ e.IsSeen done (sight s)

namespace IsMadeBy

variable {act : ExceptT Stop (StateM σ) α} {made : α → Prop}

theorem mono {made' : α → Prop} (h : e.IsMadeBy sight act made) (hmade : ∀ a, made' a → made a) :
    e.IsMadeBy sight act made' :=
  fun done ↦ (h done).mono (fun _ hs ↦ hs) (fun a _ hs ↦ hs.mono (Or.imp_right (hmade a)))
    fun _ hs ↦ hs

/-- Work that only looks makes nothing. -/
theorem of_quiet (h : Quiet sight act) : e.IsMadeBy sight act fun _ ↦ False :=
  fun _ ↦ (h.keeps _).mono (fun _ hs ↦ hs) (fun _ _ hs ↦ hs.mono (Or.resolve_right · id))
    fun _ hs ↦ hs

/-- An edit that is in place whatever memory holds need not be made. -/
theorem of_stands {always : Prop} (h : e.IsMadeBy sight act made) (hstands : always → ∀ m, e.Stands m) :
    e.IsMadeBy sight act fun a ↦ always ∨ made a := by
  refine fun done ↦ (h done).mono (fun _ hs ↦ hs) (fun a s hs ↦ ⟨hs.1, ?_⟩) fun _ hs ↦ hs
  rintro (h | h | h)
  · exact hs.2 (.inl h)
  · exact hstands h _
  · exact hs.2 (.inr h)

theorem pure (a : α) : e.IsMadeBy sight (pure a : ExceptT Stop (StateM σ) α) fun _ ↦ False :=
  of_quiet (.pure a)

/-- Work after work makes what either makes. -/
theorem bind {first : Prop} {second : β → Prop} {f : α → ExceptT Stop (StateM σ) β}
    (h : e.IsMadeBy sight act fun _ ↦ first) (hf : ∀ a, e.IsMadeBy sight (f a) second) :
    e.IsMadeBy sight (act >>= f) fun b ↦ first ∨ second b :=
  fun done ↦ (h done).bind fun a ↦ (hf a _).mono (fun _ hs ↦ hs) (fun _ _ hs ↦ hs.mono or_assoc.mpr)
    fun _ hs ↦ hs.mono Or.inl

/-- Work on the entries of a list makes what the work on one of them makes. -/
theorem forM {made : τ → Prop} {f : τ → ExceptT Stop (StateM σ) PUnit} {items : List τ}
    (h : ∀ i ∈ items, e.IsMadeBy sight (f i) fun _ ↦ made i) :
    e.IsMadeBy sight (items.forM f) fun _ ↦ ∃ i ∈ items, made i := by
  induction items with
  | nil => exact (IsMadeBy.pure PUnit.unit).mono fun _ ⟨_, hi, _⟩ ↦ (List.not_mem_nil hi).elim
  | cons i items ih =>
    refine ((h i (List.mem_cons_self ..)).bind fun _ ↦
      ih fun j hj ↦ h j (List.mem_cons_of_mem i hj)).mono ?_
    rintro _ ⟨j, hj, hmade⟩
    rcases List.mem_cons.mp hj with rfl | hj
    · exact .inl hmade
    · exact .inr ⟨j, hj, hmade⟩

/-- Work on the entries of a list that answers for each makes what the answer for one of them says. -/
theorem mapM {made : τ → α → Prop} {f : τ → ExceptT Stop (StateM σ) α} {items : List τ}
    (h : ∀ i ∈ items, e.IsMadeBy sight (f i) (made i)) :
    e.IsMadeBy sight (items.mapM f) fun as ↦ ∃ p ∈ items.zip as, made p.1 p.2 := by
  induction items with
  | nil => exact (IsMadeBy.pure []).mono fun _ ⟨_, hp, _⟩ ↦ (List.not_mem_nil hp).elim
  | cons i items ih =>
    intro done
    rw [List.mapM_cons]
    refine (h i (List.mem_cons_self ..) done).bind fun a ↦ ?_
    refine Triple.bind ((ih (fun j hj ↦ h j (List.mem_cons_of_mem i hj)) _).mono (fun _ hs ↦ hs)
      (fun _ _ hs ↦ hs) fun _ hs ↦ hs.mono Or.inl) fun as ↦ Triple.pure fun _ hs ↦ hs.mono ?_
    rintro (hdone | ⟨p, hp, hmade⟩)
    · exact .inl (.inl hdone)
    · rcases List.mem_cons.mp hp with rfl | hp
      · exact .inl (.inr hmade)
      · exact .inr ⟨p, hp, hmade⟩

/-- Work on the target of a process. -/
theorem onTarget {act : TargetM α} (h : e.IsMadeBy Target.sight act made) :
    e.IsMadeBy (fun p : AttachedProcess ↦ p.target.sight) (AttachedProcess.onTarget act) made :=
  fun done ↦ AttachedProcess.triple_target (h done)

/-- Work while a process is suspended. -/
theorem suspended {act : TargetM α} (h : e.IsMadeBy Target.sight act made) :
    e.IsMadeBy Target.sight (Target.suspended act) made :=
  fun done ↦ Triple.bind (Target.quiet_suspend.keeps _) fun _ ↦ (h done).ensuring
    (fun a _ hs ↦ (Target.quiet_resume.keeps (e.IsSeen (done ∨ made a))).run hs)
    fun _ hs ↦ (Target.quiet_resume.keeps (e.IsSeen done)).run hs

end IsMadeBy

section Steps

variable (hsound : e.edit.IsSound)

include hsound

/-- What is written apart from the spots of an edit leaves it in place. -/
theorem Stands.write {m m' : Memory} (h : e.Stands m) {w : UInt64 × Bytes}
    (hwrite : m.write w.1 w.2 = .ok m') (hapart : ∀ s ∈ e.spots, s.Apart (.ofWrite w)) : e.Stands m' :=
  PatchEdit.StandsIn.keep h hsound (Memory.keepsSpots_of_write hwrite hapart)

/-- A write makes an edit if the edit is in place where the bytes are in memory. -/
theorem isMadeBy_write {image : Mapping} {rva : UInt32} {bytes : Bytes} {made : Prop}
    (hmade : made → ∀ address m, image.address rva = .ok address → m.Has (address, bytes) → e.Stands m)
    (hapart : made ∨ ∀ s ∈ e.spots, s.Apart (image.spot rva bytes.size)) :
    e.IsMadeBy Target.sight (image.write rva bytes) fun _ ↦ made := by
  intro done
  refine (image.triple_write (P := e.IsSeen done) (Q := e.IsSeen (done ∨ made))
    fun address pid m m' haddress hseen hwrite ↦ ⟨hseen.1, ?_⟩).mono (fun _ hs ↦ hs)
    (fun _ _ hs ↦ hs) fun _ hs ↦ hs.elim id fun hs ↦ hs.mono Or.inl
  have hhas : m'.Has (address, bytes) := Memory.has_of_write hwrite
  rcases hapart with hnow | hapart
  · exact fun _ ↦ hmade hnow address m' haddress hhas
  · refine fun hdone ↦ hdone.elim (fun hdone ↦ ?_) fun hnow ↦ hmade hnow address m' haddress hhas
    refine (hseen.2 hdone).write hsound (w := (address, bytes)) hwrite ?_
    rwa [Mapping.ofWrite_eq_spot haddress]

/-- Redirecting a reference makes the redirection unless it fails. -/
theorem isMadeBy_redirectReference {r : ReferenceRedirection} (hkind : r.kind.isPatchable = true)
    (hspared : e.IsSparedBy (.reference r)) :
    e.IsMadeBy Target.sight (PatchSteps.redirectReference e.image (e.registry.bases e.pid) r)
      fun failed ↦ .reference r = e.edit ∧ failed = false := by
  intro done t ht
  have happly : Triple _ (r.apply e.image (e.registry.bases e.pid)) _ _ :=
    ReferenceRedirection.triple_apply (P := e.IsSeen done)
      (Q := e.IsSeen (done ∨ .reference r = e.edit)) hkind
      fun write pid m m' hwriting hseen hwrite ↦ ⟨hseen.1, ?_⟩
  · have hrun := happly t ht
    rw [PatchSteps.run_redirectReference]
    generalize (r.apply e.image (e.registry.bases e.pid)).run t = result at hrun ⊢
    have hkept : ∀ t' : Target, e.IsSeen done t'.sight ∨ e.IsSeen (done ∨ .reference r = e.edit)
        t'.sight → e.IsSeen done t'.sight := fun _ h ↦ h.elim id fun h ↦ h.mono Or.inl
    rcases result with ⟨(_ | _) | _, t'⟩
    · exact (hkept t' hrun).mono fun h ↦ h.resolve_right fun h ↦ by cases h.2
    · exact hkept t' hrun
    · exact hrun.mono (Or.imp_right And.left)
  · obtain ⟨base, s, hbase, haddress, -⟩ := ReferenceRedirection.writing?_eq_some_iff.mp hwriting
    have hstands : .reference r = e.edit → e.Stands m' := by
      intro heq
      unfold Stands
      rw [← heq]
      exact ⟨base, hbase, ReferenceRedirection.resolvesIn_of_has hwriting hbase
        (Memory.has_of_write hwrite)⟩
    rcases hspared with heq | hapart
    · exact fun _ ↦ hstands heq
    · refine fun h ↦ h.elim (fun hdone ↦ (hseen.2 hdone).write hsound hwrite fun s hs ↦ ?_) hstands
      have := hapart s hs _ (List.mem_singleton_self _)
      rwa [← ReferenceRedirection.size_of_writing? hwriting,
        ← Mapping.ofWrite_eq_spot haddress] at this

/-- Redirecting references makes the redirections that do not fail. -/
theorem isMadeBy_redirectReferences {token : Token} {records : List ReferenceRedirection}
    (himage : e.registry.mapping? e.pid token = some e.image)
    (hkinds : ∀ r ∈ records, r.kind.isPatchable = true)
    (hspared : ∀ r ∈ records, e.IsSparedBy (.reference r)) :
    e.IsMadeBy (fun p : AttachedProcess ↦ p.target.sight)
      (PatchSteps.redirectReferences e.registry token records)
      fun failures ↦ ∃ x ∈ records.zip failures, .reference x.1 = e.edit ∧ x.2 = false := by
  intro done
  refine Triple.bind_get fun p hp ↦ ?_
  rw [show p.pid = e.pid from hp.1]
  dsimp only
  rw [himage]
  have hall := IsMadeBy.mapM fun r hr ↦ isMadeBy_redirectReference hsound (hkinds r hr) (hspared r hr)
  exact (hall.suspended.onTarget done).mono (fun _ h ↦ h ▸ hp) (fun _ _ h ↦ h) fun _ h ↦ h

/-- Emptying the slot of an initializer makes that edit. -/
theorem isMadeBy_neuter {slot : UInt32} (hspared : e.IsSparedBy (.initializer slot)) :
    e.IsMadeBy Target.sight (e.image.writeWord slot 0) fun _ ↦ .initializer slot = e.edit := by
  refine isMadeBy_write hsound (fun heq address m haddress hhas ↦ ?_) (hspared.imp_right ?_)
  · unfold Stands
    rw [← heq]
    exact ⟨address, haddress, hhas⟩
  · exact fun h s hs ↦ h s hs _ (List.mem_singleton_self _)

/-- Disabling the library's own entry function makes that edit. -/
theorem isMadeBy_disableFunction {rva : UInt32} (hspared : e.IsSparedBy (.dllMain rva)) :
    e.IsMadeBy Target.sight (disableFunction e.image rva) fun _ ↦ .dllMain rva = e.edit := by
  refine isMadeBy_write hsound (fun heq address m haddress hhas ↦ ?_) (hspared.imp_right ?_)
  · unfold Stands
    rw [← heq]
    exact ⟨address, haddress, hhas⟩
  · exact fun h s hs ↦ h s hs _ (List.mem_singleton_self _)

/-- Copying the security cookie makes that edit. -/
theorem isMadeBy_copyCookie {c : CookieRecord} {module : Mapping}
    (hmodule : e.registry.mapping? e.pid .module = some module) (hspared : e.IsSparedBy (.cookie c))
    (hown : e.spots.Pairwise Spot.Apart) :
    e.IsMadeBy Target.sight (PatchSteps.copyCookie e.image module c) fun _ ↦ .cookie c = e.edit := by
  intro done
  have hspots : PatchEdit.spotsIn e.registry e.pid e.image (.cookie c)
      = [e.image.spot c.patchRva 8, module.spot c.moduleRva 8] := by
    unfold PatchEdit.spotsIn
    rw [hmodule]
    rfl
  refine Triple.bind (R := fun value t ↦ e.IsSeen done t.sight ∧ ∃ source bytes,
    module.address c.moduleRva = .ok source ∧ t.sight.2.read source 8 = .ok bytes ∧
      Bytes.ofU64 value = bytes) ?_ fun value ↦ ?_
  · intro t ht
    refine Triple.bind (((module.triple_read c.moduleRva 8 t).and
      (module.quiet_read c.moduleRva 8 t.sight)).mono (fun _ h ↦ ⟨h, h ▸ rfl⟩)
      (fun _ _ h ↦ h) fun s hs ↦ ?_) (fun bytes ↦ Triple.pure fun s hs ↦ ?_) t rfl
    · rw [hs.2]
      exact ht
    · obtain ⟨⟨⟨source, hsource, hread⟩, -⟩, hs⟩ := hs
      rw [hs]
      exact ⟨ht, source, bytes, hsource, hread, Bytes.ofU64_number (Memory.size_of_read hread)⟩
  · refine (e.image.triple_write (P := fun seen ↦ e.IsSeen done seen ∧ ∃ source bytes,
      module.address c.moduleRva = .ok source ∧ seen.2.read source 8 = .ok bytes ∧
        Bytes.ofU64 value = bytes) (Q := e.IsSeen (done ∨ .cookie c = e.edit)) ?_).mono
      (fun _ h ↦ h) (fun _ _ h ↦ h) fun _ h ↦ h.elim And.left fun h ↦ h.mono Or.inl
    rintro address pid m m' haddress ⟨hseen, source, bytes, hsource, hread, rfl⟩ hwrite
    have hwritten : m.write (address, Bytes.ofU64 value).1 (address, Bytes.ofU64 value).2 = .ok m' := hwrite
    have hsize : (Bytes.ofU64 value).size = 8 := Bytes.length_ofNumber 8 _
    refine ⟨hseen.1, ?_⟩
    by_cases heq : .cookie c = e.edit
    · refine fun _ ↦ ?_
      unfold Stands spots at *
      rw [← heq] at hown ⊢
      rw [hspots] at hown
      intro module' hmodule'
      cases hmodule.symm.trans hmodule'
      refine ⟨source, address, Bytes.ofU64 value, hsource, haddress, ?_, ?_⟩
      · refine (Memory.read_eq_ok_iff_of_write hwritten ?_).mpr hread
        rw [hsize, (Mapping.address_eq_ok hsource).1, (Mapping.address_eq_ok haddress).1]
        exact (List.pairwise_pair.mp hown).symm
      · rw [← hsize]
        exact Memory.has_of_write hwritten
    · refine fun h ↦ (hseen.2 (h.resolve_right heq)).write hsound (w := (address, _)) hwrite ?_
      intro s hs
      rw [Mapping.ofWrite_eq_spot haddress]
      exact hsize ▸ hspared.resolve_left heq s hs _ (List.mem_cons_self ..)

/-- Preparing the entry point makes all edits that are there for that. -/
theorem isMadeBy_prepareEntry {p : PatchRecord}
    (himage : e.registry.mapping? e.pid p.token = some e.image)
    (hspared : ∀ other ∈ p.preparations, e.IsSparedBy other) (hown : e.spots.Pairwise Spot.Apart) :
    e.IsMadeBy (fun p : AttachedProcess ↦ p.target.sight) (PatchSteps.prepareEntry e.registry p)
      fun _ ↦ e.edit ∈ p.preparations := by
  intro done
  refine Triple.bind_get fun q hq ↦ ?_
  rw [show q.pid = e.pid from hq.1]
  dsimp only
  rw [himage]
  have hslots : e.IsMadeBy Target.sight (p.neutered.forM fun slot ↦ e.image.writeWord slot 0)
      fun _ ↦ ∃ slot ∈ p.neutered, .initializer slot = e.edit :=
    IsMadeBy.forM fun slot hslot ↦ isMadeBy_neuter hsound
      (hspared _ (by simp [PatchRecord.preparations, hslot]))
  have hmain : ∀ {main : TargetM Unit}, (p.dllMain = none → main = pure ()) →
      (∀ rva, p.dllMain = some rva → main = disableFunction e.image rva) →
      e.IsMadeBy Target.sight main fun _ ↦ ∃ rva, p.dllMain = some rva ∧ .dllMain rva = e.edit := by
    intro main hnone hsome
    cases hrva : p.dllMain with
    | none =>
      rw [hnone hrva]
      refine (IsMadeBy.pure ()).mono ?_
      rintro _ ⟨_, ⟨⟩, -⟩
    | some rva =>
      rw [hsome rva hrva]
      refine (isMadeBy_disableFunction hsound
        (hspared _ (by simp [PatchRecord.preparations, hrva]))).mono ?_
      rintro _ ⟨_, ⟨⟩, h⟩
      exact h
  have hcookie : ∀ c module, p.cookie = some c → e.registry.mapping? e.pid .module = some module →
      e.IsMadeBy Target.sight (PatchSteps.copyCookie e.image module c) fun _ ↦ .cookie c = e.edit :=
    fun c module hc hmodule ↦ isMadeBy_copyCookie hsound hmodule
      (hspared _ (by simp [PatchRecord.preparations, hc])) hown
  have hall : ∀ {rest : TargetM Unit}, e.IsMadeBy Target.sight rest (fun _ ↦
      (∃ c, p.cookie = some c ∧ .cookie c = e.edit) ∨
        ∃ rva, p.dllMain = some rva ∧ .dllMain rva = e.edit) →
      e.IsMadeBy Target.sight ((p.neutered.forM fun slot ↦ e.image.writeWord slot 0) >>= fun _ ↦ rest)
        fun _ ↦ e.edit ∈ p.preparations := fun hrest ↦ (hslots.bind fun _ ↦ hrest).mono fun _ h ↦ by
    simpa [PatchRecord.preparations, eq_comm, or_assoc] using h
  refine ((hall ?_).suspended.onTarget done).mono (fun _ h ↦ h ▸ hq) (fun _ _ h ↦ h) fun _ h ↦ h
  cases hc : p.cookie with
  | none =>
    refine (hmain (fun h ↦ by rw [h]) fun _ h ↦ by rw [h]).of_stands ?_
    rintro ⟨_, ⟨⟩, -⟩
  | some c =>
    cases hmodule : e.registry.mapping? e.pid .module with
    | none =>
      refine (hmain (fun h ↦ by rw [h]) fun _ h ↦ by rw [h]).of_stands ?_
      rintro ⟨_, ⟨⟩, heq⟩ m
      unfold Stands
      rw [← heq]
      intro module h
      cases hmodule.symm.trans h
    | some module =>
      refine ((hcookie c module hc hmodule).bind fun _ ↦
        hmain (fun h ↦ by rw [h]) fun _ h ↦ by rw [h]).mono fun _ h ↦ h.imp_left ?_
      rintro ⟨_, ⟨⟩, heq⟩
      exact heq

/-- Running the entry point leaves an edit in place that its code does not reach into. -/
theorem keeps_callEntryPoint {p : PatchRecord} {q q' : AttachedProcess} {files : FileTree}
    (himage : e.registry.mapping? e.pid p.token = some e.image)
    (hspared : ∀ saved, p.entryPoint = some saved → e.IsSparedBy (.entryPoint saved))
    (hgate : q.target.gate.IsTolerant)
    (hpage : q.target.memory.isMapped q.target.nextAllocation = false)
    (hrun : (PatchSteps.callEntryPoint files e.registry p).run q = (.ok (), q')) {done : Prop}
    (hq : e.IsSeen done q.target.sight) : e.IsSeen done q'.target.sight := by
  have hpid : q.pid = e.pid := hq.1
  by_cases hself : ∃ saved, .entryPoint saved = e.edit
  · have hcalled := PatchSteps.within_callEntryPoint (P := fun _ _ ↦ True) hgate hpage hrun
      fun _ _ _ _ _ _ _ ↦ trivial
    refine ⟨(show q'.pid = q.pid from hcalled.target.pid).trans hpid, fun _ ↦ ?_⟩
    obtain ⟨saved, heq⟩ := hself
    unfold Stands
    rw [← heq]
    trivial
  · have hcalled := PatchSteps.within_callEntryPoint (P := fun base i ↦
      ∀ s ∈ e.spots, ¬s.places base i) hgate hpage hrun ?_
    · refine ⟨(show q'.pid = q.pid from hcalled.target.pid).trans hpid, fun hdone ↦ ?_⟩
      exact PatchEdit.StandsIn.keep (hq.2 hdone) hsound (hcalled.target.memory.keepsSpots
        fun s hs base i hplace hother ↦ hother s hs hplace)
    · rw [hpid]
      rintro saved image hsaved hmapped base i hplace s hs hother
      cases himage.symm.trans hmapped
      have := ((hspared saved hsaved).resolve_left fun heq ↦ hself ⟨saved, heq⟩) s hs _
        (List.mem_singleton_self _)
      unfold Spot.places at hplace hother
      unfold Spot.Apart at this
      omega

/-- Writing redirections makes them. -/
theorem stands_of_writeAll {redirections : List Redirection} {logs : List (List (UInt64 × Bytes))}
    (hall : List.Forall₂ (fun r log ↦ r.writesIn e.registry e.pid e.image = .ok log) redirections logs)
    (hspared : ∀ r ∈ redirections, e.IsSparedBy (.redirection r)) (hown : e.spots.Pairwise Spot.Apart)
    {m m' : Memory} (hm : Memory.writeAll logs.flatten m = .ok m')
    (h : e.Stands m ∨ ∃ r ∈ redirections, .redirection r = e.edit) : e.Stands m' := by
  induction hall generalizing m with
  | nil =>
    cases hm
    exact h.resolve_right fun ⟨_, hr, _⟩ ↦ List.not_mem_nil hr
  | @cons r log rest logs hlog _ ih =>
    rw [List.flatten_cons] at hm
    obtain ⟨next, hnext, hlast⟩ := Memory.writeAll_append_eq_ok_iff.mp hm
    obtain ⟨hfirst, hrest⟩ := List.forall_mem_cons.mp hspared
    have hspots := PatchEdit.spotsIn_redirection hlog
    by_cases heq : .redirection r = e.edit
    · refine ih hrest hlast (.inl ?_)
      unfold Stands spots at *
      rw [← heq] at hown hsound ⊢
      rw [hspots, List.pairwise_map] at hown
      exact ⟨⟨log, hlog⟩, (Redirection.leadsIn_iff_hasFronts hsound hlog).mpr
        (Memory.hasFronts_of_writeAll hnext hown)⟩
    · refine ih hrest hlast (h.imp (fun h ↦ ?_) fun ⟨r', hr', heq'⟩ ↦ ?_)
      · refine PatchEdit.StandsIn.keep h hsound (Memory.keepsSpots_of_writeAll hnext ?_)
        intro s hs write hwrite
        refine hfirst.resolve_left heq s hs _ ?_
        rw [hspots]
        exact List.mem_map_of_mem hwrite
      · refine ⟨r', (List.mem_cons.mp hr').resolve_left fun h ↦ heq (h ▸ heq'), heq'⟩

end Steps

end PlacedEdit
end LivePatch
