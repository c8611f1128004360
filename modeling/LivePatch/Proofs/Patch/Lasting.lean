import LivePatch.Proofs.Patch.Receiving
import LivePatch.Proofs.Patch.Tokens

/-!
# Redirections that last

A redirection that shares none of the bytes at its function's start with another redirection leads to
the patch from the moment it is written on: nothing that is written for its own patch disturbs it,
and neither does any patch that the process receives later.
-/

namespace LivePatch

namespace Memory

variable {m m' : Memory} {log starts : List (UInt64 × Bytes)}

/-- The front of a write is apart from what the write is apart from. -/
theorem Apart.front {write write' : UInt64 × Bytes} (h : Apart write write') (len : Nat) :
    Apart (front len write) write' := by
  have hsize := size_front len write
  unfold Apart at *
  rw [hsize]
  change write.1.toNat + _ ≤ _ ∨ _ ≤ write.1.toNat
  omega

/-- Jumps stay behind writes apart from them. -/
theorem HasFronts.writeAll (h : m.HasFronts starts)
    (hapart : ∀ start ∈ starts, ∀ write ∈ log, Apart start write)
    (hm : Memory.writeAll log m = .ok m') : m'.HasFronts starts := by
  intro start hstart
  have hhas := h start hstart
  have hall := hapart start hstart
  clear h hapart
  induction log generalizing m with
  | nil =>
    cases hm
    exact hhas
  | cons write log ih =>
    obtain ⟨next, hnext, hm⟩ := writeAll_cons_eq_ok_iff.mp hm
    obtain ⟨hfirst, hrest⟩ := List.forall_mem_cons.mp hall
    exact ih hm (hhas.write (hfirst.front _) hnext) hrest

/-- Jumps that do not overlap are all there behind their writes. -/
theorem hasFronts_of_writeAll (hm : Memory.writeAll starts m = .ok m')
    (hapart : starts.Pairwise Apart) : m'.HasFronts starts :=
  fun _ hstart ↦ (has_front_iff_isKept hm hstart _).mpr
    ((isKept_of_pairwise_apart hapart hstart).front (window_of_writeAll hm hstart))

/-- Jumps stay where all memory does. -/
theorem StaysIn.hasFronts (h : m.StaysIn m') (hpos : ∀ start ∈ starts, 0 < start.2.size)
    (hfronts : m.HasFronts starts) : m'.HasFronts starts := by
  intro start hstart
  refine h.has ?_ (hfronts start hstart)
  rw [size_front]
  exact Nat.lt_min.mpr ⟨by decide, hpos start hstart⟩

end Memory

namespace FunctionRedirection

variable {registry : Registry} {pid : UInt32} {image : Mapping} {r : FunctionRedirection}
  {log starts : List (UInt64 × Bytes)}

/-- The writes at the start of a function that redirecting it takes in one process, none if the
existing instance is not there. -/
def startsIn (registry : Registry) (pid : UInt32) (patch : Mapping) (r : FunctionRedirection) :
    Writing :=
  match registry.mapping? pid r.existing with
  | none => .ok []
  | some existing => do r.startWrites existing (← patch.address r.patchRva)

/-- The writes at the start of a function come last. -/
theorem exists_startsIn (h : r.writesIn registry pid image = .ok log) :
    ∃ thunks starts, r.startsIn registry pid image = .ok starts ∧ log = thunks ++ starts := by
  unfold writesIn at h
  unfold startsIn
  cases hexisting : registry.mapping? pid r.existing with
  | none =>
    rw [hexisting] at h
    cases h
    exact ⟨[], [], rfl, rfl⟩
  | some existing =>
    rw [hexisting] at h
    obtain ⟨target, htarget, h⟩ := Outcome.bind_eq_ok_iff.mp h
    obtain ⟨thunks, -, h⟩ := Outcome.bind_eq_ok_iff.mp h
    obtain ⟨starts, hstarts, h⟩ := Outcome.bind_eq_ok_iff.mp h
    cases h
    refine ⟨thunks, starts, ?_, rfl⟩
    rw [htarget]
    exact hstarts

/-- What is written at the start of a function, once its technique is known. -/
theorem startWrites_cases {existing : Mapping} {target : UInt64}
    (h : r.startWrites existing target = .ok starts) :
    (∃ covered start jump, r.technique = .direct covered ∧
      X86.encodeJump start target = .ok jump ∧ starts = [(start, jump.resize covered X86.trap)]) ∨
    ∃ start source jump, r.technique = .indirection ∧ source.toNat + X86.jumpSize = start.toNat ∧
      X86.encodeJump source target = .ok jump ∧
      starts = [(source, jump), (start, X86.jumpToPadding)] := by
  obtain ⟨start, hstart, h⟩ := Outcome.bind_eq_ok_iff.mp h
  cases htechnique : r.technique with
  | direct covered =>
    rw [htechnique] at h
    obtain ⟨code, hcode, h⟩ := Outcome.bind_eq_ok_iff.mp h
    obtain ⟨jump, hjump, hcode⟩ := Outcome.bind_eq_ok_iff.mp hcode
    cases hcode
    cases h
    exact .inl ⟨covered, start, jump, rfl, hjump, rfl⟩
  | indirection =>
    rw [htechnique] at h
    obtain ⟨padding, hpadding, h⟩ := Outcome.bind_eq_ok_iff.mp h
    obtain ⟨jumps, hjumps, h⟩ := Outcome.bind_eq_ok_iff.mp h
    cases h
    obtain ⟨source, jump, hsource, hjump, rfl⟩ := jumpWrites_eq_ok_iff.mp hjumps
    refine .inr ⟨start, source, jump, rfl, ?_, hjump, rfl⟩
    obtain ⟨hstart, -⟩ := Mapping.address_eq_ok hstart
    obtain ⟨hsource, -⟩ := Mapping.address_eq_ok hsource
    have hback : Word.sub32? r.existingRva (UInt32.ofNat X86.jumpSize) = some padding :=
      Outcome.orFault_eq_ok_iff.mp hpadding
    unfold Word.sub32? at hback
    split at hback
    · next hle =>
      cases hback
      have hfive : (UInt32.ofNat X86.jumpSize).toNat = X86.jumpSize := rfl
      rw [UInt32.toNat_sub_of_le _ _ hle, hfive] at hsource
      rw [UInt32.le_iff_toNat_le, hfive] at hle
      omega
    · cases hback

private theorem startsIn_cases (h : r.startsIn registry pid image = .ok starts) :
    starts = [] ∨ ∃ existing target, r.startWrites existing target = .ok starts := by
  unfold startsIn at h
  cases hexisting : registry.mapping? pid r.existing with
  | none =>
    rw [hexisting] at h
    cases h
    exact .inl rfl
  | some existing =>
    rw [hexisting] at h
    obtain ⟨target, -, h⟩ := Outcome.bind_eq_ok_iff.mp h
    exact .inr ⟨existing, target, h⟩

/-- The writes at the start of a function do not overlap. -/
theorem pairwise_apart_startsIn (h : r.startsIn registry pid image = .ok starts) :
    starts.Pairwise Memory.Apart := by
  rcases startsIn_cases h with rfl | ⟨existing, target, h⟩
  · exact .nil
  · rcases startWrites_cases h with ⟨covered, start, jump, -, -, rfl⟩ |
      ⟨start, source, jump, -, hback, hjump, rfl⟩
    · exact List.pairwise_singleton ..
    · refine List.pairwise_pair.mpr (.inl ?_)
      rw [X86.size_of_encodeJump hjump]
      exact Nat.le_of_eq hback

/-- Something is written at the start of a function whose technique has room. -/
theorem pos_size_of_startWrites {existing : Mapping} {target : UInt64} (hroomy : r.technique.IsRoomy)
    (h : r.startWrites existing target = .ok starts) : ∀ start ∈ starts, 0 < start.2.size := by
  rcases startWrites_cases h with ⟨covered, start, jump, htechnique, hjump, rfl⟩ |
    ⟨start, source, jump, -, -, hjump, rfl⟩
  · rw [htechnique] at hroomy
    refine List.forall_mem_singleton.mpr ?_
    have hcovered : (jump.resize covered X86.trap).size = covered := Bytes.size_resize ..
    rw [hcovered]
    exact Nat.lt_of_lt_of_le (by decide) hroomy
  · refine List.forall_mem_cons.mpr ⟨?_, List.forall_mem_singleton.mpr
      (show 0 < X86.jumpToPadding.size by decide)⟩
    rw [X86.size_of_encodeJump hjump]
    decide

/-- What is written at the start of a function in one process is not empty. -/
theorem pos_size_of_startsIn (hroomy : r.technique.IsRoomy)
    (h : r.startsIn registry pid image = .ok starts) : ∀ start ∈ starts, 0 < start.2.size := by
  rcases startsIn_cases h with rfl | ⟨existing, target, h⟩
  · exact fun start hstart ↦ (List.not_mem_nil hstart).elim
  · exact pos_size_of_startWrites hroomy h

/-- Where the jumps at the start of a function are in memory, it leads to the patch. -/
theorem leads_of_hasFronts {existing : Mapping} {m : Memory} (hroomy : r.technique.IsRoomy)
    (hexisting : registry.mapping? pid r.existing = some existing)
    (h : r.startsIn registry pid image = .ok starts) (hfronts : m.HasFronts starts) :
    ∃ start target, existing.address r.existingRva = .ok start ∧
      image.address r.patchRva = .ok target ∧
      match r.technique with
      | .direct _ => m.JumpsTo start target
      | .indirection =>
        m.StepsBack start ∧ m.JumpsTo (start - UInt64.ofNat X86.jumpSize) target := by
  unfold startsIn at h
  rw [hexisting] at h
  obtain ⟨target, htarget, h⟩ := Outcome.bind_eq_ok_iff.mp h
  obtain ⟨start, hstart, hleads⟩ := (hasFronts_startWrites_iff hroomy h).mp hfronts
  exact ⟨start, target, hstart, htarget, hleads⟩

end FunctionRedirection

/-- A redirection in either direction. -/
abbrev Redirection := FunctionRedirection ⊕ LibraryRedirection

namespace Redirection

/-- The image of the existing instance. -/
def existing : Redirection → Token
  | .inl r => r.existing
  | .inr r => r.existing

/-- The writes that a redirection takes in one process. -/
def writesIn (registry : Registry) (pid : UInt32) (patch : Mapping) : Redirection → Writing
  | .inl r => r.writesIn registry pid patch
  | .inr r => r.writesIn registry pid patch

variable {registry registry' : Registry} {pid : UInt32} {image : Mapping}

/-- What a redirection writes depends on where the two instances are mapped only. -/
theorem writesIn_congr {e : Redirection}
    (h : registry'.mapping? pid e.existing = registry.mapping? pid e.existing) :
    e.writesIn registry' pid image = e.writesIn registry pid image := by
  cases e with
  | inl r =>
    change FunctionRedirection.writesIn registry' pid image r = r.writesIn registry pid image
    unfold FunctionRedirection.writesIn
    rw [show registry'.mapping? pid r.existing = registry.mapping? pid r.existing from h]
  | inr r =>
    change LibraryRedirection.writesIn registry' pid image r = r.writesIn registry pid image
    unfold LibraryRedirection.writesIn
    rw [show registry'.mapping? pid r.existing = registry.mapping? pid r.existing from h]

/-- Writing redirections leaves the jumps of one of them in place, if all others are apart from
it. -/
theorem hasFronts_of_writeAll {r : FunctionRedirection} {starts : List (UInt64 × Bytes)}
    (hstarts : r.startsIn registry pid image = .ok starts) {redirections : List Redirection}
    {logs : List (List (UInt64 × Bytes))}
    (hall : List.Forall₂ (fun e log ↦ writesIn registry pid image e = .ok log) redirections logs)
    (hapart : ∀ e ∈ redirections, e ≠ .inl r → ∀ log, e.writesIn registry pid image = .ok log →
      ∀ start ∈ starts, ∀ write ∈ log, Memory.Apart start write)
    {m m' : Memory} (hm : Memory.writeAll logs.flatten m = .ok m')
    (h : m.HasFronts starts ∨ .inl r ∈ redirections) : m'.HasFronts starts := by
  induction hall generalizing m with
  | nil =>
    cases hm
    exact h.resolve_right (List.not_mem_nil)
  | @cons e log rest logs hlog _ ih =>
    rw [List.flatten_cons] at hm
    obtain ⟨next, hnext, hlast⟩ := Memory.writeAll_append_eq_ok_iff.mp hm
    obtain ⟨hfirst, hrest⟩ := List.forall_mem_cons.mp hapart
    by_cases he : e = .inl r
    · subst he
      obtain ⟨thunks, starts', hstarts', rfl⟩ := FunctionRedirection.exists_startsIn hlog
      cases hstarts.symm.trans hstarts'
      obtain ⟨_, -, hnext⟩ := Memory.writeAll_append_eq_ok_iff.mp hnext
      exact ih hrest hlast (.inl (Memory.hasFronts_of_writeAll hnext
        (FunctionRedirection.pairwise_apart_startsIn hstarts)))
    · refine ih hrest hlast (h.imp (fun h ↦ h.writeAll (hfirst he log hlog) hnext) fun hmem ↦ ?_)
      exact (List.mem_cons.mp hmem).resolve_left (Ne.symm he)

end Redirection

namespace PatchRecord

/-- All redirections of a patch, in the order in which they are written. -/
def redirections (p : PatchRecord) : List Redirection :=
  p.functions.map .inl ++ p.libraryFunctions.map .inr

variable {registry registry' : Registry} {pid : UInt32} {image : Mapping} {p : PatchRecord}

/-- All redirections of a patch lead to and from older images. -/
theorem RefersBack.redirections (h : p.RefersBack) :
    ∀ e ∈ p.redirections, e.existing.index < p.token.index := by
  intro e he
  rcases List.mem_append.mp he with he | he
  · obtain ⟨r, hr, rfl⟩ := List.mem_map.mp he
    exact h.functions r hr
  · obtain ⟨r, hr, rfl⟩ := List.mem_map.mp he
    exact h.libraryFunctions r hr

/-- The writes of a patch are those of its redirections. -/
theorem exists_logs {log : List (UInt64 × Bytes)}
    (himage : registry.mapping? pid p.token = some image)
    (h : p.writesIn registry pid = .ok log) :
    ∃ logs, List.Forall₂ (fun e log ↦ Redirection.writesIn registry pid image e = .ok log)
      p.redirections logs ∧ log = logs.flatten := by
  unfold writesIn at h
  rw [himage] at h
  obtain ⟨jumps, hjumps, h⟩ := Outcome.bind_eq_ok_iff.mp h
  obtain ⟨copies, hcopies, h⟩ := Outcome.bind_eq_ok_iff.mp h
  cases h
  obtain ⟨logs, hlogs, hflatten⟩ := Outcome.bind_eq_ok_iff.mp hjumps
  cases hflatten
  obtain ⟨logs', hlogs', hflatten⟩ := Outcome.bind_eq_ok_iff.mp hcopies
  cases hflatten
  refine ⟨logs ++ logs', List.rel_append ?_ ?_, by rw [List.flatten_append]⟩
  · exact List.forall₂_map_left_iff.mpr (Outcome.forall₂_of_mapM hlogs)
  · exact List.forall₂_map_left_iff.mpr (Outcome.forall₂_of_mapM hlogs')

/-- In a process, no other redirection of any of the patches writes where the redirection of a
patch writes at the start of its function. -/
def IsUnshared (registry : Registry) (pid : UInt32) (patches : List PatchRecord) (p : PatchRecord)
    (r : FunctionRedirection) : Prop :=
  ∀ image, registry.mapping? pid p.token = some image →
    ∀ starts, r.startsIn registry pid image = .ok starts →
      ∀ q ∈ patches, ∀ e ∈ q.redirections, (q.token, e) ≠ (p.token, .inl r) →
        ∀ image', registry.mapping? pid q.token = some image' →
          ∀ log, e.writesIn registry pid image' = .ok log →
            ∀ start ∈ starts, ∀ write ∈ log, Memory.Apart start write

set_option synthInstance.maxSize 512 in
instance (registry : Registry) (pid : UInt32) (patches : List PatchRecord) (p : PatchRecord)
    (r : FunctionRedirection) : Decidable (p.IsUnshared registry pid patches r) :=
  inferInstanceAs (Decidable (∀ image, registry.mapping? pid p.token = some image →
    ∀ starts, r.startsIn registry pid image = .ok starts →
      ∀ q ∈ patches, ∀ e ∈ q.redirections, (q.token, e) ≠ (p.token, .inl r) →
        ∀ image', registry.mapping? pid q.token = some image' →
          ∀ log, e.writesIn registry pid image' = .ok log →
            ∀ start ∈ starts, ∀ write ∈ log, Memory.Apart start write))

/-- In a process, the jumps at the starts of functions are in memory, those of all redirections that
share these bytes with no other one. -/
def AreInPlace (registry : Registry) (pid : UInt32) (patches : List PatchRecord) (m : Memory) :
    Prop :=
  ∀ p ∈ patches, ∀ r ∈ p.functions, ∀ image, registry.mapping? pid p.token = some image →
    p.IsUnshared registry pid patches r →
    ∃ starts, r.startsIn registry pid image = .ok starts ∧ m.HasFronts starts

/-- What redirections share does not depend on where images are mapped that they do not concern. -/
theorem IsUnshared.congr {patches patches' : List PatchRecord} {r : FunctionRedirection}
    (h : p.IsUnshared registry' pid patches' r) (hsub : patches ⊆ patches')
    (hp : registry'.mapping? pid p.token = registry.mapping? pid p.token)
    (hr : registry'.mapping? pid r.existing = registry.mapping? pid r.existing)
    (hpatches : ∀ q ∈ patches, registry'.mapping? pid q.token = registry.mapping? pid q.token ∧
      ∀ e ∈ q.redirections, registry'.mapping? pid e.existing = registry.mapping? pid e.existing) :
    p.IsUnshared registry pid patches r := by
  intro image himage starts hstarts q hq e he hne image' himage' log hlog
  refine h image (hp.trans himage) starts ?_ q (hsub hq) e he hne image'
    ((hpatches q hq).1.trans himage') log ?_
  · unfold FunctionRedirection.startsIn
    rw [hr]
    exact hstarts
  · rw [Redirection.writesIn_congr ((hpatches q hq).2 e he)]
    exact hlog

/-- What is in place stays so when a process receives one more patch, and so is what that brings. -/
theorem AreInPlace.receive {o : Target} {patches : List PatchRecord} {q : PatchRecord}
    {seen : UInt32 × Memory} (h : AreInPlace registry o.pid patches o.memory)
    (hroomy : ∀ p ∈ patches, ∀ r ∈ p.functions, r.technique.IsRoomy)
    (holder : ∀ p ∈ patches, p.RefersBack ∧ p.token.index < q.token.index)
    (hsame : ∀ token : Token, token.index < q.token.index →
      registry'.mapping? o.pid token = registry.mapping? o.pid token)
    (hreceives : o.Receives registry' q seen) :
    AreInPlace registry' o.pid (patches ++ [q]) seen.2 := by
  obtain ⟨m, log, m', hstays, hlog, hm', rfl⟩ := hreceives
  intro p hp r hr image himage hunshared
  rcases List.mem_append.mp hp with hp | hp
  · obtain ⟨hback, hlt⟩ := holder p hp
    have hexisting := hsame r.existing (Nat.lt_trans (hback.functions r hr) hlt)
    have hbefore : p.IsUnshared registry o.pid patches r :=
      hunshared.congr (List.subset_append_left ..) (hsame _ hlt) hexisting fun p' hp' ↦
        ⟨hsame _ (holder p' hp').2, fun e he ↦ hsame _
          (Nat.lt_trans ((holder p' hp').1.redirections e he) (holder p' hp').2)⟩
    have hstartsIn : r.startsIn registry' o.pid image = r.startsIn registry o.pid image := by
      unfold FunctionRedirection.startsIn
      rw [hexisting]
    obtain ⟨starts, hstarts, hfronts⟩ := h p hp r hr image ((hsame _ hlt).symm.trans himage) hbefore
    refine ⟨starts, hstartsIn.trans hstarts, ?_⟩
    have hpos := FunctionRedirection.pos_size_of_startsIn (hroomy p hp r hr) hstarts
    refine (hstays.hasFronts hpos hfronts).writeAll (fun start hstart write hwrite ↦ ?_) hm'
    cases hq : registry'.mapping? o.pid q.token with
    | none =>
      unfold writesIn at hlog
      rw [hq] at hlog
      cases hlog
      cases hwrite
    | some image' =>
      obtain ⟨logs, hlogs, rfl⟩ := exists_logs hq hlog
      obtain ⟨l, hl, hwrite⟩ := List.mem_flatten.mp hwrite
      obtain ⟨e, he, hel⟩ := Pointwise.exists_left hlogs hl
      refine hunshared image himage starts (hstartsIn.trans hstarts) q
        (List.mem_append_right _ (List.mem_singleton_self q)) e he (fun heq ↦ ?_) image' hq l hel
        start hstart write hwrite
      rw [(Prod.mk.inj heq).1] at hlt
      exact Nat.lt_irrefl _ hlt
  · obtain rfl := List.mem_singleton.mp hp
    obtain ⟨logs, hlogs, rfl⟩ := exists_logs himage hlog
    have hmem : .inl r ∈ p.redirections := List.mem_append_left _ (List.mem_map_of_mem hr)
    obtain ⟨l, -, hl⟩ := Pointwise.exists_right hlogs hmem
    obtain ⟨thunks, starts, hstarts, -⟩ := FunctionRedirection.exists_startsIn hl
    refine ⟨starts, hstarts, Redirection.hasFronts_of_writeAll hstarts hlogs
      (fun e he hne log hlog ↦ ?_) hm' (.inr hmem)⟩
    exact hunshared image himage starts hstarts p (List.mem_append_right _ (List.mem_singleton_self p))
      e he (fun heq ↦ hne (Prod.mk.inj heq).2) image himage log hlog

end PatchRecord
end LivePatch
