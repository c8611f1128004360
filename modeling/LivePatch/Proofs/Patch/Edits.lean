import LivePatch.Proofs.Patch.Lasting

/-!
# Edits of a patch

What taking effect does to a process comes in edits: fields of references, slots of initializers,
the cookie, a library's own entry function, the code at the entry point for the time of its call, and
jumps. Each has its spots in the memory of a process, and whether it is in place there is told by what
these spots hold. So an edit stays in place as long as nothing else gets into its spots.
-/

namespace LivePatch

/-- No field is empty. -/
theorem RelocationKind.pos_size (k : RelocationKind) : 0 < k.size := by
  cases k <;> simp [size]

/-- The base of an image in a process is that of its mapping. -/
theorem Registry.baseOf?_eq_map (r : Registry) (pid : UInt32) (token : Token) :
    baseOf? (r.bases pid) token = (r.mapping? pid token).map Mapping.base := by
  unfold mapping? baseOf? bases get?
  rw [List.getElem?_map]
  cases r.images[token.index]? with
  | none => rfl
  | some image =>
    rw [Option.map_some, Option.join_some]
    cases image.processes.find? fun p ↦ p.pid == pid with
    | none => rfl
    | some placed => rfl

/-- A stretch of memory. -/
structure Spot where
  start : Nat
  size : Nat
  deriving DecidableEq, Repr

namespace Spot

/-- Two stretches of memory that do not overlap. -/
def Apart (s t : Spot) : Prop := s.start + s.size ≤ t.start ∨ t.start + t.size ≤ s.start

instance (s t : Spot) : Decidable (s.Apart t) := inferInstanceAs (Decidable (_ ∨ _))

/-- The stretch of memory that a write replaces. -/
def ofWrite (write : UInt64 × Bytes) : Spot := ⟨write.1.toNat, write.2.size⟩

/-- The places of a stretch of memory. -/
def places (s : Spot) : Places := fun base i ↦
  s.start ≤ base.toNat + i ∧ base.toNat + i < s.start + s.size

end Spot

/-- The stretch of memory that bytes of an image take. -/
def Mapping.spot (image : Mapping) (rva : UInt32) (size : Nat) : Spot :=
  ⟨image.base.toNat + rva.toNat, size⟩

/-- What is written into an image replaces the bytes there. -/
theorem Mapping.ofWrite_eq_spot {image : Mapping} {rva : UInt32} {address : UInt64} {bytes : Bytes}
    (h : image.address rva = .ok address) : Spot.ofWrite (address, bytes) = image.spot rva bytes.size :=
  congrArg (Spot.mk · bytes.size) (Mapping.address_eq_ok h).1

namespace Memory

variable {m m' : Memory} {spots : List Spot}

/-- Whatever can be read from certain spots stays there. -/
def KeepsSpots (spots : List Spot) (m m' : Memory) : Prop :=
  ∀ s ∈ spots, ∀ (address : UInt64) (len : Nat), s.start ≤ address.toNat →
    address.toNat + len ≤ s.start + s.size → 0 < len →
      ∀ bytes, m.read address len = .ok bytes → m'.read address len = .ok bytes

/-- Memory that differs in other places only keeps what is at certain spots. -/
theorem AgreesOff.keepsSpots {P : Places} (h : m.AgreesOff P m')
    (hapart : ∀ s ∈ spots, ∀ base i, s.places base i → ¬P base i) : KeepsSpots spots m m' := by
  intro s hs address len hstart hstop _ bytes hread
  refine h.read (fun base i htouches ↦ hapart s hs base i ?_) hread
  have := htouches.bounds
  unfold Spot.places
  omega

/-- Writes apart from certain spots keep what is there. -/
theorem keepsSpots_of_writeAll {log : List (UInt64 × Bytes)} (h : writeAll log m = .ok m')
    (hapart : ∀ s ∈ spots, ∀ write ∈ log, s.Apart (.ofWrite write)) : KeepsSpots spots m m' := by
  refine (agreesOff_writeAll h).keepsSpots ?_
  rintro s hs base i hplace ⟨write, hwrite, htouches⟩
  have hbounds := htouches.bounds
  rcases hapart s hs write hwrite with h | h
  · have h : s.start + s.size ≤ write.1.toNat := h
    exact absurd hplace.2 (by omega)
  · have h : write.1.toNat + write.2.size ≤ s.start := h
    exact absurd hplace.1 (by omega)

/-- A write apart from certain spots keeps what is there. -/
theorem keepsSpots_of_write {write : UInt64 × Bytes} (h : m.write write.1 write.2 = .ok m')
    (hapart : ∀ s ∈ spots, s.Apart (.ofWrite write)) : KeepsSpots spots m m' :=
  keepsSpots_of_writeAll (writeAll_cons_eq_ok_iff.mpr ⟨m', h, rfl⟩) fun s hs _ hmem ↦
    List.mem_singleton.mp hmem ▸ hapart s hs

/-- Where all memory stays, what is at certain spots does. -/
theorem StaysIn.keepsSpots (h : m.StaysIn m') : KeepsSpots spots m m' :=
  fun _ _ _ _ _ _ hlen _ hread ↦ h.read hlen hread

/-- The jumps that writes begin with stay at the spots of the writes. -/
theorem KeepsSpots.hasFronts {log : List (UInt64 × Bytes)}
    (h : KeepsSpots (log.map Spot.ofWrite) m m') (hpos : ∀ write ∈ log, 0 < write.2.size)
    (hfronts : m.HasFronts log) : m'.HasFronts log := by
  intro write hwrite
  have hsize := size_front X86.jumpSize write
  refine h _ (List.mem_map_of_mem hwrite) _ _ (Nat.le_refl _) ?_ ?_ _ (hfronts write hwrite)
  · rw [hsize]
    exact Nat.add_le_add_left (Nat.min_le_right ..) _
  · rw [hsize]
    exact Nat.lt_min.mpr ⟨by decide, hpos write hwrite⟩

end Memory

namespace LibraryRedirection

/-- The patch's copy leads to the existing instance in a process, if that is there. -/
def LeadsIn (registry : Registry) (pid : UInt32) (patch : Mapping) (m : Memory)
    (r : LibraryRedirection) : Prop :=
  ∀ existing, registry.mapping? pid r.existing = some existing →
    ∃ start target, patch.address r.patchRva = .ok start ∧
      existing.address r.existingRva = .ok target ∧ m.JumpsTo start target

/-- The jump of a redirection is in memory when the copy leads to the existing instance. -/
theorem leadsIn_iff_hasFronts {registry : Registry} {pid : UInt32} {patch : Mapping}
    {r : LibraryRedirection} {log : List (UInt64 × Bytes)} (hroomy : X86.jumpSize ≤ r.covered)
    (h : r.writesIn registry pid patch = .ok log) {m : Memory} :
    r.LeadsIn registry pid patch m ↔ m.HasFronts log := by
  unfold LeadsIn
  unfold writesIn at h
  cases hexisting : registry.mapping? pid r.existing with
  | none =>
    rw [hexisting] at h
    cases h
    simp [Memory.HasFronts]
  | some existing =>
    rw [hexisting] at h
    obtain ⟨start, hstart, h⟩ := Outcome.bind_eq_ok_iff.mp h
    obtain ⟨target, htarget, h⟩ := Outcome.bind_eq_ok_iff.mp h
    obtain ⟨code, hcode, h⟩ := Outcome.bind_eq_ok_iff.mp h
    cases h
    obtain ⟨jump, hjump, hcode⟩ := Outcome.bind_eq_ok_iff.mp hcode
    cases hcode
    rw [Memory.hasFronts_singleton, Memory.front_padded hjump hroomy, ← Memory.jumpsTo_iff hjump]
    simp [hstart, htarget]

end LibraryRedirection

namespace Redirection

/-- A redirection has room for its jump. -/
def IsRoomy : Redirection → Prop
  | .inl r => r.technique.IsRoomy
  | .inr r => X86.jumpSize ≤ r.covered

/-- One instance of the function leads to the other in a process, if the older one is there. -/
def LeadsIn (registry : Registry) (pid : UInt32) (patch : Mapping) (m : Memory) : Redirection → Prop
  | .inl r => r.LeadsIn registry pid patch m
  | .inr r => r.LeadsIn registry pid patch m

variable {registry : Registry} {pid : UInt32} {image : Mapping} {e : Redirection}
  {log : List (UInt64 × Bytes)}

/-- Whether one instance leads to the other only depends on where the older one is mapped. -/
theorem leadsIn_congr {registry' : Registry} {m : Memory}
    (h : registry'.mapping? pid e.existing = registry.mapping? pid e.existing) :
    e.LeadsIn registry' pid image m ↔ e.LeadsIn registry pid image m := by
  cases e with
  | inl r =>
    change r.LeadsIn registry' pid image m ↔ r.LeadsIn registry pid image m
    unfold FunctionRedirection.LeadsIn
    rw [show registry'.mapping? pid r.existing = registry.mapping? pid r.existing from h]
  | inr r =>
    change r.LeadsIn registry' pid image m ↔ r.LeadsIn registry pid image m
    unfold LibraryRedirection.LeadsIn
    rw [show registry'.mapping? pid r.existing = registry.mapping? pid r.existing from h]

/-- The jumps of a redirection are in memory when the one instance leads to the other. -/
theorem leadsIn_iff_hasFronts (hroomy : e.IsRoomy) (h : e.writesIn registry pid image = .ok log)
    {m : Memory} : e.LeadsIn registry pid image m ↔ m.HasFronts log := by
  cases e with
  | inl r => exact FunctionRedirection.leadsIn_iff_hasFronts hroomy h
  | inr r => exact LibraryRedirection.leadsIn_iff_hasFronts hroomy h

/-- What redirecting a function writes is not empty. -/
private theorem pos_size_of_writes {r : FunctionRedirection} {existing : Mapping}
    (hroomy : r.technique.IsRoomy) (h : r.writes existing image = .ok log) :
    ∀ write ∈ log, 0 < write.2.size := by
  obtain ⟨target, -, h⟩ := Outcome.bind_eq_ok_iff.mp h
  obtain ⟨thunks, hthunks, h⟩ := Outcome.bind_eq_ok_iff.mp h
  obtain ⟨starts, hstarts, h⟩ := Outcome.bind_eq_ok_iff.mp h
  cases h
  obtain ⟨logs, hlogs, h⟩ := Outcome.bind_eq_ok_iff.mp hthunks
  cases h
  refine List.forall_mem_append.mpr
    ⟨fun write hwrite ↦ ?_, FunctionRedirection.pos_size_of_startWrites hroomy hstarts⟩
  obtain ⟨l, hl, hwrite⟩ := List.mem_flatten.mp hwrite
  obtain ⟨thunk, -, hjump⟩ := Pointwise.exists_left (Outcome.forall₂_of_mapM hlogs) hl
  obtain ⟨source, jump, -, hencode, rfl⟩ := FunctionRedirection.jumpWrites_eq_ok_iff.mp hjump
  rw [List.mem_singleton.mp hwrite, X86.size_of_encodeJump hencode]
  decide

/-- What a redirection writes is not empty. -/
theorem pos_size_of_writesIn (hroomy : e.IsRoomy) (h : e.writesIn registry pid image = .ok log) :
    ∀ write ∈ log, 0 < write.2.size := by
  have hempty : ∀ write ∈ ([] : List (UInt64 × Bytes)), 0 < write.2.size :=
    fun write hwrite ↦ (List.not_mem_nil hwrite).elim
  cases e with
  | inl r =>
    change FunctionRedirection.writesIn registry pid image r = _ at h
    unfold FunctionRedirection.writesIn at h
    split at h
    · cases h
      exact hempty
    · exact pos_size_of_writes hroomy h
  | inr r =>
    change LibraryRedirection.writesIn registry pid image r = _ at h
    unfold LibraryRedirection.writesIn at h
    split at h
    · cases h
      exact hempty
    · obtain ⟨start, -, h⟩ := Outcome.bind_eq_ok_iff.mp h
      obtain ⟨target, -, h⟩ := Outcome.bind_eq_ok_iff.mp h
      obtain ⟨code, hcode, h⟩ := Outcome.bind_eq_ok_iff.mp h
      cases h
      refine List.forall_mem_singleton.mpr ?_
      rw [size_of_paddedJump hcode]
      exact Nat.lt_of_lt_of_le (by decide) hroomy

end Redirection

/-- One thing that is done to a process for a patch to take effect. -/
inductive PatchEdit where
  | reference (r : ReferenceRedirection)
  /-- An initializer is not run, since its object exists. -/
  | initializer (slot : UInt32)
  | cookie (c : CookieRecord)
  | dllMain (rva : UInt32)
  /-- The entry point has its own code for the time of a call. -/
  | entryPoint (saved : SavedEntryPoint)
  | redirection (e : Redirection)
  deriving DecidableEq

namespace PatchRecord

/-- The edits that are made right before the entry point runs. -/
def preparations (p : PatchRecord) : List PatchEdit :=
  p.neutered.map .initializer ++ (p.cookie.map .cookie).toList ++ (p.dllMain.map .dllMain).toList

/-- All edits of a patch, in their order. -/
def edits (p : PatchRecord) : List PatchEdit :=
  p.preEntry.map .reference ++ p.preparations ++ (p.entryPoint.map .entryPoint).toList
    ++ p.postEntry.map .reference ++ p.redirections.map .redirection

end PatchRecord

namespace PatchEdit

/-- The spots of an edit in a process that the patch is mapped in. For the cookie, these are both the
patch's and the module's. -/
def spotsIn (registry : Registry) (pid : UInt32) (image : Mapping) : PatchEdit → List Spot
  | .reference r => [image.spot r.patchRva r.kind.size]
  | .initializer slot => [image.spot slot 8]
  | .cookie c => image.spot c.patchRva 8
      :: ((registry.mapping? pid .module).map fun module ↦ module.spot c.moduleRva 8).toList
  | .dllMain rva => [image.spot rva X86.successStub.size]
  | .entryPoint saved => [image.spot saved.rva (max saved.code.size X86.successStub.size)]
  | .redirection e =>
    match e.writesIn registry pid image with
    | .ok log => log.map .ofWrite
    | .error _ => []

/-- An edit is in place in a process that the patch is mapped in: the field of a reference resolves to
its destination, the slot of an initializer is empty, the cookie is the module's, the library's own
entry function only returns success, and one instance of a function leads to the other. Nothing is to
stay of a call of the entry point. -/
def StandsIn (registry : Registry) (pid : UInt32) (image : Mapping) (m : Memory) : PatchEdit → Prop
  | .reference r => ∃ base, Registry.baseOf? (registry.bases pid) r.target = some base ∧
      r.ResolvesIn image base m
  | .initializer slot => ∃ address, image.address slot = .ok address ∧
      m.read address 8 = .ok (Bytes.ofU64 0)
  | .cookie c => ∀ module, registry.mapping? pid .module = some module →
      ∃ source target value, module.address c.moduleRva = .ok source ∧
        image.address c.patchRva = .ok target ∧ m.read source 8 = .ok value ∧
        m.read target 8 = .ok value
  | .dllMain rva => ∃ address, image.address rva = .ok address ∧
      m.read address X86.successStub.size = .ok X86.successStub
  | .entryPoint _ => True
  | .redirection e => (∃ log, e.writesIn registry pid image = .ok log) ∧ e.LeadsIn registry pid image m

/-- What an activation only makes: fields that can be computed anew, and jumps that have room. -/
def IsSound : PatchEdit → Prop
  | .reference r => r.kind.isPatchable = true
  | .redirection e => e.IsRoomy
  | _ => True

/-- The images that an edit looks for besides that of its patch. -/
def tokens : PatchEdit → List Token
  | .reference r => [r.target]
  | .cookie _ => [.module]
  | .redirection e => [e.existing]
  | _ => []

variable {registry registry' : Registry} {pid : UInt32} {image : Mapping} {e : PatchEdit}
  {m m' : Memory}

theorem spotsIn_redirection {r : Redirection} {log : List (UInt64 × Bytes)}
    (h : r.writesIn registry pid image = .ok log) :
    spotsIn registry pid image (.redirection r) = log.map .ofWrite := by
  change (match r.writesIn registry pid image with
    | .ok log => log.map Spot.ofWrite
    | .error _ => []) = _
  rw [h]

/-- The spots of an edit only depend on where the images are mapped that it looks for. -/
theorem spotsIn_congr (h : ∀ t ∈ e.tokens, registry'.mapping? pid t = registry.mapping? pid t) :
    e.spotsIn registry' pid image = e.spotsIn registry pid image := by
  cases e with
  | reference | initializer | dllMain | entryPoint => rfl
  | cookie c =>
    dsimp only [spotsIn]
    rw [h .module (List.mem_singleton_self _)]
  | redirection r =>
    dsimp only [spotsIn]
    rw [Redirection.writesIn_congr (h r.existing (List.mem_singleton_self _))]

/-- Whether an edit is in place only depends on where the images are mapped that it looks for. -/
theorem standsIn_congr (h : ∀ t ∈ e.tokens, registry'.mapping? pid t = registry.mapping? pid t) :
    e.StandsIn registry' pid image m ↔ e.StandsIn registry pid image m := by
  cases e with
  | reference r =>
    dsimp only [StandsIn]
    rw [Registry.baseOf?_eq_map, h r.target (List.mem_singleton_self _), ← Registry.baseOf?_eq_map]
  | initializer | dllMain | entryPoint => rfl
  | cookie c =>
    dsimp only [StandsIn]
    rw [h .module (List.mem_singleton_self _)]
  | redirection r =>
    have hexisting := h r.existing (List.mem_singleton_self _)
    dsimp only [StandsIn]
    rw [Redirection.writesIn_congr hexisting, Redirection.leadsIn_congr hexisting]

/-- An edit stays in place while its spots are kept. -/
theorem StandsIn.keep (h : e.StandsIn registry pid image m) (hsound : e.IsSound)
    (hkeeps : Memory.KeepsSpots (e.spotsIn registry pid image) m m') :
    e.StandsIn registry pid image m' := by
  have hread : ∀ {image' : Mapping} {rva : UInt32} {size : Nat} {address : UInt64} {bytes : Bytes},
      image'.spot rva size ∈ e.spotsIn registry pid image → 0 < size →
      image'.address rva = .ok address → m.read address size = .ok bytes →
      m'.read address size = .ok bytes := by
    intro image' rva size address bytes hspot hsize haddress
    have hstart := (Mapping.address_eq_ok haddress).1
    exact hkeeps _ hspot address size (Nat.le_of_eq hstart.symm)
      (Nat.le_of_eq (congrArg (· + size) hstart)) hsize bytes
  cases e with
  | reference r =>
    obtain ⟨base, hbase, p, field, hp, hfield, hresolve⟩ := h
    have hsize : 0 < r.kind.size := r.kind.pos_size
    exact ⟨base, hbase, p, field, hp, hread (List.mem_singleton_self _) hsize hp hfield, hresolve⟩
  | initializer slot =>
    obtain ⟨address, haddress, hslot⟩ := h
    exact ⟨address, haddress, hread (List.mem_singleton_self _) (by decide) haddress hslot⟩
  | cookie c =>
    intro module hmodule
    obtain ⟨source, target, value, hsource, htarget, hfrom, hto⟩ := h module hmodule
    refine ⟨source, target, value, hsource, htarget, hread ?_ (by decide) hsource hfrom,
      hread (List.mem_cons_self ..) (by decide) htarget hto⟩
    simp [spotsIn, hmodule]
  | dllMain rva =>
    obtain ⟨address, haddress, hstub⟩ := h
    exact ⟨address, haddress, hread (List.mem_singleton_self _) (by decide) haddress hstub⟩
  | entryPoint saved => trivial
  | redirection r =>
    obtain ⟨⟨log, hlog⟩, hleads⟩ := h
    refine ⟨⟨log, hlog⟩, (Redirection.leadsIn_iff_hasFronts hsound hlog).mpr ?_⟩
    refine Memory.KeepsSpots.hasFronts ?_ (Redirection.pos_size_of_writesIn hsound hlog)
      ((Redirection.leadsIn_iff_hasFronts hsound hlog).mp hleads)
    rwa [spotsIn_redirection hlog] at hkeeps

end PatchEdit

/-- An edit of a patch in a process that the patch is mapped in. -/
structure PlacedEdit where
  registry : Registry
  pid : UInt32
  image : Mapping
  edit : PatchEdit

namespace PlacedEdit

/-- The spots of an edit. -/
def spots (e : PlacedEdit) : List Spot := e.edit.spotsIn e.registry e.pid e.image

/-- The edit is in place. -/
def Stands (e : PlacedEdit) (m : Memory) : Prop := e.edit.StandsIn e.registry e.pid e.image m

/-- Another edit of the patch gets into none of the spots. -/
def IsSparedBy (e : PlacedEdit) (other : PatchEdit) : Prop :=
  other = e.edit ∨ ∀ s ∈ e.spots, ∀ t ∈ other.spotsIn e.registry e.pid e.image, s.Apart t

/-- In the process of the edit, it is in place once something is done. -/
def IsSeen (e : PlacedEdit) (done : Prop) (seen : UInt32 × Memory) : Prop :=
  seen.1 = e.pid ∧ (done → e.Stands seen.2)

variable {e : PlacedEdit}

theorem IsSeen.mono {done done' : Prop} {seen : UInt32 × Memory} (h : e.IsSeen done seen)
    (hdone : done' → done) : e.IsSeen done' seen := ⟨h.1, h.2 ∘ hdone⟩

end PlacedEdit

end LivePatch
