import LivePatch.Registry.Basic
import Mathlib.Data.List.Nodup

/-!
# Images of a registry

An image that is entered together with the processes it is mapped in can be dropped again, which
leaves the registry as it was; until then it is found in each of these processes at its base there.
Images are mapped in the processes of a session only, and in each of them once, as long as mappings
are only noted for such processes.
-/

namespace LivePatch.Registry

/-- The registry with one more image, which is mapped in processes already. -/
def append (r : Registry) (image : RegisteredImage) : Registry := ⟨r.images ++ [image]⟩

/-- An image that was entered can be dropped again. -/
theorem discard_append (r : Registry) (image : RegisteredImage) (h : r.size ≠ 0) :
    (r.append image).discard r.next = r := by
  have h' : r.images.length ≠ 0 := h
  simp [discard, isDiscardable, append, next, h']

/-- Dropping the newest image leaves the module. -/
theorem size_discard_ne_zero {r : Registry} (h : r.size ≠ 0) (token : Token) :
    (r.discard token).size ≠ 0 := by
  unfold discard
  split
  · next hd =>
    obtain ⟨hindex, hlength⟩ : token.index ≠ 0 ∧ token.index + 1 = r.images.length := by
      simpa [isDiscardable] using hd
    rw [Registry.size, List.length_dropLast]
    omega
  · exact h

/-- Forgetting a mapping keeps the number of images. -/
theorem size_forget (r : Registry) (token : Token) (pid : UInt32) :
    (r.forget token pid).size = r.size := by
  simp [forget, modifyAt, Registry.size]

/-- Noting mappings keeps the number of images. -/
theorem size_foldl_register {α : Type} (r : Registry) (token : Token) (items : List α)
    (pid : α → UInt32) (base : α → UInt64) :
    (items.foldl (fun registry i ↦ registry.register token (pid i) (base i)) r).size = r.size := by
  induction items generalizing r with
  | nil => rfl
  | cons i items ih => rw [List.foldl_cons, ih, size_register]

/-- Forgetting a process that is not there changes nothing. -/
theorem without_of_not_mem {pid : UInt32} {placed : List Placed}
    (h : pid ∉ placed.map Placed.pid) : without pid placed = placed := by
  refine List.filter_eq_self.mpr fun p hp ↦ ?_
  rw [bne_iff_ne]
  rintro rfl
  exact h (List.mem_map.mpr ⟨p, hp, rfl⟩)

/-- Noting where the newest image is mapped in one more process. -/
theorem register_append (r : Registry) (image : RegisteredImage) {pid : UInt32} (base : UInt64)
    (h : pid ∉ image.processes.map Placed.pid) :
    (r.append image).register r.next pid base
      = r.append { image with processes := image.processes ++ [⟨pid, base⟩] } := by
  simp only [register, modifyAt, append, next, Registry.mk.injEq]
  rw [List.modify_eq_take_cons_drop (by simp)]
  simp [without_of_not_mem h]

/-- Noting where the newest image is mapped in several processes. -/
theorem foldl_register_append {α : Type} (r : Registry) (image : RegisteredImage)
    (items : List α) (pid : α → UInt32) (base : α → UInt64)
    (h : (image.processes.map Placed.pid ++ items.map pid).Nodup) :
    items.foldl (fun registry i ↦ registry.register r.next (pid i) (base i)) (r.append image)
      = r.append { image with
          processes := image.processes ++ items.map fun i ↦ ⟨pid i, base i⟩ } := by
  induction items generalizing image with
  | nil => simp
  | cons i items ih =>
    have hi : pid i ∉ image.processes.map Placed.pid := fun hmem ↦
      (List.nodup_append.mp h).2.2 _ hmem _ (List.mem_cons_self ..) rfl
    rw [List.foldl_cons, register_append r image (base i) hi, ih]
    · simp
    · simpa using h

/-- Where an image is mapped in a process is found by the identifier of the process. -/
theorem find?_placed {placed : List Placed} (hdistinct : (placed.map Placed.pid).Nodup) {p : Placed}
    (hp : p ∈ placed) : placed.find? (fun q ↦ q.pid == p.pid) = some p := by
  cases hfind : placed.find? fun q ↦ q.pid == p.pid with
  | none => exact absurd (List.find?_eq_none.mp hfind p hp) (by simp)
  | some q =>
    have hpid : q.pid = p.pid := by simpa using List.find?_some hfind
    rw [List.inj_on_of_nodup_map hdistinct (List.mem_of_find?_eq_some hfind) hp hpid]

/-- Where the newest image is mapped in a process. -/
theorem mapping?_append (r : Registry) (image : RegisteredImage) (pid : UInt32) :
    (r.append image).mapping? pid r.next
      = (image.processes.find? fun p ↦ p.pid == pid).map fun p ↦ ⟨p.base, image.size⟩ := by
  have hbase : baseOf? ((r.append image).bases pid) r.next
      = (image.processes.find? fun p ↦ p.pid == pid).map Placed.base := by
    simp [baseOf?, bases, append, next]
  have hget : (r.append image).get? r.next = some image := by
    simp [get?, append, next]
  unfold mapping?
  rw [hbase, hget]
  cases image.processes.find? fun p ↦ p.pid == pid <;> rfl

/-- Where an image is mapped in a process that it was just noted for. -/
theorem mapping?_register (r : Registry) (token : Token) (pid : UInt32) (base : UInt64) :
    (r.register token pid base).mapping? pid token
      = (r.get? token).map fun i ↦ ⟨base, i.size⟩ := by
  have hnone : ∀ placed, (without pid placed).find? (fun p ↦ p.pid == pid) = none := by
    intro placed
    rw [List.find?_eq_none]
    intro p hp
    simpa [without] using (List.mem_filter.mp hp).2
  unfold mapping? baseOf? bases get? register modifyAt
  simp only [List.getElem?_map, List.getElem?_modify_eq]
  cases r.images[token.index]? with
  | none => rfl
  | some i => simp [hnone]

/-- Noting a mapping that was not there and forgetting it again changes nothing. -/
theorem forget_register {r : Registry} {token : Token} {pid : UInt32}
    (h : baseOf? (r.bases pid) token = none) (base : UInt64) :
    (r.register token pid base).forget token pid = r := by
  unfold forget register modifyAt
  simp only [List.modify_modify_eq, Function.comp_def]
  congr 1
  apply List.ext_getElem?
  intro i
  rw [List.getElem?_modify]
  split
  · next hi =>
    subst hi
    cases hget : r.images[token.index]? with
    | none => rfl
    | some image =>
      have hnone : image.processes.find? (fun p ↦ p.pid == pid) = none := by
        simpa [baseOf?, bases, hget] using h
      have hwithout : without pid image.processes = image.processes := by
        refine without_of_not_mem fun hmem ↦ ?_
        obtain ⟨p, hp, hpid⟩ := List.mem_map.mp hmem
        have := List.find?_eq_none.mp hnone p hp
        simp [hpid] at this
      have hagain : without pid (image.processes ++ [⟨pid, base⟩]) = image.processes := by
        rw [without, List.filter_append]
        change without pid image.processes ++ _ = _
        rw [hwithout]
        simp
      simp [hwithout, hagain]
  · exact id_map _

/-- An image behind a change of one entry. -/
theorem mem_modifyAt {r : Registry} {token : Token} {f : RegisteredImage → RegisteredImage}
    {i : RegisteredImage} (h : i ∈ (r.modifyAt token f).images) :
    i ∈ r.images ∨ ∃ j ∈ r.images, i = f j := by
  obtain ⟨n, hn⟩ := List.mem_iff_getElem?.mp h
  rw [modifyAt, List.getElem?_modify] at hn
  split at hn
  · obtain ⟨j, hj, hf⟩ := Option.map_eq_some_iff.mp hn
    exact .inr ⟨j, List.mem_of_getElem? hj, hf.symm⟩
  · exact .inl (List.mem_of_getElem? (by simpa using hn))

end LivePatch.Registry

namespace LivePatch

/-- An image that is mapped in some processes at most, and in each of them once. -/
structure RegisteredImage.IsPlacedAmong (pids : List UInt32) (i : RegisteredImage) : Prop where
  attached : ∀ placed ∈ i.processes, placed.pid ∈ pids
  distinct : (i.processes.map Placed.pid).Nodup

namespace RegisteredImage

variable {pids : List UInt32} {i : RegisteredImage}

/-- Forgetting a process leaves the other ones. -/
theorem IsPlacedAmong.without (h : i.IsPlacedAmong pids) (pid : UInt32) :
    IsPlacedAmong (pids.filter (· != pid))
      { i with processes := Registry.without pid i.processes } := by
  constructor
  · intro placed hplaced
    obtain ⟨hmem, hne⟩ := List.mem_filter.mp hplaced
    exact List.mem_filter.mpr ⟨h.attached placed hmem, hne⟩
  · exact h.distinct.sublist (List.filter_sublist.map _)

theorem IsPlacedAmong.mono {pids' : List UInt32} (h : i.IsPlacedAmong pids)
    (hpids : ∀ pid ∈ pids, pid ∈ pids') : i.IsPlacedAmong pids' :=
  ⟨fun placed hplaced ↦ hpids _ (h.attached placed hplaced), h.distinct⟩

/-- Noting a mapping in a process replaces what was noted for it. -/
theorem IsPlacedAmong.noted (h : i.IsPlacedAmong pids) {pid : UInt32} (hpid : pid ∈ pids)
    (base : UInt64) :
    IsPlacedAmong pids { i with processes := Registry.without pid i.processes ++ [⟨pid, base⟩] } := by
  have hothers := h.without pid
  constructor
  · intro placed hplaced
    rcases List.mem_append.mp hplaced with hplaced | hplaced
    · exact (List.mem_filter.mp (hothers.attached placed hplaced)).1
    · rw [List.mem_singleton.mp hplaced]
      exact hpid
  · have hnew : pid ∉ (Registry.without pid i.processes).map Placed.pid := by
      intro hmem
      obtain ⟨placed, hplaced, heq⟩ := List.mem_map.mp hmem
      have := (List.mem_filter.mp (hothers.attached placed hplaced)).2
      simp [heq] at this
    rw [List.map_append, List.map_singleton]
    refine List.nodup_append.mpr ⟨hothers.distinct, by simp, fun a ha b hb heq ↦ ?_⟩
    rw [heq, List.mem_singleton.mp hb] at ha
    exact hnew ha

end RegisteredImage

namespace Registry

/-- All images are mapped in some processes at most, and in each of them once. -/
def IsPlacedAmong (pids : List UInt32) (r : Registry) : Prop :=
  ∀ i ∈ r.images, i.IsPlacedAmong pids

variable {pids : List UInt32} {r : Registry}

theorem IsPlacedAmong.mono {pids' : List UInt32} (h : r.IsPlacedAmong pids)
    (hpids : ∀ pid ∈ pids, pid ∈ pids') : r.IsPlacedAmong pids' :=
  fun i hi ↦ (h i hi).mono hpids

/-- An image that is mapped nowhere may be added. -/
theorem IsPlacedAmong.insert (h : r.IsPlacedAmong pids) (path : Path) (tables : ImageTables)
    (size : UInt32) : (r.insert path tables size).IsPlacedAmong pids := by
  intro i hi
  rcases List.mem_append.mp hi with hi | hi
  · exact h i hi
  · rw [List.mem_singleton.mp hi]
    exact ⟨fun placed hplaced ↦ (List.not_mem_nil hplaced).elim, .nil⟩

theorem IsPlacedAmong.register (h : r.IsPlacedAmong pids) (token : Token) {pid : UInt32}
    (hpid : pid ∈ pids) (base : UInt64) : (r.register token pid base).IsPlacedAmong pids := by
  intro i hi
  rcases mem_modifyAt hi with hi | ⟨j, hj, rfl⟩
  · exact h i hi
  · exact (h j hj).noted hpid base

theorem IsPlacedAmong.foldl_register {α : Type} (h : r.IsPlacedAmong pids) (token : Token)
    {items : List α} {pid : α → UInt32} (base : α → UInt64) (hpids : ∀ a ∈ items, pid a ∈ pids) :
    (items.foldl (fun r a ↦ r.register token (pid a) (base a)) r).IsPlacedAmong pids := by
  induction items generalizing r with
  | nil => exact h
  | cons a items ih =>
    exact ih (h.register token (hpids a (List.mem_cons_self ..)) _) fun b hb ↦
      hpids b (List.mem_cons_of_mem _ hb)

theorem IsPlacedAmong.forget (h : r.IsPlacedAmong pids) (token : Token) (pid : UInt32) :
    (r.forget token pid).IsPlacedAmong pids := by
  intro i hi
  rcases mem_modifyAt hi with hi | ⟨j, hj, rfl⟩
  · exact h i hi
  · exact ((h j hj).without pid).mono fun _ hmem ↦ (List.mem_filter.mp hmem).1

/-- Forgetting a process everywhere leaves the other ones. -/
theorem IsPlacedAmong.unregister (h : r.IsPlacedAmong pids) (pid : UInt32) :
    (r.unregister pid).IsPlacedAmong (pids.filter (· != pid)) := by
  intro i hi
  obtain ⟨j, hj, rfl⟩ := List.mem_map.mp hi
  exact (h j hj).without pid

theorem IsPlacedAmong.discard (h : r.IsPlacedAmong pids) (token : Token) :
    (r.discard token).IsPlacedAmong pids := by
  unfold Registry.discard
  split
  · exact fun i hi ↦ h i (List.dropLast_subset _ hi)
  · exact h

/-- The newest of several images can be dropped. -/
theorem size_discard {token : Token} (h : token.index ≠ 0) (hnewest : token.index + 1 = r.size) :
    (r.discard token).size + 1 = r.size := by
  have hd : r.isDiscardable token = true := by
    simp only [isDiscardable, Bool.and_eq_true, bne_iff_ne, beq_iff_eq]
    exact ⟨h, hnewest⟩
  rw [Registry.discard, if_pos hd]
  simp only [size] at hnewest ⊢
  rw [List.length_dropLast]
  omega

end Registry
end LivePatch
