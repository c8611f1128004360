import LivePatch.Proofs.Session.Objects
import LivePatch.Proofs.Session.Reinstalling
import Mathlib.Data.Finset.Card

/-!
# Names of patches are used once

A module counts the names that it tried for its patches, whether there was room for them, whether
the linker succeeded and whether the patch became active. So the images of its patches have
increasing numbers below that count, and the next patch has a number that none of them has. No
image lies where a database or a copy for a process may lie either, so nothing that is removed or
written for one patch is the image of an earlier one.

What takes the room of a patch is a directory in the place of its image or database. There are
finitely many, so there is room for some patch.
-/

namespace LivePatch

namespace PatchFiles

variable {module : Path} {n k fuel : Nat} {t t' u : FileTree} {taken : Finset Location}

/-- Numbers are tried from one on, until there is room for the files of a patch. -/
inductive Chooses (module : Path) : Nat → FileTree → Nat → FileTree → Prop where
  | room {n : Nat} {t t' : FileTree}
      (h : (ofNumber module n).makeRoomForBoth.run t = (true, t')) : Chooses module n t n t'
  | blocked {n k : Nat} {t u t' : FileTree}
      (h : (ofNumber module n).makeRoomForBoth.run t = (false, u))
      (hrest : Chooses module (n + 1) u k t') : Chooses module n t k t'

/-- What is left of files when some of them are gone. -/
structure Shrinks (t t' : FileTree) : Prop where
  home : t'.home = t.home
  held : ∀ l, (t'.held? l).isSome → (t.held? l).isSome

theorem Shrinks.remove? (h : Shrinks t u) {p : Path} (hremove : u.remove? p = some t') :
    Shrinks t t' := by
  obtain ⟨l, data, -, -, hreplaces⟩ := FileTree.replaces_of_remove? hremove
  refine ⟨hreplaces.home.trans h.home, fun m hm ↦ h.held m ?_⟩
  rw [hreplaces.held] at hm
  split at hm
  · cases hm
  · exact hm

theorem shrinks_makeRoomForBoth (p : PatchFiles) (t : FileTree) :
    Shrinks t (p.makeRoomForBoth.run t).2 :=
  makeRoomForBoth_keeps (P := Shrinks t) (fun _ _ h ↦ h.remove?) (fun _ _ h ↦ h.remove?)
    ⟨rfl, fun _ h ↦ h⟩

/-- What a path names lies where the path leads. -/
theorem held_of_contains {path : Path} (h : t.contains path = true) :
    (t.held? (path.location t.home)).isSome := by
  unfold FileTree.contains FileTree.node? at h
  cases hlocate : t.locate? path with
  | none =>
    rw [hlocate] at h
    cases h
  | some l =>
    rw [hlocate, Option.bind_some, FileTree.isSome_at?] at h
    rwa [← FileTree.locate?_eq hlocate]

/-- Where there is no room for a file, something lies in its place. -/
theorem held_of_blocked {path : Path} (h : (makeRoom path).run t = (false, u)) :
    (u.held? (path.location u.home)).isSome := by
  rw [run_makeRoom] at h
  split at h
  · cases h
  · next hcontains =>
    split at h <;> cases h
    exact held_of_contains (by simpa using hcontains)

/-- Where there is no room for a patch, something lies in the place of one of its files. -/
theorem exists_held_of_blocked {p : PatchFiles} (h : p.makeRoomForBoth.run t = (false, u)) :
    (u.held? (p.image.location u.home)).isSome ∨ (u.held? (p.database.location u.home)).isSome := by
  rw [run_makeRoomForBoth] at h
  generalize hr : (makeRoom p.image).run t = r at h
  obtain ⟨_ | _, t'⟩ := r
  · cases h
    exact .inl (held_of_blocked hr)
  · exact .inr (held_of_blocked h)

/-- Whatever lies in the place of a patch from a number on lies at one of some locations. -/
def Covers (module : Path) (n : Nat) (t : FileTree) (taken : Finset Location) : Prop :=
  ∀ k, n ≤ k → ∀ p, p = (ofNumber module k).image ∨ p = (ofNumber module k).database →
    (t.held? (p.location t.home)).isSome → p.location t.home ∈ taken

/-- A number that there is no room for takes one of the locations, which is not in the place of any
later patch. -/
theorem Covers.erase (h : Covers module n t taken)
    (hblocked : (ofNumber module n).makeRoomForBoth.run t = (false, u)) :
    ∃ l ∈ taken, Covers module (n + 1) u (taken.erase l) := by
  have hshrinks := shrinks_makeRoomForBoth (ofNumber module n) t
  rw [hblocked] at hshrinks
  have hheld : ∃ p, (p = (ofNumber module n).image ∨ p = (ofNumber module n).database) ∧
      (u.held? (p.location u.home)).isSome :=
    (exists_held_of_blocked hblocked).elim (fun hi ↦ ⟨_, .inl rfl, hi⟩) fun hd ↦ ⟨_, .inr rfl, hd⟩
  obtain ⟨p, hp, hheld⟩ := hheld
  have hmem : ∀ k, n ≤ k → ∀ q, q = (ofNumber module k).image ∨ q = (ofNumber module k).database →
      (u.held? (q.location u.home)).isSome → q.location u.home ∈ taken := by
    intro k hk q hq hheld
    have hold := hshrinks.held _ hheld
    rw [hshrinks.home] at hold ⊢
    exact h k hk q hq hold
  refine ⟨p.location u.home, hmem n (Nat.le_refl n) p hp hheld, fun k hk q hq hheld ↦
    Finset.mem_erase.mpr ⟨?_, hmem k (Nat.le_of_succ_le hk) q hq hheld⟩⟩
  have hne : k ≠ n := by omega
  rcases hp with rfl | rfl <;> rcases hq with rfl | rfl
  · exact isApart_image hne u.home
  · exact (isApart_database n k u.home).symm
  · exact isApart_database k n u.home
  · exact isApart_databases hne u.home

/-- With enough attempts for what is in the way, some number has room. -/
theorem chooses_nextFrom (hcovers : Covers module n t taken) (hfuel : taken.card ≤ fuel) :
    ∃ k t', Chooses module n t k t' ∧ k ≤ n + fuel ∧
      (nextFrom module fuel n).run t = ((ofNumber module k, k + 1), t') := by
  induction fuel generalizing n t taken with
  | zero =>
    refine ⟨n, t, ?_, Nat.le_refl n, rfl⟩
    -- nothing is in the way, so there is room without removing anything
    have hnone : ∀ p, p = (ofNumber module n).image ∨ p = (ofNumber module n).database →
        (makeRoom p).run t = (true, t) := by
      intro p hp
      rw [run_makeRoom, if_pos]
      rw [Bool.not_eq_true', Bool.eq_false_iff]
      intro hcontains
      have hmem := hcovers n (Nat.le_refl n) p hp (held_of_contains hcontains)
      rw [Finset.card_eq_zero.mp (Nat.le_zero.mp hfuel)] at hmem
      exact absurd hmem (Finset.notMem_empty _)
    refine .room ?_
    rw [run_makeRoomForBoth, hnone _ (.inl rfl)]
    exact hnone _ (.inr rfl)
  | succ fuel ih =>
    rw [run_nextFrom_succ]
    generalize hr : (ofNumber module n).makeRoomForBoth.run t = r
    obtain ⟨_ | _, u⟩ := r
    · obtain ⟨l, hl, hrest⟩ := hcovers.erase hr
      have hcard : (taken.erase l).card ≤ fuel := by
        rw [Finset.card_erase_of_mem hl]
        omega
      obtain ⟨k, t', hchooses, hk, hrun⟩ := ih hrest hcard
      exact ⟨k, t', .blocked hr hchooses, by omega, hrun⟩
    · exact ⟨n, u, .room hr, by omega, rfl⟩

/-- In every file system some number has room, behind at most as many that have none as there are
files and directories. -/
theorem chooses_next (module : Path) (counter : Nat) (t : FileTree) :
    ∃ n t', Chooses module counter t n t' ∧ n ≤ counter + t.nodes.length ∧
      (next module counter).run t = ((ofNumber module n, n + 1), t') := by
  have hcovers : Covers module counter t (t.nodes.map Prod.fst).toFinset := by
    intro k _ p hp hheld
    have hne : p.location t.home ≠ [] := by
      obtain ⟨dir, hdir⟩ := exists_names module
      rcases hp with rfl | rfl
      · rw [(hdir k).1.location]
        simp
      · rw [(hdir k).2.1.location]
        simp
    rw [FileTree.held?_of_ne_nil hne, Option.isSome_map] at hheld
    obtain ⟨node, hnode⟩ := Option.isSome_iff_exists.mp hheld
    obtain ⟨before, after, hnodes, -⟩ := List.lookup_eq_some_iff.mp hnode
    rw [List.mem_toFinset, hnodes]
    simp
  refine chooses_nextFrom hcovers ((List.toFinset_card_le _).trans ?_)
  rw [List.length_map]

theorem Chooses.le (h : Chooses module n t k t') : n ≤ k := by
  induction h with
  | room => exact Nat.le_refl _
  | blocked _ _ ih => exact Nat.le_of_succ_le ih

/-- Choosing a number removes files of patches from that number on at most. -/
theorem Chooses.read? (h : Chooses module n t k t') {q : Path}
    (hq : ∀ j, n ≤ j →
      q.IsApart (ofNumber module j).image ∧ q.IsApart (ofNumber module j).database) :
    t'.read? q = t.read? q := by
  have hboth : ∀ (p : PatchFiles) (t : FileTree), q.IsApart p.image → q.IsApart p.database →
      (p.makeRoomForBoth.run t).2.read? q = t.read? q := fun p t himage hdatabase ↦
    makeRoomForBoth_keeps (P := fun u ↦ u.read? q = t.read? q)
      (fun u u' hu hremove ↦ (FileTree.read?_of_remove? hremove (himage u.home)).trans hu)
      (fun u u' hu hremove ↦ (FileTree.read?_of_remove? hremove (hdatabase u.home)).trans hu) rfl
  induction h with
  | @room n t t' hroom =>
    obtain ⟨himage, hdatabase⟩ := hq n (Nat.le_refl n)
    have := hboth (ofNumber module n) t himage hdatabase
    rwa [hroom] at this
  | @blocked n k t u t' hblocked _ ih =>
    obtain ⟨himage, hdatabase⟩ := hq n (Nat.le_refl n)
    have := hboth (ofNumber module n) t himage hdatabase
    rw [hblocked] at this
    exact (ih fun j hj ↦ hq j (Nat.le_of_succ_le hj)).trans this

/-- What choices one after another come to, each in whatever became of the file system. -/
def chosen (module : Path) : Nat → List FileTree → List PatchFiles
  | _, [] => []
  | counter, t :: trees =>
    let ((files, counter), _) := (next module counter).run t
    files :: chosen module counter trees

/-- An image that lies apart from an earlier one, its database and all copies of it, while its own
files lie apart from the earlier image. -/
structure IsClearOf (later earlier : PatchFiles) : Prop where
  image : later.image.IsApart earlier.image
  copy : ∀ pid, later.image.IsApart (LoadState.copyPath earlier.image pid)
  ownCopy : ∀ pid, earlier.image.IsApart (LoadState.copyPath later.image pid)
  database : later.image.IsApart earlier.database
  ownDatabase : earlier.image.IsApart later.database

theorem isClearOf (h : k ≠ n) : (ofNumber module k).IsClearOf (ofNumber module n) :=
  ⟨isApart_image h, isApart_copy k n, isApart_copy n k, isApart_database k n,
    isApart_database n k⟩

/-- Choices one after another have increasing numbers. -/
theorem exists_numbers (module : Path) (counter : Nat) (trees : List FileTree) :
    ∃ numbers : List Nat, chosen module counter trees = numbers.map (ofNumber module) ∧
      numbers.Pairwise (· < ·) ∧ ∀ n ∈ numbers, counter ≤ n := by
  induction trees generalizing counter with
  | nil => exact ⟨[], rfl, .nil, fun n hn ↦ absurd hn List.not_mem_nil⟩
  | cons t trees ih =>
    obtain ⟨n, t', hchooses, -, hrun⟩ := chooses_next module counter t
    obtain ⟨numbers, hnumbers, hincreasing, hlower⟩ := ih (n + 1)
    refine ⟨n :: numbers, ?_, .cons (fun k hk ↦ hlower k hk) hincreasing, ?_⟩
    · unfold chosen
      rw [hrun]
      exact congrArg (_ :: ·) hnumbers
    · intro k hk
      rcases List.mem_cons.mp hk with rfl | hk
      · exact hchooses.le
      · exact hchooses.le.trans (Nat.le_of_succ_le (hlower k hk))

theorem pairwise_chosen (module : Path) (counter : Nat) (trees : List FileTree) :
    (chosen module counter trees).Pairwise fun earlier later ↦ later.IsClearOf earlier := by
  obtain ⟨numbers, hnumbers, hincreasing, -⟩ := exists_numbers module counter trees
  rw [hnumbers, List.pairwise_map]
  exact hincreasing.imp fun h ↦ isClearOf (Nat.ne_of_gt h)

end PatchFiles

/-- The record of an activated patch has the path of the patch. -/
theorem Activation.path_run (a : Activation) (objects : List (ObjectTable × List String))
    (patch : PatchRecord) : Triple (fun _ ↦ True) (a.run objects patch)
      (fun p _ ↦ p.path = patch.path) fun _ ↦ True := by
  have hfunctions : ∀ (objects : List ObjectTable) (patch : PatchRecord), Triple (fun _ ↦ True)
      (a.redirectFunctions objects patch) (fun p _ ↦ p.path = patch.path) fun _ ↦ True :=
    fun _ _ ↦ Keeps.triv_bind fun _ ↦ Triple.ensuring (E := fun _ ↦ True)
      (Keeps.triv_bind fun _ ↦ Keeps.triv_bind fun _ ↦ Keeps.triv_bind fun _ ↦
        Triple.pure fun _ _ ↦ rfl) (fun _ _ h ↦ h) fun _ _ ↦ trivial
  unfold run
  refine Keeps.triv_bind fun _ ↦ Keeps.triv_bind fun preHooks ↦ Keeps.triv_bind fun _ ↦
    Keeps.triv_bind fun preEntry ↦ ?_
  dsimp only
  refine Keeps.triv_bind fun _ ↦ Keeps.triv_bind fun _ ↦ Keeps.triv_bind fun _ ↦
    Keeps.triv_bind fun postEntry ↦ (hfunctions _ _).bind fun p ↦ Triple.of_fact fun hp ↦
      Keeps.triv_bind fun _ ↦ Keeps.triv_bind fun _ ↦ Triple.pure fun _ _ ↦ hp

namespace LiveModule

variable {m m' : LiveModule} {bound : Nat} {image : Path}

/-- The images of the patches have increasing numbers below a bound. -/
def IsNumbered (m : LiveModule) (bound : Nat) : Prop :=
  ∃ numbers : List Nat,
    m.patches.map PatchRecord.path
      = numbers.map (fun n ↦ (PatchFiles.ofNumber m.path n).image) ∧
    numbers.Pairwise (· < ·) ∧ ∀ n ∈ numbers, n < bound

/-- The images of the patches have increasing numbers that were tried. -/
def IsCounted (m : LiveModule) : Prop := m.IsNumbered m.counter

/-- An image has a number that was tried and is behind those of the patches. -/
def HasChosen (image : Path) (m : LiveModule) : Prop :=
  ∃ n, image = (PatchFiles.ofNumber m.path n).image ∧ m.IsNumbered n ∧ n < m.counter

theorem IsNumbered.mono (h : m.IsNumbered bound) {more : Nat} (hle : bound ≤ more) :
    m.IsNumbered more := by
  obtain ⟨numbers, hpaths, hincreasing, hbound⟩ := h
  exact ⟨numbers, hpaths, hincreasing, fun n hn ↦ Nat.lt_of_lt_of_le (hbound n hn) hle⟩

theorem IsNumbered.congr (h : m.IsNumbered bound) (hpath : m'.path = m.path)
    (hpatches : m'.patches = m.patches) : m'.IsNumbered bound := by
  unfold IsNumbered
  rw [hpath, hpatches]
  exact h

theorem HasChosen.isCounted (h : m.HasChosen image) : m.IsCounted := by
  obtain ⟨n, -, hnumbered, hn⟩ := h
  exact hnumbered.mono hn.le

theorem HasChosen.congr (h : m.HasChosen image) (hpath : m'.path = m.path)
    (hpatches : m'.patches = m.patches) (hcounter : m.counter ≤ m'.counter) :
    m'.HasChosen image := by
  obtain ⟨n, himage, hnumbered, hn⟩ := h
  exact ⟨n, hpath ▸ himage, hnumbered.congr hpath hpatches, Nat.lt_of_lt_of_le hn hcounter⟩

theorem isCounted_ignoresBooks : IgnoresBooks IsCounted where
  work := fun _ hcounter h ↦ h.mono hcounter
  informing := fun _ h ↦ h
  books := fun _ _ _ h ↦ h

theorem hasChosen_ignoresBooks (image : Path) : IgnoresBooks (HasChosen image) where
  work := fun _ hcounter h ↦ h.congr rfl rfl hcounter
  informing := fun _ h ↦ h
  books := fun _ _ _ h ↦ h

/-- Linking chooses the image that the patch is to have. -/
theorem isCounted_link (needed recompiled : PathSet) :
    Triple IsCounted (link needed recompiled) (fun linked ↦ HasChosen linked.image) IsCounted := by
  refine Triple.bind_get fun m hm ↦ ?_
  have hchosen : m.nextPatchFiles.2.HasChosen m.nextPatchFiles.1.image := by
    obtain ⟨n, t', hchooses, -, hrun⟩ := PatchFiles.chooses_next m.path m.counter m.files
    rw [nextPatchFiles_eq, hrun]
    exact ⟨n, rfl, hm.mono hchooses.le, Nat.lt_succ_self n⟩
  generalize m.nextPatchFiles = next at hchosen ⊢
  obtain ⟨files, m₁⟩ := next
  have h := hasChosen_ignoresBooks files.image
  refine Triple.bind (R := fun _ ↦ HasChosen files.image) (Triple.set fun _ _ ↦ hchosen) fun _ ↦ ?_
  refine Triple.mono (Triple.bind (R := fun _ ↦ HasChosen files.image)
    (Keeps.mapM fun _ _ ↦ h.inWorkshop _) fun _ ↦ Triple.bind (h.runTool _) fun _ ↦
    Triple.pure fun _ h ↦ ?_) (fun _ h ↦ h) (fun _ _ h ↦ h)
    fun _ (h : HasChosen files.image _) ↦ h.isCounted
  exact h

/-- A patch that became active has the image that was chosen for it. -/
theorem isCounted_finish (patch : PatchRecord) :
    Triple (HasChosen patch.path) (finish patch) (fun _ ↦ IsCounted) IsCounted := by
  intro m hm
  obtain ⟨n, himage, ⟨numbers, hpaths, hincreasing, hbound⟩, hn⟩ := hm
  unfold finish
  rw [run_bind, run_clearPending]
  refine ⟨numbers ++ [n], ?_, ?_, ?_⟩
  · simp only [List.map_append, hpaths, List.map_cons, List.map_nil, himage]
  · exact List.pairwise_append.mpr ⟨hincreasing, List.pairwise_singleton _ _,
      fun a ha b hb ↦ List.mem_singleton.mp hb ▸ hbound a ha⟩
  · intro a ha
    rcases List.mem_append.mp ha with ha | ha
    · exact (hbound a ha).trans hn
    · exact List.mem_singleton.mp ha ▸ hn

theorem hasChosen_unload (bases : List UInt64) : Keeps (HasChosen image) (unload bases) :=
  Keeps.modify fun _ h ↦ h.congr rfl rfl (Nat.le_refl _)

theorem isCounted_activate (patch : PatchRecord) (p : Prepared) (image : Image)
    (needed : PathSet) (stripped : Stripped) (bases : List UInt64) :
    Triple (HasChosen patch.path) (activate patch p image needed stripped bases)
      (fun _ ↦ IsCounted) IsCounted := by
  have h := hasChosen_ignoresBooks patch.path
  have hgiveUp : Triple (HasChosen patch.path) (do
      unload bases
      modify fun m ↦ { m with registry := m.registry.discard patch.token }
      abandon .activateError) (fun _ ↦ IsCounted) IsCounted :=
    ((hasChosen_unload bases).bind fun _ ↦ (Keeps.modify fun _ h ↦ h.congr rfl rfl
      (Nat.le_refl _)).bind fun _ ↦ h.abandon _).mono (fun _ h ↦ h) (fun _ _ h ↦ h.isCounted)
      fun _ h ↦ h.isCounted
  have hobjects : Triple (HasChosen patch.path)
      (ExceptT.lift (needed.toList.mapM fun o ↦ inWorkshop (Workshop.object o)).run)
      (fun _ ↦ HasChosen patch.path) IsCounted :=
    (Keeps.tried (Keeps.mapM fun _ _ ↦ h.inWorkshop _)).mono (fun _ h ↦ h) (fun _ _ h ↦ h)
      fun _ h ↦ h.isCounted
  refine hobjects.bind fun result ↦ ?_
  split
  · exact Triple.throw fun _ h ↦ h.isCounted
  · exact hgiveUp
  · refine Triple.bind_get fun m hm ↦ ?_
    dsimp only
    split
    · next hok =>
      have hpath := (Activation.path_run _ _ _).ok trivial hok
      refine Triple.bind (R := fun _ ↦ HasChosen _) (Triple.set fun _ _ ↦ ?_) fun _ ↦
        isCounted_finish _
      rw [hpath]
      exact hm.congr rfl rfl (Nat.le_refl _)
    · exact Triple.throw fun _ h ↦ h ▸ hm.isCounted
    · exact Triple.bind (R := fun _ ↦ HasChosen patch.path)
        (Triple.set fun _ _ ↦ hm.congr rfl rfl (Nat.le_refl _)) fun _ ↦ hgiveUp

theorem isCounted_install (path : Path) (needed : PathSet) (stripped : Stripped) :
    Triple (HasChosen path) (install path needed stripped) (fun _ ↦ IsCounted) IsCounted := by
  have h := hasChosen_ignoresBooks path
  have hgiveUp : ∀ bases outcome, Triple (HasChosen path) (do
      unload bases
      abandon outcome) (fun _ ↦ IsCounted) IsCounted := fun bases outcome ↦
    ((hasChosen_unload bases).bind fun _ ↦ h.abandon outcome).mono (fun _ h ↦ h)
      (fun _ _ h ↦ h.isCounted) fun _ h ↦ h.isCounted
  refine Triple.bind ((h.prepare path).mono (fun _ h ↦ h) (fun _ _ h ↦ h) fun _ h ↦ h.isCounted)
    fun p ↦ Triple.bind_get fun m hm ↦ ?_
  refine Triple.bind_lift (fun r hr ↦ ?_) fun _ h ↦ h ▸ hm.isCounted
  refine Triple.bind (R := fun _ ↦ HasChosen path)
    (Triple.set fun _ _ ↦ hm.congr rfl rfl (Nat.le_refl _)) fun _ ↦ ?_
  split
  · exact hgiveUp _ _
  · refine Triple.bind ((Keeps.lift _).mono (fun _ h ↦ h) (fun _ _ h ↦ h) fun _ h ↦ h.isCounted)
      fun isInReach ↦ ?_
    split
    · refine Triple.bind (R := fun _ ↦ HasChosen path) (Triple.bind_get fun m hm ↦
        Triple.bind (R := fun _ ↦ HasChosen path)
          (Triple.set fun _ _ ↦ hm.congr rfl rfl (Nat.le_refl _)) fun _ ↦ Triple.pure fun _ h ↦ h)
        fun token ↦ isCounted_activate (.bare path token p.size p.entryPoint) p r.image needed
          stripped r.bases
    · exact hgiveUp _ _

theorem isCounted_build : Keeps IsCounted build := by
  have h := isCounted_ignoresBooks
  refine Keeps.get.bind fun m ↦ ?_
  split
  · exact Keeps.pure _
  · refine (h.inWorkshop _).bind fun owners ↦ (h.inWorkshop _).bind fun needed ↦
      Keeps.get.bind fun _ ↦ (h.inWorkshop _).bind fun stripped ↦ ?_
    -- the patch has its image when linking answers, and keeps it while object files are put back
    have hlink : Triple IsCounted (ExceptT.lift (link needed m.pending).run : CycleM (Outcome Linked))
        (fun linked m ↦ m.IsCounted ∧ ∀ l, linked = .ok l → m.HasChosen l.image)
        IsCounted := by
      refine (isCounted_link needed m.pending).tried.mono (fun _ h ↦ h) ?_ fun _ h ↦ h.elim
      rintro (_ | linked) m hm
      · exact ⟨hm, nofun⟩
      · exact ⟨hm.isCounted, fun _ hl ↦ by cases hl; exact hm⟩
    refine hlink.bind fun linked ↦ ?_
    cases linked with
    | error stop =>
      refine Triple.mono (show Triple IsCounted _ _ _ from ?_) (fun _ h ↦ h.1) (fun _ _ h ↦ h)
        fun _ h ↦ h
      exact (h.inWorkshop _).tried.bind fun _ ↦ Keeps.throw _
    | ok linked =>
      have hchosen := hasChosen_ignoresBooks linked.image
      refine Triple.mono (show Triple (HasChosen linked.image) _ _ _ from ?_) (fun _ h ↦ h.2 _ rfl)
        (fun _ _ h ↦ h) fun _ h ↦ h
      refine Triple.bind ((hchosen.inWorkshop _).tried.mono (fun _ h ↦ h) (fun _ _ h ↦ h)
        fun _ h ↦ h.isCounted) fun restored ↦ ?_
      refine Triple.bind_lift (fun linked' hlinked ↦ ?_) fun _ h ↦ h.isCounted
      cases hlinked
      refine Triple.bind ((Keeps.lift _).mono (fun _ h ↦ h) (fun _ _ h ↦ h) fun _ h ↦ h.isCounted)
        fun _ ↦ ?_
      split
      · exact ((hchosen.callHooks _).bind fun _ ↦ Keeps.pure _).mono (fun _ h ↦ h)
          (fun _ _ h ↦ h.isCounted) fun _ h ↦ h.isCounted
      · exact isCounted_install _ _ _

theorem isCounted_update : Keeps IsCounted update := by
  have h := isCounted_ignoresBooks
  refine h.detectChanges.bind fun _ ↦ Keeps.get.bind fun m ↦ ?_
  split
  · exact Keeps.pure _
  · split
    · refine (h.callHooks _).bind fun _ ↦ h.compile.bind fun failures ↦ ?_
      split
      · exact (h.callHooks _).bind fun _ ↦ Keeps.pure _
      · exact (h.callHooks _).bind fun _ ↦ isCounted_build
    · exact isCounted_build

theorem isCounted_updateWithObjects (objects : List Path) :
    Keeps IsCounted (updateWithObjects objects) := by
  refine (Keeps.forM fun _ _ ↦ isCounted_ignoresBooks.accept _).bind fun _ ↦
    Keeps.get.bind fun m ↦ ?_
  split
  · exact Keeps.pure _
  · exact isCounted_build

/-- A module with the names and the patches that another one has, whose files have a property. -/
structure HasNames (m : LiveModule) (P : FileTree → Prop) (m' : LiveModule) : Prop where
  path : m'.path = m.path
  patches : m'.patches = m.patches
  counter : m'.counter = m.counter
  files : P m'.files

variable {P : FileTree → Prop}

theorem hasNames_replayLoaded (patch : PatchRecord) (p : AttachedProcess) (base : UInt64) :
    Keeps (m.HasNames P) (replayLoaded patch p base) := by
  refine Keeps.bind (Keeps.modify fun _ h ↦ ⟨h.path, h.patches, h.counter, h.files⟩) fun _ ↦
    Triple.bind_get fun m' h ↦ ?_
  split
  · exact Triple.set fun _ _ ↦ ⟨h.path, h.patches, h.counter, h.files⟩
  · exact Triple.throw fun _ h' ↦ h' ▸ h
  · refine Triple.bind (R := fun _ ↦ m.HasNames P)
      (Triple.modify fun s hs ↦ ?_) fun _ ↦ ?_
    · subst hs
      exact ⟨h.path, h.patches, h.counter, h.files⟩
    exact (Keeps.modify fun _ h ↦ ⟨h.path, h.patches, h.counter, h.files⟩).bind fun _ ↦
      Keeps.throw _

/-- Installing a patch in a process writes the copy for the process only. -/
theorem hasNames_replay (pid : UInt32) (patch : PatchRecord)
    (hwrite : ∀ t t' data, P t → t.write? (LoadState.copyPath patch.path pid) data = some t' → P t') :
    Keeps (m.HasNames P) (replay pid patch) := by
  refine Triple.bind_get fun m' h ↦ ?_
  have hstop : ∀ s, s = m' → m.HasNames P s := fun _ h' ↦ h' ▸ h
  dsimp only
  split
  · exact Triple.fail hstop
  · next p hp =>
    refine Triple.bind_lift (fun image _ ↦ ?_) hstop
    have hpid : p.pid = pid := by
      simpa using List.find?_some hp
    have hkeeps : Keeps (fun s ↦ AttachedProcess.Is pid s.process ∧ P s.files)
        (LoadState.load m'.registry.moduleSize patch.path false) := by
      refine LoadState.keeps_files_load _ pid false fun t t' q data ht hq hwritten ↦ ?_
      rcases hq with ⟨-, hfalse⟩ | rfl
      · cases hfalse
      · exact hwrite t t' data ht hwritten
    have hload := hkeeps.run (s := ⟨m'.files, image, p⟩) ⟨hpid, h.files⟩
    generalize (LoadState.load m'.registry.moduleSize patch.path false).run _ = loaded at hload
    obtain ⟨result, s⟩ := loaded
    dsimp only at hload ⊢
    refine Triple.bind (R := fun _ ↦ m.HasNames P)
      (Triple.set fun _ _ ↦ ⟨h.path, h.patches, h.counter, hload.2⟩) fun _ ↦
      (Keeps.lift _).bind fun found ↦ ?_
    cases found with
    | none => exact Keeps.fail _
    | some base =>
      refine (Keeps.lift _).bind fun isInReach ↦ ?_
      split
      · exact hasNames_replayLoaded _ _ _
      · exact (Keeps.modify fun _ h ↦ ⟨h.path, h.patches, h.counter, h.files⟩).bind fun _ ↦
          Keeps.fail _

theorem hasNames_installPatches (pid : UInt32) (hwrite : ∀ patch ∈ m.patches, ∀ t t' data, P t →
      t.write? (LoadState.copyPath patch.path pid) data = some t' → P t') :
    Keeps (m.HasNames P) (installPatches pid) := by
  refine Triple.bind_get fun m' h ↦ ?_
  have hstop : ∀ s, s = m' → m.HasNames P s := fun _ h' ↦ h' ▸ h
  split
  · exact Triple.pure hstop
  · split
    · exact Triple.fail hstop
    · rw [h.patches]
      exact (Keeps.forM fun patch hpatch ↦ hasNames_replay pid patch (hwrite patch hpatch)).mono
        hstop (fun _ _ h ↦ h) fun _ h ↦ h

/-- The modules that operations leave behind, whatever they come to, while files, tools, processes
and agents may change in any way between them. -/
inductive Outlasts : LiveModule → Prop where
  | load {m : LiveModule} (path : Path) (settings : Settings) (provider : Provider)
      (workshop : Workshop) (h : load path settings provider workshop = .ok m) : Outlasts m
  | operation {m m' : LiveModule} (h : Outlasts m) {α : Type} {act : CycleM α}
      (hact : IsOperation act) {r : Outcome α} (hrun : act.run m = (r, m')) : Outlasts m'
  | detach {m : LiveModule} (h : Outlasts m) (pid : UInt32) : Outlasts (m.detach pid)
  | surroundings {m m' : LiveModule} (h : Outlasts m) (path : m'.path = m.path)
      (patches : m'.patches = m.patches) (counter : m'.counter = m.counter) : Outlasts m'

theorem IsCounted.operation (h : m.IsCounted) {α : Type} {act : CycleM α} (hact : IsOperation act)
    {r : Outcome α} (hrun : act.run m = (r, m')) : m'.IsCounted := by
  cases hact with
  | attach p => exact (keeps_attach fun _ hm _ ↦ hm).run_eq h hrun
  | update => exact isCounted_update.run_eq h hrun
  | updateWithObjects objects => exact (isCounted_updateWithObjects objects).run_eq h hrun
  | installPatches pid =>
    have hnames := (hasNames_installPatches (m := m) (P := fun _ ↦ True) pid
      fun _ _ _ _ _ _ _ ↦ trivial).run_eq ⟨rfl, rfl, rfl, trivial⟩ hrun
    unfold IsCounted
    rw [hnames.counter]
    exact IsNumbered.congr h hnames.path hnames.patches

theorem Outlasts.isCounted (h : m.Outlasts) : m.IsCounted := by
  induction h with
  | load path settings provider workshop h =>
    obtain ⟨tables, linker, image, size, weakSymbols, -, -, -, -, -, rfl⟩ := load_eq_ok_iff.mp h
    exact ⟨[], rfl, .nil, fun _ h ↦ absurd h List.not_mem_nil⟩
  | operation _ hact hrun ih => exact ih.operation hact hrun
  | detach _ pid ih => exact ih
  | surroundings _ hpath hpatches hcounter ih =>
    unfold IsCounted
    rw [hcounter]
    exact IsNumbered.congr ih hpath hpatches

/-- An installed patch has an image with a number below a bound. -/
theorem IsNumbered.exists_number (h : m.IsNumbered bound) {patch : PatchRecord}
    (hpatch : patch ∈ m.patches) :
    ∃ n < bound, patch.path = (PatchFiles.ofNumber m.path n).image := by
  obtain ⟨numbers, hpaths, -, hbound⟩ := h
  have hmem : patch.path ∈ m.patches.map PatchRecord.path := List.mem_map_of_mem hpatch
  rw [hpaths] at hmem
  obtain ⟨n, hn, hpath⟩ := List.mem_map.mp hmem
  exact ⟨n, hbound n hn, hpath.symm⟩

/-- The images of a module's patches survive the next patch. -/
structure SparesImages (m : LiveModule) : Prop where
  /-- The next image is none of them and no copy of one for a process. -/
  isNew : ∀ patch ∈ m.patches, m.nextPatchFiles.1.image.IsApart patch.path ∧
    ∀ pid, m.nextPatchFiles.1.image.IsApart (LoadState.copyPath patch.path pid)
  /-- Room is made for it. -/
  choosing : ∀ patch ∈ m.patches,
    m.nextPatchFiles.2.files.read? patch.path = m.files.read? patch.path
  /-- Its files are written, as linkers do. -/
  writing : ∀ patch ∈ m.patches, ∀ (t t' : FileTree) (data : Bytes),
    t.write? m.nextPatchFiles.1.image data = some t' ∨
      t.write? m.nextPatchFiles.1.database data = some t' →
    t'.read? patch.path = t.read? patch.path
  /-- It is loaded, in place or as copies, and activated. -/
  installing : ∀ patch ∈ m.patches, ∀ (m' : LiveModule) (needed : PathSet) (stripped : Stripped),
    ((install m.nextPatchFiles.1.image needed stripped).run m').2.files.read? patch.path
      = m'.files.read? patch.path
  /-- All patches are installed in a process. -/
  replaying : ∀ patch ∈ m.patches, ∀ pid,
    ((installPatches pid).run m).2.files.read? patch.path = m.files.read? patch.path

theorem IsCounted.sparesImages (h : m.IsCounted) : m.SparesImages := by
  obtain ⟨k, t', hchooses, -, hrun⟩ := PatchFiles.chooses_next m.path m.counter m.files
  have hnext : m.nextPatchFiles.1 = PatchFiles.ofNumber m.path k := by
    rw [nextPatchFiles_eq, hrun]
  have hfiles : m.nextPatchFiles.2.files = t' := by
    rw [nextPatchFiles_eq, hrun]
    rfl
  have hnumber : ∀ patch ∈ m.patches, ∃ n < m.counter, n ≠ k ∧
      patch.path = (PatchFiles.ofNumber m.path n).image := by
    intro patch hpatch
    obtain ⟨n, hn, hpath⟩ := h.exists_number hpatch
    exact ⟨n, hn, Nat.ne_of_lt (Nat.lt_of_lt_of_le hn hchooses.le), hpath⟩
  refine ⟨fun patch hpatch ↦ ?_, fun patch hpatch ↦ ?_, fun patch hpatch t t' data hwrite ↦ ?_,
    fun patch hpatch m' needed stripped ↦ ?_, fun patch hpatch pid ↦ ?_⟩ <;>
    obtain ⟨n, hn, hne, hpath⟩ := hnumber patch hpatch <;> rw [hpath]
  · rw [hnext]
    exact ⟨PatchFiles.isApart_image hne.symm, PatchFiles.isApart_copy k n⟩
  · rw [hfiles]
    exact hchooses.read? fun j hj ↦
      ⟨PatchFiles.isApart_image (Nat.ne_of_lt (Nat.lt_of_lt_of_le hn hj)),
        PatchFiles.isApart_database n j⟩
  · rw [hnext] at hwrite
    rcases hwrite with hwrite | hwrite
    · exact FileTree.read?_of_write? hwrite (PatchFiles.isApart_image hne t.home)
    · exact FileTree.read?_of_write? hwrite (PatchFiles.isApart_database n k t.home)
  · rw [hnext]
    have hinstall : Keeps (m'.IsAt (Workshop.IsWith m'.workshop.toolchain fun t ↦
        t.read? (PatchFiles.ofNumber m.path n).image
          = m'.files.read? (PatchFiles.ofNumber m.path n).image))
        (install (PatchFiles.ofNumber m.path k).image needed stripped) := by
      refine isAt_install (fun t t' p data ht hp hwrite ↦ ?_) needed stripped
      rcases hp with rfl | ⟨pid, rfl⟩
      · exact (FileTree.read?_of_write? hwrite (PatchFiles.isApart_image hne t.home)).trans ht
      · exact (FileTree.read?_of_write? hwrite (PatchFiles.isApart_copy n k pid t.home)).trans ht
    exact (hinstall.run ⟨rfl, rfl, rfl, rfl, rfl, rfl⟩).workshop.2
  · refine (hasNames_installPatches (m := m) (P := fun t ↦
      t.read? (PatchFiles.ofNumber m.path n).image
        = m.files.read? (PatchFiles.ofNumber m.path n).image) pid
      (fun earlier hearlier t t' data ht hwrite ↦ ?_)).run ⟨rfl, rfl, rfl, rfl⟩ |>.files
    obtain ⟨j, -, -, hearlier⟩ := hnumber earlier hearlier
    rw [hearlier] at hwrite
    exact (FileTree.read?_of_write? hwrite (PatchFiles.isApart_copy n j pid t.home)).trans ht

/-- Names of patches are never used again.

* Of choices one after another, with anything happening to the files in between, every later image
  lies apart from every earlier one, from its database and from all copies of it for processes.
* In every file system, behind finitely many numbers that there is no room for, one has room and is
  chosen.
* In every module that operations leave behind, whatever they came to, the images of the patches
  have increasing numbers that were tried, and none of them is removed or replaced when the next
  patch is chosen, written and installed or when the patches are installed in a later process. -/
theorem patch_names_are_never_reused :
    (∀ (module : Path) (counter : Nat) (trees : List FileTree),
      (PatchFiles.chosen module counter trees).Pairwise fun earlier later ↦
        later.IsClearOf earlier) ∧
    (∀ (module : Path) (counter : Nat) (t : FileTree), ∃ n t',
      PatchFiles.Chooses module counter t n t' ∧ n ≤ counter + t.nodes.length ∧
        (PatchFiles.next module counter).run t = ((PatchFiles.ofNumber module n, n + 1), t')) ∧
    ∀ m : LiveModule, m.Outlasts → m.IsCounted ∧ m.SparesImages :=
  ⟨PatchFiles.pairwise_chosen, PatchFiles.chooses_next,
    fun _ h ↦ ⟨h.isCounted, h.isCounted.sparesImages⟩⟩

/-- The image of a patch that a cycle installed survives the next patch. -/
theorem image_of_installed_patch_survives : ∃ m : LiveModule, m.Outlasts ∧
    m.patches.map PatchRecord.path = [⟨"/m.patch_0.dll"⟩] ∧ m.SparesImages := by
  have hstarted : (Relinked.started 140).Outlasts := .load _ _ _ _ (Relinked.load_started 140)
  have hsession : (Relinked.session 140 [Relinked.process 7 .willing]).Outlasts :=
    .operation hstarted (.attach _) rfl
  have hcycle : ∀ m : LiveModule, m.Outlasts → (Relinked.cycle.run m).2.Outlasts := by
    intro m hm
    have hoperation : IsOperation Relinked.cycle := .updateWithObjects _
    exact .operation hm hoperation (r := (Relinked.cycle.run m).1) rfl
  have houtlasts := hcycle _ hsession
  exact ⟨_, houtlasts, Reinstalled.evaluation.cycle.2.paths,
    (patch_names_are_never_reused.2.2 _ houtlasts).2⟩

end LiveModule
end LivePatch
