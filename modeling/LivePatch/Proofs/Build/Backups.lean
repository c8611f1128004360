import LivePatch.Build.PatchFiles
import LivePatch.Proofs.Files.Tree
import LivePatch.Proofs.Triple
import Mathlib.Data.List.Pairwise

/-!
# Backups of object files

While a patch is built its object files are edited in place, each after it was backed up. At any
point the files that were backed up have their contents in their backups, and the others are as they
were; so putting back what was backed up restores all of them.
-/

namespace LivePatch

namespace Backup

/-- A backup lies next to its object file, under a longer name. -/
theorem location_pathOf (home : Location) (object : Path) : ∃ dir last,
    object.location home = Path.walk dir last ∧
      (pathOf object).location home = dir ++ [String.ofList (last ++ ".bak".toList)] :=
  object.location_append_of_long home (by decide) (by decide)

/-- A backup takes no object file's own place. -/
theorem location_pathOf_ne (home : Location) (object : Path) :
    (pathOf object).location home ≠ object.location home := by
  obtain ⟨dir, last, hobject, hbackup⟩ := location_pathOf home object
  rw [hobject, hbackup]
  intro h
  unfold Path.walk at h
  split at h
  · simpa using congrArg List.length h
  · split at h
    · have := congrArg List.length h
      rw [List.length_append, List.length_dropLast] at this
      simp at this
      omega
    · have := List.append_cancel_left h
      simp at this

/-- Object files that lie apart have backups that lie apart. -/
theorem location_eq_of_pathOf {home : Location} {object other : Path}
    (h : (pathOf object).location home = (pathOf other).location home) :
    object.location home = other.location home := by
  obtain ⟨dir, last, hobject, hbackup⟩ := location_pathOf home object
  obtain ⟨dir', last', hother, hbackup'⟩ := location_pathOf home other
  rw [hbackup, hbackup'] at h
  obtain ⟨rfl, hname⟩ := List.append_inj' h rfl
  have hlast : last = last' := by
    have := List.cons.inj hname
    simpa [String.ofList_inj] using this
  rw [hobject, hother, hlast]

/-- Object files none of which lies in the place of another one or of a backup. -/
structure AreApart (home : Location) (objects : List Path) : Prop where
  distinct : objects.Pairwise fun o o' ↦ o.location home ≠ o'.location home
  backups : ∀ o ∈ objects, ∀ o' ∈ objects, (pathOf o).location home ≠ o'.location home

/-- A path that leads neither to an object file nor to a backup. -/
def IsElsewhere (home : Location) (objects : List Path) (p : Path) : Prop :=
  ∀ o ∈ objects, o.location home ≠ p.location home ∧ (pathOf o).location home ≠ p.location home

/-- Object files that lie apart differ. -/
theorem AreApart.nodup {home : Location} {objects : List Path} (h : AreApart home objects) :
    objects.Nodup :=
  h.distinct.imp fun hne heq ↦ hne (congrArg _ heq)

/-- Paths that end otherwise than object files and backups lead elsewhere. -/
theorem isElsewhere_append {home : Location} {objects : List Path} {suffix : String}
    (hslash : '/' ∉ suffix.toList) (hlong : 2 < suffix.toList.length)
    (hobjects : ∀ o ∈ objects, ∀ l ∈ [o.location home, (pathOf o).location home],
      ∀ name ∈ l.getLast?, ¬suffix.toList <:+ name.toList) (q : Path) :
    IsElsewhere home objects (q.append suffix) := by
  obtain ⟨dir, last, -, hq⟩ := q.location_append_of_long home hslash hlong
  have hends : ∀ o ∈ objects, ∀ l ∈ [o.location home, (pathOf o).location home],
      l ≠ (q.append suffix).location home := by
    rintro o ho l hl rfl
    refine hobjects o ho _ hl _ (by rw [hq, List.getLast?_concat]; rfl) ?_
    rw [String.toList_ofList]
    exact List.suffix_append last suffix.toList
  exact fun o ho ↦ ⟨hends o ho _ (by simp), hends o ho _ (by simp)⟩

/-- Different object files lie in different places. -/
theorem AreApart.location_ne {home : Location} {objects : List Path} (h : AreApart home objects)
    {o o' : Path} (ho : o ∈ objects) (ho' : o' ∈ objects) (hne : o ≠ o') :
    o.location home ≠ o'.location home := by
  have hsymm : Std.Symm fun o o' : Path ↦ o.location home ≠ o'.location home :=
    ⟨fun _ _ h ↦ h.symm⟩
  exact h.distinct.forall ho ho' hne

/-- Files that became others while object files and their backups were left alone. -/
structure Spares (objects : List Path) (t t' : FileTree) : Prop where
  home : t'.home = t.home
  isTree : t'.IsTree
  kept : ∀ o ∈ objects, t'.read? o = t.read? o
  backups : ∀ o ∈ objects, t'.read? (pathOf o) = t.read? (pathOf o)

/-- Object files since some of them were backed up. Those and no others may have been edited. -/
structure Underway (objects : List Path) (t : FileTree) (done : List Path) (t' : FileTree) :
    Prop where
  home : t'.home = t.home
  isTree : t'.IsTree
  subset : ∀ o ∈ done, o ∈ objects
  nodup : done.Nodup
  saved : ∀ o ∈ done, ∃ data, t.read? o = some data ∧ t'.read? (pathOf o) = some data
  edited : ∀ o ∈ done, (t'.read? o).isSome
  kept : ∀ o ∈ objects, o ∉ done → t'.read? o = t.read? o
  clean : ∀ o ∈ objects, o ∉ done →
    t'.read? (pathOf o) = none ∨ t'.read? (pathOf o) = t.read? (pathOf o)

namespace Underway

variable {objects done : List Path} {t t' t'' : FileTree}

/-- Before anything was backed up. -/
theorem start (ht : t.IsTree) : Underway objects t [] t where
  home := rfl
  isTree := ht
  subset := by simp
  nodup := .nil
  saved := by simp
  edited := by simp
  kept _ _ _ := rfl
  clean _ _ _ := .inr rfl

/-- Whatever leaves object files and backups alone. -/
theorem congr (h : Underway objects t done t') (hspares : Spares objects t' t'') :
    Underway objects t done t'' where
  home := hspares.home.trans h.home
  isTree := hspares.isTree
  subset := h.subset
  nodup := h.nodup
  saved o ho := by
    rw [hspares.backups o (h.subset o ho)]
    exact h.saved o ho
  edited o ho := by
    rw [hspares.kept o (h.subset o ho)]
    exact h.edited o ho
  kept o ho hnot := (hspares.kept o ho).trans (h.kept o ho hnot)
  clean o ho hnot := by
    rw [hspares.backups o ho]
    exact h.clean o ho hnot

/-- Other contents at a path that leads elsewhere. -/
theorem elsewhere (h : Underway objects t done t') {p : Path} {data : Option Bytes}
    (hp : IsElsewhere t.home objects p) (hsets : FileTree.Sets t' t'' p data) :
    Underway objects t done t'' := by
  refine h.congr ⟨hsets.home, hsets.isTree, fun o ho ↦ hsets.others o ?_,
    fun o ho ↦ hsets.others (pathOf o) ?_⟩
  · rw [h.home]
    exact (hp o ho).1
  · rw [h.home]
    exact (hp o ho).2

/-- One more object file is backed up. -/
theorem backUp (h : Underway objects t done t') (hapart : AreApart t.home objects) {o : Path}
    (ho : o ∈ objects) (hnew : o ∉ done) (hcopy : t'.copy? o (pathOf o) = some t'') :
    Underway objects t (done ++ [o]) t'' := by
  obtain ⟨data, hdata, hsets⟩ := FileTree.sets_of_copy? h.isTree hcopy
  have hhome := h.home
  have hobject : ∀ o' ∈ objects, t''.read? o' = t'.read? o' := by
    intro o' ho'
    refine hsets.others o' ?_
    rw [hhome]
    exact (hapart.backups o ho o' ho').symm
  have hbackup : ∀ o' ∈ objects, o' ≠ o → t''.read? (pathOf o') = t'.read? (pathOf o') := by
    intro o' ho' hne
    refine hsets.others (pathOf o') fun heq ↦ ?_
    rw [hhome] at heq
    exact hapart.location_ne ho' ho hne (location_eq_of_pathOf heq)
  have hkept : t'.read? o = t.read? o := h.kept o ho hnew
  refine ⟨hsets.home.trans hhome, hsets.isTree, ?_, ?_, ?_, ?_, ?_, ?_⟩
  · simpa [or_imp, forall_and, ho] using h.subset
  · exact List.nodup_append.mpr ⟨h.nodup, List.nodup_singleton o, by
      rintro a ha b hb rfl
      exact hnew (List.mem_singleton.mp hb ▸ ha)⟩
  · intro o' ho'
    rcases List.mem_append.mp ho' with ho' | ho'
    · rw [hbackup o' (h.subset o' ho') fun heq ↦ hnew (heq ▸ ho')]
      exact h.saved o' ho'
    · cases List.mem_singleton.mp ho'
      exact ⟨data, hkept ▸ hdata, hsets.own⟩
  · intro o' ho'
    rcases List.mem_append.mp ho' with ho' | ho'
    · rw [hobject o' (h.subset o' ho')]
      exact h.edited o' ho'
    · cases List.mem_singleton.mp ho'
      rw [hobject o ho, hdata]
      rfl
  · intro o' ho' hnot
    rw [hobject o' ho']
    exact h.kept o' ho' fun hmem ↦ hnot (List.mem_append_left _ hmem)
  · intro o' ho' hnot
    rw [hbackup o' ho' fun heq ↦ hnot (heq ▸ List.mem_append_right _ (List.mem_singleton_self _))]
    exact h.clean o' ho' fun hmem ↦ hnot (List.mem_append_left _ hmem)

/-- An object file that was backed up is edited. -/
theorem edit (h : Underway objects t done t') (hapart : AreApart t.home objects) {o : Path}
    (ho : o ∈ done) {data : Bytes} (hsets : FileTree.Sets t' t'' o (some data)) :
    Underway objects t done t'' := by
  have hhome := h.home
  have hmem := h.subset o ho
  have hobject : ∀ o' ∈ objects, o' ≠ o → t''.read? o' = t'.read? o' := by
    intro o' ho' hne
    refine hsets.others o' ?_
    rw [hhome]
    exact hapart.location_ne ho' hmem hne
  have hbackup : ∀ o' ∈ objects, t''.read? (pathOf o') = t'.read? (pathOf o') := by
    intro o' ho'
    refine hsets.others (pathOf o') ?_
    rw [hhome]
    exact hapart.backups o' ho' o hmem
  refine ⟨hsets.home.trans hhome, hsets.isTree, h.subset, h.nodup, ?_, ?_, ?_, ?_⟩
  · intro o' ho'
    rw [hbackup o' (h.subset o' ho')]
    exact h.saved o' ho'
  · intro o' ho'
    by_cases heq : o' = o
    · rw [heq, hsets.own]
      rfl
    · rw [hobject o' (h.subset o' ho') heq]
      exact h.edited o' ho'
  · intro o' ho' hnot
    rw [hobject o' ho' fun heq ↦ hnot (heq ▸ ho)]
    exact h.kept o' ho' hnot
  · intro o' ho' hnot
    rw [hbackup o' ho']
    exact h.clean o' ho' hnot

/-- Putting back an object file that was backed up works, and leaves it as it was. -/
theorem putBack {o : Path} (h : Underway objects t (o :: done) t')
    (hapart : AreApart t.home objects) :
    ∃ t'', t'.rename? (pathOf o) o = some t'' ∧ Underway objects t done t'' := by
  have hhome := h.home
  have hmem := h.subset o (List.mem_cons_self ..)
  have hsubset : ∀ o' ∈ done, o' ∈ objects := fun o' ho' ↦ h.subset o' (List.mem_cons_of_mem _ ho')
  obtain ⟨hfresh, hnodup⟩ := List.nodup_cons.mp h.nodup
  obtain ⟨data, hdata, hsaved⟩ := h.saved o (List.mem_cons_self ..)
  obtain ⟨old, hold⟩ := Option.isSome_iff_exists.mp (h.edited o (List.mem_cons_self ..))
  obtain ⟨t'', between, hrename, hdrop, hput⟩ := FileTree.sets_of_rename? h.isTree hsaved hold
    (hhome ▸ location_pathOf_ne t.home o)
  have hbetween : between.home = t.home := hdrop.home.trans hhome
  have hobject : ∀ o' ∈ objects, o' ≠ o → t''.read? o' = t'.read? o' := by
    intro o' ho' hne
    rw [hput.others o', hdrop.others o']
    · rw [hhome]
      exact (hapart.backups o hmem o' ho').symm
    · rw [hbetween]
      exact hapart.location_ne ho' hmem hne
  have hbackup : ∀ o' ∈ objects, o' ≠ o → t''.read? (pathOf o') = t'.read? (pathOf o') := by
    intro o' ho' hne
    rw [hput.others (pathOf o'), hdrop.others (pathOf o')]
    · rw [hhome]
      exact fun heq ↦ hapart.location_ne ho' hmem hne (location_eq_of_pathOf heq)
    · rw [hbetween]
      exact hapart.backups o' ho' o hmem
  have hgone : t''.read? (pathOf o) = none := by
    rw [hput.others (pathOf o)]
    · exact hdrop.own
    · rw [hbetween]
      exact location_pathOf_ne t.home o
  have hother : ∀ o' ∈ done, o' ≠ o := fun o' ho' heq ↦ hfresh (heq ▸ ho')
  refine ⟨t'', hrename, hput.home.trans hbetween, hput.isTree, hsubset, hnodup, ?_, ?_, ?_, ?_⟩
  · intro o' ho'
    rw [hbackup o' (hsubset o' ho') (hother o' ho')]
    exact h.saved o' (List.mem_cons_of_mem _ ho')
  · intro o' ho'
    rw [hobject o' (hsubset o' ho') (hother o' ho')]
    exact h.edited o' (List.mem_cons_of_mem _ ho')
  · intro o' ho' hnot
    by_cases heq : o' = o
    · rw [heq, hput.own, hdata]
    · rw [hobject o' ho' heq]
      exact h.kept o' ho' (by simp [heq, hnot])
  · intro o' ho' hnot
    by_cases heq : o' = o
    · exact .inl (heq ▸ hgone)
    · rw [hbackup o' ho' heq]
      exact h.clean o' ho' (by simp [heq, hnot])

end Underway
end Backup
namespace Files

/-- A change of the files that is refused leaves them alone. -/
theorem triple_change {P : FileTree → Prop} (f : FileTree → Option FileTree) :
    Triple P (change f) (fun _ t' ↦ ∃ t, P t ∧ f t = some t') P := by
  refine Triple.bind_get fun t ht ↦ ?_
  cases hf : f t with
  | none => exact Triple.throw fun _ hs ↦ hs ▸ ht
  | some t' => exact Triple.set fun _ _ ↦ ⟨t, ht, hf⟩

end Files

namespace Workshop

/-- A workshop with certain tools and files. -/
def IsWith (tools : Toolchain) (P : FileTree → Prop) (w : Workshop) : Prop :=
  w.toolchain = tools ∧ P w.files

variable {tools : Toolchain} {P S : FileTree → Prop} {α : Type}

theorem run_onFiles (act : FilesM α) (w : Workshop) :
    (onFiles act).run w = ((act.run w.files).1, { w with files := (act.run w.files).2 }) := rfl

/-- Work on the files of a workshop. -/
theorem triple_onFiles {act : FilesM α} {Q : α → FileTree → Prop} (h : Triple P act Q S) :
    Triple (IsWith tools P) (onFiles act) (fun a ↦ IsWith tools (Q a)) (IsWith tools S) := by
  intro w hw
  rw [run_onFiles]
  have hact := h w.files hw.2
  generalize act.run w.files = r at hact ⊢
  rcases r with ⟨_ | a, t⟩ <;> exact ⟨hw.1, hact⟩

/-- Work on cached tables changes no file. -/
theorem keeps_onObjects (act : FileTree → ExceptT Stop (StateM ObjectCache) α) :
    Keeps (IsWith tools P) (onObjects act) :=
  Keeps.of_run fun _ hw ↦ hw

theorem keeps_object (path : Path) : Keeps (IsWith tools P) (object path) :=
  (keeps_onObjects _).bind fun _ ↦ Keeps.pure _

end Workshop

namespace Stripping

variable {path : Path}

theorem keeps_path_edit {α : Type} (act : Coff.EditM α) : Keeps (·.path = path) (edit act) :=
  Keeps.of_run fun _ hs ↦ hs

theorem keeps_path_remove (raw : Coff.EditorSymbol) (name : String) :
    Keeps (·.path = path) (remove raw name) :=
  (keeps_path_edit _).bind fun _ ↦ Keeps.modify fun _ hs ↦ hs

theorem keeps_path_force (name : String) : Keeps (·.path = path) (force name) :=
  Keeps.modify fun _ hs ↦ hs

theorem keeps_path_stripKnown (registry : Registry) (recompiled : PathSet)
    (owners : SymbolOwners) : Keeps (·.path = path) (stripKnown registry recompiled owners) := by
  have hsymbol : ∀ raw, Keeps (·.path = path) (stripSymbol registry recompiled owners raw) := by
    intro raw
    unfold stripSymbol
    split
    · exact Keeps.pure _
    · refine Keeps.get.bind fun s ↦ ?_
      dsimp only
      split
      · exact Keeps.pure _
      · split
        · exact Keeps.pure _
        · split
          · split
            · exact (keeps_path_force _).bind fun _ ↦ keeps_path_remove _ _
            · split
              · exact keeps_path_remove _ _
              · exact Keeps.pure _
          · split
            · exact keeps_path_remove _ _
            · exact Keeps.pure _
  exact Keeps.get.bind fun _ ↦ (Keeps.lift _).bind fun _ ↦ (Keeps.forM fun raw _ ↦ hsymbol raw).bind
    fun _ ↦ (keeps_path_edit _).bind fun _ ↦ Keeps.pure _

theorem keeps_path_stripReferences (everywhere : List String) :
    Keeps (·.path = path) (stripReferences everywhere) := by
  refine Keeps.get.bind fun _ ↦ (Keeps.lift _).bind fun _ ↦ Keeps.forM fun raw _ ↦ ?_
  unfold stripReference
  split
  · exact Keeps.pure _
  · refine Keeps.get.bind fun s ↦ ?_
    split
    · exact Keeps.pure _
    · split
      · exact (keeps_path_remove _ _).bind fun _ ↦ keeps_path_force _
      · exact Keeps.pure _

theorem keeps_path_finish (registry : Registry) (strategy : RemovalStrategy) :
    Keeps (·.path = path) (finish registry strategy) := by
  have hempty : Keeps (·.path = path) (removeEmptied registry) := by
    refine Keeps.get.bind fun s ↦ ?_
    split
    · exact Keeps.pure _
    · refine (Keeps.lift _).bind fun plan ↦ ?_
      exact (Keeps.forM fun _ _ ↦ keeps_path_remove _ _).bind fun _ ↦
        Keeps.forM fun _ _ ↦ keeps_path_edit _
  refine hempty.bind fun _ ↦ ?_
  split
  · exact keeps_path_edit _
  · exact Keeps.pure _

end Stripping

namespace Stripped

open Backup

variable {objects done : List Path} {t : FileTree} {tools : Toolchain}

theorem run_inWorkshop {α : Type} (act : WorkshopM α) (r : StripRun) :
    (inWorkshop act).run r = ((act.run r.workshop).1, { r with workshop := (act.run r.workshop).2 }) :=
  rfl

/-- Work in the workshop while files are stripped. -/
theorem triple_inWorkshop {α : Type} {act : WorkshopM α} {P S : Workshop → Prop}
    {Q : α → Workshop → Prop} (h : Triple P act Q S) :
    Triple (fun r ↦ r.backedUp = done ∧ P r.workshop) (inWorkshop act)
      (fun a r ↦ r.backedUp = done ∧ Q a r.workshop)
      fun r ↦ r.backedUp = done ∧ S r.workshop := by
  intro r hr
  rw [run_inWorkshop]
  have hact := h r.workshop hr.2
  generalize act.run r.workshop = result at hact ⊢
  rcases result with ⟨_ | a, w⟩ <;> exact ⟨hr.1, hact⟩

/-- Files are stripped: some were backed up, and those may have been edited. -/
def IsUnderway (tools : Toolchain) (objects : List Path) (t : FileTree) (done : List Path)
    (r : StripRun) : Prop :=
  r.backedUp = done ∧ r.workshop.IsWith tools (Underway objects t done)

/-- Stripping stopped at a point from which everything can be put back. -/
def IsStopped (tools : Toolchain) (objects : List Path) (t : FileTree) (r : StripRun) : Prop :=
  r.workshop.IsWith tools (Underway objects t r.backedUp)

theorem IsUnderway.isStopped {r : StripRun} (h : IsUnderway tools objects t done r) :
    IsStopped tools objects t r := by
  obtain ⟨rfl, hr⟩ := h
  exact hr

/-- Starting a file backs it up, or stops at a point from which everything can be put back. -/
theorem triple_start (hapart : AreApart t.home objects) {path : Path} (hpath : path ∈ objects)
    (hnew : path ∉ done) (registry : Registry) (recompiled : PathSet) (owners : SymbolOwners)
    (strategy : RemovalStrategy) :
    Triple (IsUnderway tools objects t done) (start registry recompiled owners strategy path)
      (fun s r ↦ s.path = path ∧ IsUnderway tools objects t (done ++ [path]) r)
      (IsStopped tools objects t) := by
  have hmake : Triple (Underway objects t done) (Backup.make path)
      (fun _ ↦ Underway objects t (done ++ [path])) (Underway objects t done) := by
    refine Triple.bind (Files.triple_change _).inContext fun _ ↦ Triple.pure ?_
    rintro u ⟨t', ht', hcopy⟩
    exact ht'.backUp hapart hpath hnew hcopy
  have hstop : ∀ r, IsUnderway tools objects t (done ++ [path]) r → IsStopped tools objects t r :=
    fun _ h ↦ h.isStopped
  refine Triple.bind ((triple_inWorkshop (Workshop.triple_onFiles hmake)).mono (fun _ h ↦ h)
    (fun _ _ h ↦ h) fun _ h ↦ IsUnderway.isStopped h) fun _ ↦ ?_
  refine Triple.bind (R := fun _ ↦ IsUnderway tools objects t (done ++ [path])) (Triple.modify ?_)
    fun _ ↦ ?_
  · rintro r ⟨rfl, hr⟩
    exact ⟨rfl, hr⟩
  refine Triple.bind ((triple_inWorkshop (Workshop.keeps_object path)).mono (fun _ h ↦ h)
    (fun _ _ h ↦ h) hstop) fun table ↦ ?_
  refine Triple.bind_get fun r hr ↦ Triple.bind_lift (fun editor _ ↦ ?_) fun _ h ↦ hstop _ (h ▸ hr)
  have hknown : Keeps (·.path = path) (Stripping.stripKnown registry recompiled owners) :=
    Stripping.keeps_path_stripKnown registry recompiled owners
  split
  · next s hs => exact Triple.pure fun _ h ↦ ⟨hknown.run_eq rfl hs, h ▸ hr⟩
  · exact Triple.throw fun _ h ↦ hstop _ (h ▸ hr)

/-- Starting files one after another backs all of them up. -/
theorem triple_startEach (hapart : AreApart t.home objects) (registry : Registry)
    (recompiled : PathSet) (owners : SymbolOwners) (strategy : RemovalStrategy) {paths : List Path}
    (hpaths : ∀ path ∈ paths, path ∈ objects) (hnew : (done ++ paths).Nodup) :
    Triple (IsUnderway tools objects t done)
      (paths.mapM (start registry recompiled owners strategy))
      (fun ss r ↦ ss.map Stripping.path = paths ∧ IsUnderway tools objects t (done ++ paths) r)
      (IsStopped tools objects t) := by
  induction paths generalizing done with
  | nil =>
    refine Triple.pure fun r hr ↦ ⟨rfl, ?_⟩
    rwa [List.append_nil]
  | cons path paths ih =>
    rw [List.mapM_cons]
    have hfresh : path ∉ done := fun h ↦
      (List.nodup_append.mp hnew).2.2 path h path (List.mem_cons_self ..) rfl
    have hrest : Triple (IsUnderway tools objects t (done ++ [path])) _ _ _ :=
      ih (fun p hp ↦ hpaths p (List.mem_cons_of_mem _ hp)) (by rwa [List.append_assoc])
    refine Triple.bind (triple_start hapart (hpaths path (List.mem_cons_self ..)) hfresh registry
      recompiled owners strategy) fun s ↦ Triple.of_pre fun r ⟨hs, hr⟩ ↦ ?_
    refine Triple.bind (hrest.mono (fun _ h ↦ h ▸ hr) (fun _ _ h ↦ h) fun _ h ↦ h) fun ss ↦
      Triple.pure fun u hu ↦ ⟨by rw [List.map_cons, hs, hu.1], ?_⟩
    have := hu.2
    rwa [List.append_assoc] at this

/-- Spreading what was stripped changes no file, nor which file is edited. -/
theorem path_of_spread {everywhere : List String} {s s' : Stripping}
    (h : spread everywhere s = .ok s') : s'.path = s.path := by
  unfold spread at h
  split at h
  · next hrun =>
    cases h
    exact (Stripping.keeps_path_stripReferences everywhere).run_eq rfl hrun
  · cases h

/-- Finishing a file that was backed up edits it. -/
theorem triple_finish (hapart : AreApart t.home objects) {s : Stripping} (hs : s.path ∈ done)
    (registry : Registry) (strategy : RemovalStrategy) :
    Triple (IsUnderway tools objects t done) (finish registry strategy s)
      (fun _ ↦ IsUnderway tools objects t done) (IsUnderway tools objects t done) := by
  have hfinish : Keeps (·.path = s.path) (Stripping.finish registry strategy) :=
    Stripping.keeps_path_finish registry strategy
  unfold finish
  split
  · next s' hs' =>
    have hpath : s'.path = s.path := hfinish.run_eq rfl hs'
    have hsave : Triple (Underway objects t done) (s'.editor.save s'.path)
        (fun _ ↦ Underway objects t done) (Underway objects t done) := by
      refine Triple.inContext ((Files.triple_change _).mono (fun _ h ↦ h) ?_ fun _ h ↦ h)
      rintro _ u ⟨t', ht', hwrite⟩
      exact ht'.edit hapart hs (hpath ▸ FileTree.sets_of_write? ht'.isTree hwrite)
    exact Triple.bind (triple_inWorkshop (Workshop.triple_onFiles hsave)) fun _ ↦
      Triple.pure fun _ h ↦ h
  · exact Triple.throw fun _ h ↦ h

/-- Stripping files backs all of them up, or stops at a point from which everything can be put
back. -/
theorem triple_stripEach (hapart : AreApart t.home objects) (hnodup : objects.Nodup)
    (registry : Registry) (recompiled : PathSet) (owners : SymbolOwners)
    (strategy : RemovalStrategy) :
    Triple (IsUnderway tools objects t []) (stripEach registry recompiled owners strategy objects)
      (fun _ ↦ IsUnderway tools objects t objects)
      (IsStopped tools objects t) := by
  have hstop : ∀ r, IsUnderway tools objects t objects r → IsStopped tools objects t r :=
    fun _ h ↦ h.isStopped
  refine Triple.bind (triple_startEach hapart registry recompiled owners strategy
    (fun _ h ↦ h) hnodup) fun started ↦ Triple.of_pre fun r ⟨hpaths, hr⟩ ↦ ?_
  have hstarted : ∀ s ∈ started, s.path ∈ objects := by
    intro s hs
    rw [← hpaths]
    exact List.mem_map_of_mem hs
  have hfinish : ∀ spreaded : List Stripping, (∀ s ∈ spreaded, s.path ∈ objects) →
      Triple (· = r) (spreaded.mapM (finish registry strategy))
        (fun _ ↦ IsUnderway tools objects t objects) (IsStopped tools objects t) := by
    intro spreaded hspreaded
    have hkeeps : Keeps (IsUnderway tools objects t objects) (spreaded.mapM (finish registry strategy)) :=
      Keeps.mapM fun s hs ↦ triple_finish hapart (hspreaded s hs) registry strategy
    exact hkeeps.mono (fun _ h ↦ h ▸ hr) (fun _ _ h ↦ h) hstop
  dsimp only
  split
  · have hspread : Triple (· = r) (started.mapM fun s ↦
        (liftM (spread (started.flatMap fun s ↦ s.removed ++ s.forced) s) : RunM Stripping))
        (fun spreaded u ↦ (∀ s ∈ spreaded, s.path ∈ objects) ∧ u = r) (· = r) :=
      Triple.mapM fun s hs ↦ Triple.lift (fun _ s' hu hs' ↦ ⟨path_of_spread hs' ▸ hstarted s hs, hu⟩)
        fun _ hu ↦ hu
    refine Triple.bind (hspread.mono (fun _ h ↦ h) (fun _ _ h ↦ h) fun _ h ↦ hstop _ (h ▸ hr))
      fun spreaded ↦ Triple.of_pre fun u ⟨hspreaded, hu⟩ ↦ ?_
    subst hu
    exact hfinish spreaded hspreaded
  · exact hfinish started hstarted

theorem run_restoreEach_cons (object : Path) (rest : List Path) (w : Workshop) :
    (restoreEach (object :: rest)).run w
      = match (Workshop.onFiles (Backup.restore object)).run w with
        | (.ok (), w) => (restoreEach rest).run w
        | (.error stop, w) => (.error stop, ((restoreEach rest).run w).2) := by
  simp only [restoreEach, ExceptT.run, ExceptT.mk, bind, StateT.bind]
  rcases Workshop.onFiles (Backup.restore object) w with ⟨_ | a, w'⟩ <;> rfl

/-- Putting back every file that was backed up works, and leaves all files as they were. -/
theorem triple_restoreEach (hapart : AreApart t.home objects) (done : List Path) :
    Triple (Workshop.IsWith tools (Underway objects t done)) (restoreEach done)
      (fun _ ↦ Workshop.IsWith tools (Underway objects t [])) fun _ ↦ False := by
  induction done with
  | nil => exact Triple.pure fun _ h ↦ h
  | cons object rest ih =>
    intro w hw
    obtain ⟨t'', hrename, ht''⟩ := hw.2.putBack hapart
    have hrestore : (Workshop.onFiles (Backup.restore object)).run w
        = (.ok (), { w with files := t'' }) := by
      rw [Workshop.run_onFiles]
      unfold Backup.restore Files.change
      rw [run_inContext, run_bind, run_get]
      dsimp only
      rw [run_bind, run_lift, hrename]
      rfl
    rw [run_restoreEach_cons, hrestore]
    exact ih { w with files := t'' } ⟨hw.1, ht''⟩

theorem run_strip (registry : Registry) (recompiled : PathSet) (owners : SymbolOwners)
    (strategy : RemovalStrategy) (w : Workshop) :
    (strip registry recompiled owners strategy objects).run w
      = match (stripEach registry recompiled owners strategy objects).run ⟨w, []⟩ with
        | (.ok symbols, r) =>
          (.ok ⟨symbols.foldl (fun m e ↦ m.insert e.1 e.2) ∅, r.backedUp⟩, r.workshop)
        | (.error stop, r) =>
          match (restoreEach r.backedUp).run r.workshop with
          | (.ok (), w) => (.error stop, w)
          | (.error other, w) => (.error other, w) := rfl

/-- Stripping leaves every file backed up and perhaps edited, or all of them as they were. -/
theorem triple_strip (hapart : AreApart t.home objects) (hnodup : objects.Nodup)
    (registry : Registry) (recompiled : PathSet) (owners : SymbolOwners)
    (strategy : RemovalStrategy) :
    Triple (Workshop.IsWith tools (Underway objects t []))
      (strip registry recompiled owners strategy objects)
      (fun stripped w ↦ stripped.backedUp = objects ∧
        w.IsWith tools (Underway objects t objects))
      (Workshop.IsWith tools (Underway objects t [])) := by
  intro w hw
  have hstrip := triple_stripEach hapart hnodup registry recompiled owners strategy ⟨w, []⟩
    ⟨rfl, hw⟩
  rw [run_strip]
  generalize (stripEach registry recompiled owners strategy objects).run ⟨w, []⟩ = result at hstrip ⊢
  rcases result with ⟨stop | symbols, r⟩
  · have hrestore := triple_restoreEach hapart r.backedUp r.workshop hstrip
    dsimp only
    generalize (restoreEach r.backedUp).run r.workshop = restored at hrestore ⊢
    rcases restored with ⟨other | _, w'⟩
    · exact hrestore.elim
    · exact hrestore
  · exact hstrip

end Stripped

end LivePatch
