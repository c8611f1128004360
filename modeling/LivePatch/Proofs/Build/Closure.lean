import LivePatch.Build.Closure
import LivePatch.Proofs.Files.Tree
import LivePatch.Proofs.Objects.Symbols
import LivePatch.Proofs.Paths
import LivePatch.Proofs.Triple
import Mathlib.Logic.Relation
import Mathlib.Order.Bounds.Basic

/-!
# The closure of the recompiled files

The object files that a patch needs are the smallest set that contains the recompiled files and goes
with what its members need. They are found by a queue, and it makes no difference which file is taken
from it next.
-/

namespace LivePatch

namespace Workshop

variable {w : Workshop} {path path' : Path} {table table' : ObjectTable}

/-- The tables that asking for an object file comes to: those that were read before, or those in the
file. -/
def tableOf (w : Workshop) (path : Path) : Outcome ObjectTable :=
  match w.objects.get? path with
  | some cached => .ok cached.table
  | none => ObjectTable.load w.files path

/-- Tables that were read before are found under all names of the file. -/
theorem tableOf_of_cached {cached : CachedObject} (h : w.objects.get? path = some cached)
    (hsame : path.same path' = true) : w.tableOf path' = .ok cached.table := by
  have hget : w.objects.get? path' = some cached := (PathMap.find?_congr _ hsame).symm.trans h
  unfold tableOf
  rw [hget]

/-- Asking for an object file leaves the tables of all others alone. -/
theorem run_object (path : Path) (w : Workshop) : ∃ objects,
    (object path).run w = (w.tableOf path, { w with objects := objects }) ∧
      ∀ q, path.same q = false → objects.get? q = w.objects.get? q := by
  have hload : (object path).run w
      = (((ObjectCache.load w.files path).run w.objects).1.map CachedObject.table,
        { w with objects := ((ObjectCache.load w.files path).run w.objects).2 }) := by
    have hon : (onObjects fun files ↦ ObjectCache.load files path).run w
        = (((ObjectCache.load w.files path).run w.objects).1,
          { w with objects := ((ObjectCache.load w.files path).run w.objects).2 }) := rfl
    unfold object
    rw [run_bind, hon]
    rcases ((ObjectCache.load w.files path).run w.objects).1 with stop | cached <;> rfl
  rw [hload]
  refine ⟨_, Prod.ext ?_ rfl, ?_⟩
  · unfold tableOf ObjectCache.load
    rw [run_bind, run_get]
    dsimp only
    cases w.objects.get? path with
    | some cached => rfl
    | none =>
      dsimp only
      unfold ObjectCache.reload
      rw [run_bind, run_lift]
      cases ObjectTable.load w.files path <;> rfl
  · intro q hq
    unfold ObjectCache.load
    rw [run_bind, run_get]
    dsimp only
    cases w.objects.get? path with
    | some cached => rfl
    | none =>
      dsimp only
      unfold ObjectCache.reload
      rw [run_bind, run_lift]
      cases ObjectTable.load w.files path with
      | error stop => rfl
      | ok table =>
        change (w.objects.entries.insert path _).find? q = _
        rw [PathMap.find?_insert, hq]
        rfl

/-- The contents of a file do not depend on which of its names it is read under. -/
theorem contents_congr {files : FileTree} {data data' : Bytes} (h : path.same path' = true)
    (hdata : files.contents path = .ok data) (hdata' : files.contents path' = .ok data') :
    data = data' := by
  have hread : ∀ {p d}, files.contents p = .ok d →
      ∃ time, files.at? (p.location files.home) = some (.file d time) := by
    intro p d hd
    obtain ⟨node, hnode, hd⟩ := Outcome.bind_eq_ok_iff.mp hd
    rw [Outcome.inContext_eq_ok_iff, Outcome.orFail_eq_ok_iff] at hnode
    obtain ⟨l, hl, hnode⟩ := Option.bind_eq_some_iff.mp hnode
    rw [FileTree.locate?_eq hl] at hnode
    cases node with
    | file bytes time =>
      cases hd
      exact ⟨time, hnode⟩
    | directory time => cases hd
  obtain ⟨time, hfile⟩ := hread hdata
  obtain ⟨time', hfile'⟩ := hread hdata'
  rw [Path.location_congr _ h, hfile'] at hfile
  cases hfile
  rfl

/-- What an object file refers to and forces to be included does not depend on which of its names it
is asked for under. -/
theorem references_congr (h : path.same path' = true) (ht : w.tableOf path = .ok table)
    (ht' : w.tableOf path' = .ok table') :
    (∀ s ∈ table.undefined, ∃ s' ∈ table'.undefined, s'.name = s.name) ∧
      table.directives ⊆ table'.directives := by
  unfold tableOf at ht ht'
  have hcached : w.objects.get? path = w.objects.get? path' := PathMap.find?_congr _ h
  rw [hcached] at ht
  cases hget : w.objects.get? path' with
  | some cached =>
    rw [hget] at ht ht'
    cases ht
    cases ht'
    exact ⟨fun s hs ↦ ⟨s, hs, rfl⟩, List.Subset.refl _⟩
  | none =>
    rw [hget] at ht ht'
    obtain ⟨data, hdata, ht⟩ := Outcome.bind_eq_ok_iff.mp ht
    obtain ⟨data', hdata', ht'⟩ := Outcome.bind_eq_ok_iff.mp ht'
    rw [Outcome.inContext_eq_ok_iff] at ht ht'
    rw [← contents_congr h hdata hdata'] at ht'
    exact ObjectTable.references_congr ht ht'

end Workshop

namespace Closure

/-- Finding the owners of symbols keeps what reading object files keeps. -/
theorem keeps_symbolOwners {I : Workshop → Prop} (t : CompilandTable) (recompiled : PathSet)
    (h : ∀ {α : Type} (act : FileTree → ExceptT Stop (StateM ObjectCache) α),
      Keeps I (Workshop.onObjects act)) : Keeps I (symbolOwners t recompiled) := by
  refine Keeps.bind ((h _).bind fun loaded ↦ Keeps.filterMapM fun o _ ↦ ?_) fun _ ↦ Keeps.pure _
  rcases o with ⟨path, (_ | _) | cached⟩
  · exact Keeps.pure _
  · exact Keeps.throw _
  · exact Keeps.pure _

/-- Following what object files need keeps what loading them keeps. -/
theorem keeps_needed {I : Workshop → Prop} (t : CompilandTable) (registry : Registry)
    (owners : SymbolOwners) (recompiled : PathSet) (h : ∀ path, Keeps I (Workshop.object path)) :
    Keeps I (needed t registry owners recompiled) := by
  have hfollow : ∀ fuel found queue, Keeps I (follow t registry owners fuel found queue) := by
    intro fuel
    induction fuel with
    | zero => exact fun _ _ ↦ Keeps.pure _
    | succ fuel ih =>
      intro found queue
      cases queue with
      | nil => exact Keeps.pure _
      | cons path queue => exact (h path).bind fun _ ↦ ih _ _
  exact hfollow _ _ _

section

variable (t : CompilandTable) (registry : Registry) (owners : SymbolOwners) (w : Workshop)

/-- A set of files, each under all of its names, that contains some files and goes with what its
members need: the owner of every undefined symbol that no loaded image has, and the creator of every
precompiled header that is forced to be included. -/
structure IsClosed (recompiled : PathSet) (S : Set Path) : Prop where
  names : ∀ {p q : Path}, p.same q = true → p ∈ S → q ∈ S
  contains : ∀ {p}, recompiled.contains p = true → p ∈ S
  owners : ∀ {p table s owner}, p ∈ S → w.tableOf p = .ok table → s ∈ table.undefined →
    registry.containsSymbol s.name = false → owners.lookup s.name = some owner → owner ∈ S
  headers : ∀ {p table symbol owner}, p ∈ S → w.tableOf p = .ok table →
    symbol ∈ table.includedSymbols → Names.isPrecompiledHeader symbol = true →
    t.headerOwner? symbol = some owner → owner ∈ S

/-- Files that were found to be needed, and those among them that were not looked into yet. -/
abbrev Gathering := PathSet × List Path

/-- One file is taken from the queue, whichever it is, and what it needs is added in any order. -/
inductive Step : Gathering → Gathering → Prop where
  | take {needed : PathSet} {queue rest wants : List Path} {path : Path} {table : ObjectTable}
      (hqueue : queue.Perm (path :: rest)) (htable : w.tableOf path = .ok table)
      (hwants : wants.Perm (wanted t registry owners table)) :
      Step (needed, queue) (enqueue (needed, rest) wants)

/-- The first file is taken from the queue. -/
inductive Next : Gathering → Gathering → Prop where
  | take {needed : PathSet} {queue : List Path} {path : Path} {table : ObjectTable}
      (htable : w.tableOf path = .ok table) :
      Next (needed, path :: queue) (enqueue (needed, queue) (wanted t registry owners table))

/-- Where gathering starts. -/
def start (recompiled : PathSet) : Gathering := (recompiled, recompiled.toList.reverse)

/-- Gathering comes to look into a file. -/
def Visits (recompiled : PathSet) (path : Path) : Prop :=
  ∃ needed queue, Relation.ReflTransGen (Next t registry owners w) (start recompiled)
    (needed, path :: queue)

end

section

variable {t : CompilandTable} {registry : Registry} {owners : SymbolOwners} {w : Workshop}
  {recompiled : PathSet} {g g' : Gathering} {table table' : ObjectTable} {p q : Path}

theorem Next.step (h : Next t registry owners w g g') : Step t registry owners w g g' := by
  obtain ⟨htable⟩ := h
  exact .take (List.Perm.refl _) htable (List.Perm.refl _)

/-- What an object file needs. -/
theorem mem_wanted_iff : q ∈ wanted t registry owners table ↔
    (∃ s ∈ table.undefined, registry.containsSymbol s.name = false ∧
      owners.lookup s.name = some q) ∨
    ∃ symbol ∈ table.includedSymbols, Names.isPrecompiledHeader symbol = true ∧
      t.headerOwner? symbol = some q := by
  unfold wanted
  rw [List.mem_append, List.mem_filterMap, List.mem_filterMap]
  refine or_congr (exists_congr fun s ↦ and_congr_right fun _ ↦ ?_) (exists_congr fun symbol ↦ ?_)
  · split
    · next h => simp [h]
    · next h => simp [Bool.not_eq_true _ ▸ h]
  · rw [List.mem_filter, and_assoc]

/-- A file that goes with what one needs under one of its names does under all of them. -/
theorem wanted_congr (h : p.same q = true) (ht : w.tableOf p = .ok table)
    (ht' : w.tableOf q = .ok table') :
    wanted t registry owners table ⊆ wanted t registry owners table' := by
  obtain ⟨hundefined, hdirectives⟩ := Workshop.references_congr h ht ht'
  intro r hr
  rw [mem_wanted_iff] at hr ⊢
  rcases hr with ⟨s, hs, hnew, howner⟩ | ⟨symbol, hsymbol, hheader⟩
  · obtain ⟨s', hs', hname⟩ := hundefined s hs
    exact Or.inl ⟨s', hs', hname ▸ hnew, hname ▸ howner⟩
  · obtain ⟨directive, hdirective, hincluded⟩ := List.mem_filterMap.mp hsymbol
    exact Or.inr ⟨symbol, List.mem_filterMap.mpr ⟨directive, hdirectives hdirective, hincluded⟩,
      hheader⟩

/-- A closed set has what its members need. -/
theorem IsClosed.mem_of_mem_wanted {S : Set Path} (hS : IsClosed t registry owners w recompiled S)
    (hp : p ∈ S) (ht : w.tableOf p = .ok table) (hq : q ∈ wanted t registry owners table) :
    q ∈ S := by
  rcases mem_wanted_iff.mp hq with ⟨s, hs, hnew, howner⟩ | ⟨symbol, hsymbol, hheader, howner⟩
  · exact hS.owners hp ht hs hnew howner
  · exact hS.headers hp ht hsymbol hheader howner

theorem isClosed_of_wanted {S : Set Path} (hnames : ∀ {p q : Path}, p.same q = true → p ∈ S → q ∈ S)
    (hcontains : ∀ {p}, recompiled.contains p = true → p ∈ S)
    (hwanted : ∀ {p table}, p ∈ S → w.tableOf p = .ok table →
      ∀ q ∈ wanted t registry owners table, q ∈ S) : IsClosed t registry owners w recompiled S where
  names := hnames
  contains := hcontains
  owners hp ht hs hnew howner :=
    hwanted hp ht _ (mem_wanted_iff.mpr (Or.inl ⟨_, hs, hnew, howner⟩))
  headers hp ht hsymbol hheader howner :=
    hwanted hp ht _ (mem_wanted_iff.mpr (Or.inr ⟨_, hsymbol, hheader, howner⟩))

/-- What is added is needed afterwards, and what was not needed before waits in the queue. -/
structure IsEnqueued (needed : PathSet) (queue wants : List Path) (g : Gathering) : Prop where
  ordered : needed.IsOrdered → g.1.IsOrdered
  contains : ∀ q, g.1.contains q = true ↔
    needed.contains q = true ∨ ∃ p ∈ wants, p.same q = true
  queued : ∃ new, g.2 = new ++ queue ∧ new ⊆ wants ∧
    (∀ p ∈ new, needed.contains p = false) ∧ new.Pairwise (fun p q ↦ p.same q = false) ∧
    ∀ q, g.1.contains q = true → needed.contains q = true ∨ ∃ p ∈ new, p.same q = true

theorem isEnqueued_enqueue (needed : PathSet) (queue wants : List Path) :
    IsEnqueued needed queue wants (enqueue (needed, queue) wants) := by
  induction wants generalizing needed queue with
  | nil =>
    exact ⟨id, by simp [enqueue], [], rfl, List.Subset.refl _, by simp, .nil, fun _ h ↦ Or.inl h⟩
  | cons p wants ih =>
    rw [enqueue]
    split
    · next hp =>
      obtain ⟨hordered, hcontains, new, hqueue, hsub, hnew, hpairs, hfound⟩ := ih needed queue
      refine ⟨hordered, fun q ↦ ?_, new, hqueue, List.subset_cons_of_subset _ hsub, hnew, hpairs,
        hfound⟩
      have hsame : p.same q = true → needed.contains q = true := fun h ↦
        needed.contains_congr h ▸ hp
      rw [hcontains, List.exists_mem_cons_iff, ← or_assoc, or_iff_left_of_imp hsame]
    · next hp =>
      obtain ⟨hordered, hcontains, new, hqueue, hsub, hnew, hpairs, hfound⟩ :=
        ih (needed.add p) (p :: queue)
      simp only [PathSet.contains_add, Bool.or_eq_true, Bool.or_eq_false_iff] at hcontains hnew hfound
      refine ⟨fun h ↦ hordered (PathSet.isOrdered_add h p), fun q ↦ ?_, new ++ [p], ?_, ?_, ?_, ?_,
        fun q hq ↦ ?_⟩
      · rw [hcontains, List.exists_mem_cons_iff, ← or_assoc, or_comm (a := p.same q = true)]
      · rw [hqueue, List.append_assoc, List.singleton_append]
      · refine List.append_subset.mpr ⟨List.subset_cons_of_subset _ hsub, ?_⟩
        exact List.cons_subset.mpr ⟨List.mem_cons_self, List.nil_subset _⟩
      · intro q hq
        rcases List.mem_append.mp hq with hq | hq
        · exact (hnew q hq).2
        · rw [List.mem_singleton.mp hq]
          exact Bool.eq_false_iff.mpr hp
      · refine List.pairwise_append.mpr ⟨hpairs, List.pairwise_singleton .., fun q hq r hr ↦ ?_⟩
        rw [List.mem_singleton.mp hr, Path.same_comm]
        exact (hnew q hq).1
      · rcases hfound q hq with (hsame | hneeded) | ⟨r, hr, hsame⟩
        · exact Or.inr ⟨p, List.mem_append_right _ (List.mem_singleton.mpr rfl), hsame⟩
        · exact Or.inl hneeded
        · exact Or.inr ⟨r, List.mem_append_left _ hr, hsame⟩

/-- What is known while gathering: the files found belong to every closed set, and what those need
that were looked into is found. -/
structure Gathers (t : CompilandTable) (registry : Registry) (owners : SymbolOwners) (w : Workshop)
    (recompiled : PathSet) (g : Gathering) : Prop where
  ordered : g.1.IsOrdered
  started : ∀ p, recompiled.contains p = true → g.1.contains p = true
  queued : ∀ p ∈ g.2, g.1.contains p = true
  distinct : g.2.Pairwise fun p q ↦ p.same q = false
  needed : ∀ S, IsClosed t registry owners w recompiled S → ∀ p, g.1.contains p = true → p ∈ S
  done : ∀ p, g.1.contains p = true → (∃ q ∈ g.2, q.same p = true) ∨ ∃ q table,
    q.same p = true ∧ w.tableOf q = .ok table ∧
      ∀ r ∈ wanted t registry owners table, g.1.contains r = true

theorem gathers_start (hr : recompiled.IsOrdered) :
    Gathers t registry owners w recompiled (start recompiled) where
  ordered := hr
  started _ hp := hp
  queued p hp := (PathSet.contains_iff _ p).mpr ⟨p, List.mem_reverse.mp hp, Path.same_refl p⟩
  distinct := List.pairwise_reverse.mpr ((PathSet.pairwise_toList hr).imp fun {p q} h ↦
    (Path.same_comm q p).trans h)
  needed _ hS _ hp := hS.contains hp
  done p hp := by
    obtain ⟨q, hq, hsame⟩ := (PathSet.contains_iff _ p).mp hp
    exact Or.inl ⟨q, List.mem_reverse.mpr hq, hsame⟩

/-- Looking into one file keeps what is known. -/
theorem Gathers.step (hg : Gathers t registry owners w recompiled g)
    (h : Step t registry owners w g g') : Gathers t registry owners w recompiled g' := by
  obtain @⟨needed, queue, rest, wants, path, table, hqueue, htable, hwants⟩ := h
  obtain ⟨hordered, hstarted, hqueued, hdistinct, hneeded, hdone⟩ := hg
  dsimp only at hordered hstarted hqueued hdistinct hneeded hdone
  obtain ⟨hordered', hcontains, new, hnew, hsub, hfresh, hpairs, hfound⟩ :=
    isEnqueued_enqueue needed rest wants
  have hpath : needed.contains path = true := hqueued path (hqueue.mem_iff.mpr List.mem_cons_self)
  have hrest : ∀ q ∈ rest, needed.contains q = true := fun q hq ↦
    hqueued q (hqueue.mem_iff.mpr (List.mem_cons_of_mem _ hq))
  have hkept : ∀ {q}, needed.contains q = true → (enqueue (needed, rest) wants).1.contains q = true :=
    fun hq ↦ (hcontains _).mpr (Or.inl hq)
  have hadded : ∀ q ∈ wants, (enqueue (needed, rest) wants).1.contains q = true := fun q hq ↦
    (hcontains q).mpr (Or.inr ⟨q, hq, Path.same_refl q⟩)
  refine ⟨hordered' hordered, fun q hq ↦ hkept (hstarted q hq), fun q hq ↦ ?_, ?_,
    fun S hS q hq ↦ ?_, fun q hq ↦ ?_⟩
  · rw [hnew] at hq
    rcases List.mem_append.mp hq with hq | hq
    · exact hadded q (hsub hq)
    · exact hkept (hrest q hq)
  · have hsymm : ∀ {p q : Path}, p.same q = false → q.same p = false := fun {p q} h ↦
      (Path.same_comm q p).trans h
    rw [hnew]
    refine List.pairwise_append.mpr
      ⟨hpairs, (List.pairwise_cons.mp ((hqueue.pairwise_iff hsymm).mp hdistinct)).2,
        fun p hp q hq ↦ ?_⟩
    by_contra hsame
    have hcontained := needed.contains_congr (Bool.not_eq_false _ ▸ hsame)
    rw [hfresh p hp, hrest q hq] at hcontained
    cases hcontained
  · rcases (hcontains q).mp hq with hq | ⟨p, hp, hsame⟩
    · exact hneeded S hS q hq
    · exact hS.names hsame
        (hS.mem_of_mem_wanted (hneeded S hS path hpath) htable (hwants.mem_iff.mp hp))
  · rcases hfound q hq with hq | ⟨p, hp, hsame⟩
    · rcases hdone q hq with ⟨p, hp, hsame⟩ | ⟨p, looked, hsame, hlooked, hall⟩
      · rcases List.mem_cons.mp (hqueue.mem_iff.mp hp) with rfl | hp
        · exact Or.inr ⟨p, table, hsame, htable, fun r hr ↦ hadded r (hwants.mem_iff.mpr hr)⟩
        · exact Or.inl ⟨p, hnew ▸ List.mem_append_right _ hp, hsame⟩
      · exact Or.inr ⟨p, looked, hsame, hlooked, fun r hr ↦ hkept (hall r hr)⟩
    · exact Or.inl ⟨p, hnew ▸ List.mem_append_left _ hp, hsame⟩

/-- What is known holds wherever gathering comes to. -/
theorem gathers_of_steps (hr : recompiled.IsOrdered)
    (h : Relation.ReflTransGen (Step t registry owners w) (start recompiled) g) :
    Gathers t registry owners w recompiled g := by
  induction h with
  | refl => exact gathers_start hr
  | tail _ hstep ih => exact ih.step hstep

/-- The files found are the smallest closed set when the queue is empty. -/
theorem Gathers.isLeast (hg : Gathers t registry owners w recompiled g) (hempty : g.2 = []) :
    IsLeast {S | IsClosed t registry owners w recompiled S} {p | g.1.contains p = true} := by
  have hlooked : ∀ {p table}, g.1.contains p = true → w.tableOf p = .ok table →
      ∀ q ∈ wanted t registry owners table, g.1.contains q = true := by
    intro p table hp htable q hq
    rcases hg.done p hp with ⟨r, hr, -⟩ | ⟨r, looked, hsame, hlooked, hall⟩
    · rw [hempty] at hr
      cases hr
    · exact hall q (wanted_congr (Path.same_comm r p ▸ hsame) htable hlooked hq)
  refine ⟨isClosed_of_wanted (fun hsame hp ↦ ?_) (hg.started _) hlooked, fun S hS p hp ↦
    hg.needed S hS p hp⟩
  exact (g.1.contains_congr hsame).symm.trans hp

/-- It makes no difference in which order files are looked into. -/
theorem Gathers.forall₂_toList (hg : Gathers t registry owners w recompiled g)
    (hg' : Gathers t registry owners w recompiled g') (hempty : g.2 = []) (hempty' : g'.2 = []) :
    List.Forall₂ (fun p q ↦ p.same q = true) g.1.toList g'.1.toList := by
  have hsets := (hg.isLeast hempty).unique (hg'.isLeast hempty')
  exact PathSet.forall₂_toList hg.ordered hg'.ordered fun q ↦
    Bool.eq_iff_iff.mpr (Set.ext_iff.mp hsets q)

/-! ### How many files there are to look into -/

/-- Files of a queue, and files that may still come into it. -/
def weight (paths : List Path) (g : Gathering) : Nat :=
  g.2.length + paths.countP fun p ↦ !g.1.contains p

theorem weight_enqueue_le {paths wants : List Path} (hknown : wants ⊆ paths) (g : Gathering) :
    weight paths (enqueue g wants) ≤ weight paths g := by
  obtain ⟨needed, queue⟩ := g
  induction wants generalizing needed queue with
  | nil => exact Nat.le_refl _
  | cons p wants ih =>
    obtain ⟨hp, hrest⟩ := List.cons_subset.mp hknown
    rw [enqueue]
    split
    · exact ih hrest needed queue
    · next hnew =>
      refine (ih hrest (needed.add p) (p :: queue)).trans ?_
      obtain ⟨before, after, rfl⟩ := List.append_of_mem hp
      have hless : ∀ l : List Path, (l.countP fun q ↦ !(needed.add p).contains q)
          ≤ l.countP fun q ↦ !needed.contains q := fun l ↦ List.countP_mono_left fun q _ hq ↦ by
        rw [PathSet.contains_add, Bool.not_or, Bool.and_eq_true] at hq
        exact hq.2
      have hbefore := hless before
      have hafter := hless after
      have hadded : (needed.add p).contains p = true := by
        rw [PathSet.contains_add, Path.same_refl, Bool.true_or]
      unfold weight
      simp only [List.countP_append, List.countP_cons, List.length_cons, hadded,
        Bool.eq_false_iff.mpr hnew, Bool.not_true, Bool.not_false, if_true, Bool.false_eq_true,
        if_false]
      omega

/-- The files that anything can be pulled in for. -/
def known (t : CompilandTable) (owners : SymbolOwners) : List Path :=
  owners.map Prod.snd ++ t.headerOwners.map Prod.snd

theorem wanted_subset (table : ObjectTable) :
    wanted t registry owners table ⊆ known t owners := by
  have hmem : ∀ {l : List (String × Path)} {name q}, l.lookup name = some q → q ∈ l.map Prod.snd := by
    intro l name q hq
    obtain ⟨before, after, rfl, -⟩ := List.lookup_eq_some_iff.mp hq
    exact List.mem_map.mpr ⟨(name, q), List.mem_append_right _ List.mem_cons_self, rfl⟩
  intro q hq
  rcases mem_wanted_iff.mp hq with ⟨_, -, -, howner⟩ | ⟨_, -, -, howner⟩
  · exact List.mem_append_left _ (hmem howner)
  · exact List.mem_append_right _ (hmem howner)

/-- Every file that is looked into is one less to look into, so gathering ends in any order. -/
theorem Step.weight_lt (h : Step t registry owners w g g') :
    weight (known t owners) g' < weight (known t owners) g := by
  obtain @⟨needed, queue, rest, wants, path, table, hqueue, htable, hwants⟩ := h
  have hsub : wants ⊆ known t owners := fun q hq ↦ wanted_subset table (hwants.mem_iff.mp hq)
  have hlength := hqueue.length_eq
  have hle := weight_enqueue_le hsub (needed, rest)
  unfold weight at hle ⊢
  dsimp only at hle ⊢
  rw [List.length_cons] at hlength
  omega

theorem weight_start_le (t : CompilandTable) (owners : SymbolOwners) (recompiled : PathSet) :
    weight (known t owners) (start recompiled)
      ≤ recompiled.size + owners.length + t.headerOwners.length := by
  have hcount := List.countP_le_length (p := fun q ↦ !recompiled.contains q) (l := known t owners)
  unfold known at hcount
  rw [List.length_append, List.length_map, List.length_map] at hcount
  unfold weight start known
  dsimp only
  rw [List.length_reverse, PathSet.toList, PathMap.keys, List.length_map, PathMap.size]
  omega

/-! ### The program -/

/-- Following the needs of files takes them from the queue until it is empty or one of them has no
table. The tables are those of the workshop that gathering started in, since no file is asked for
twice. -/
theorem run_follow {fuel : Nat} {needed : PathSet} {queue : List Path} {w' : Workshop}
    (hg : Gathers t registry owners w recompiled (needed, queue))
    (htables : ∀ q, q ∈ queue ∨ needed.contains q = false → w'.tableOf q = w.tableOf q)
    (hfuel : weight (known t owners) (needed, queue) ≤ fuel) :
    (∃ set w'', (follow t registry owners fuel needed queue).run w' = (.ok set, w'') ∧
      Relation.ReflTransGen (Next t registry owners w) (needed, queue) (set, [])) ∨
    ∃ stop w'' found path rest, (follow t registry owners fuel needed queue).run w' = (.error stop, w'') ∧
      Relation.ReflTransGen (Next t registry owners w) (needed, queue) (found, path :: rest) ∧
      w.tableOf path = .error stop := by
  induction fuel generalizing needed queue w' with
  | zero =>
    unfold weight at hfuel
    dsimp only at hfuel
    obtain rfl : queue = [] := List.length_eq_zero_iff.mp (by omega)
    exact Or.inl ⟨needed, w', rfl, .refl⟩
  | succ fuel ih =>
    rcases queue with _ | ⟨path, queue⟩
    · exact Or.inl ⟨needed, w', rfl, .refl⟩
    · obtain ⟨objects, hobject, hothers⟩ := Workshop.run_object path w'
      have htable : w'.tableOf path = w.tableOf path := htables path (Or.inl List.mem_cons_self)
      rw [follow, run_bind, hobject, htable]
      rcases hpath : w.tableOf path with stop | table
      · exact Or.inr ⟨stop, _, needed, path, queue, rfl, .refl, hpath⟩
      · dsimp only
        have hnext : Next t registry owners w (needed, path :: queue)
            (enqueue (needed, queue) (wanted t registry owners table)) := .take hpath
        have hnew := isEnqueued_enqueue needed queue (wanted t registry owners table)
        have hless := hnext.step.weight_lt
        have hg' := hg.step hnext.step
        generalize enqueue (needed, queue) (wanted t registry owners table) = g at hnext hnew hless hg' ⊢
        obtain ⟨needed', queue'⟩ := g
        have htables' : ∀ q, q ∈ queue' ∨ needed'.contains q = false →
            Workshop.tableOf { w' with objects := objects } q = w.tableOf q := by
          intro q hq
          have hbefore : (q ∈ path :: queue ∨ needed.contains q = false) ∧ path.same q = false := by
            have hfresh : needed.contains q = false → path.same q = false := fun hq ↦ by
              by_contra hsame
              rw [← needed.contains_congr (Bool.not_eq_false _ ▸ hsame),
                hg.queued path List.mem_cons_self] at hq
              cases hq
            obtain ⟨new, hqueue', -, hnot, -, -⟩ := hnew.queued
            change queue' = new ++ queue at hqueue'
            rcases hq with hq | hq
            · rcases List.mem_append.mp (show q ∈ new ++ queue from hqueue' ▸ hq) with hq | hq
              · exact ⟨Or.inr (hnot q hq), hfresh (hnot q hq)⟩
              · exact ⟨Or.inl (List.mem_cons_of_mem _ hq), (List.pairwise_cons.mp hg.distinct).1 q hq⟩
            · have hq' : needed.contains q = false := by
                by_contra hcontains
                rw [(hnew.contains q).mpr (Or.inl (Bool.not_eq_false _ ▸ hcontains))] at hq
                cases hq
              exact ⟨Or.inr hq', hfresh hq'⟩
          rw [← htables q hbefore.1]
          unfold Workshop.tableOf
          rw [hothers q hbefore.2]
        rcases ih hg' htables' (by omega) with ⟨set, w'', hrun, hsteps⟩ |
          ⟨stop, w'', found, stray, rest, hrun, hsteps, hstray⟩
        · exact Or.inl ⟨set, w'', hrun, .head hnext hsteps⟩
        · exact Or.inr ⟨stop, w'', found, stray, rest, hrun, .head hnext hsteps, hstray⟩

/-- What is needed stays needed, whatever following the needs of files comes to. -/
theorem contains_follow (fuel : Nat) (needed : PathSet) (queue : List Path) :
    Triple (fun _ ↦ True) (follow t registry owners fuel needed queue)
      (fun found _ ↦ ∀ q, needed.contains q = true → found.contains q = true) fun _ ↦ True := by
  induction fuel generalizing needed queue with
  | zero => exact Triple.pure fun _ _ _ h ↦ h
  | succ fuel ih =>
    cases queue with
    | nil => exact Triple.pure fun _ _ _ h ↦ h
    | cons path queue =>
      refine Keeps.triv_bind fun table ↦ (ih _ _).mono (fun _ h ↦ h) ?_ fun _ h ↦ h
      exact fun found _ hfound q hq ↦
        hfound q (((isEnqueued_enqueue needed queue _).contains q).mpr (.inl hq))

/-- Recompiled files are needed. -/
theorem contains_needed {set : PathSet} {w' : Workshop}
    (hrun : (Closure.needed t registry owners recompiled).run w = (.ok set, w')) {q : Path}
    (hq : recompiled.contains q = true) : set.contains q = true :=
  (contains_follow _ recompiled _).ok trivial hrun q hq

/-- If every object file that gathering comes to has tables, it ends with the smallest set that
contains the recompiled files and goes with what its members need. The set is in order without
duplicates, and no other order of looking into files ends with another one. -/
theorem gathering_finds_least_closure (hr : recompiled.IsOrdered)
    (hload : ∀ path, Visits t registry owners w recompiled path →
      ∃ table, w.tableOf path = .ok table) :
    ∃ set w', (needed t registry owners recompiled).run w = (.ok set, w') ∧
      IsLeast {S | IsClosed t registry owners w recompiled S} {p | set.contains p = true} ∧
      set.toList.Pairwise (fun p q ↦ p.compare q = .lt) ∧
      ∀ g, Relation.ReflTransGen (Step t registry owners w) (start recompiled) g → g.2 = [] →
        List.Forall₂ (fun p q ↦ p.same q = true) g.1.toList set.toList := by
  have htables : ∀ q, q ∈ (start recompiled).2 ∨ (start recompiled).1.contains q = false →
      w.tableOf q = w.tableOf q := fun _ _ ↦ rfl
  have hfuel := Nat.le_succ_of_le (weight_start_le t owners recompiled)
  rcases run_follow (gathers_start hr) htables hfuel with
    ⟨set, w', hrun, hsteps⟩ | ⟨stop, -, found, path, rest, -, hsteps, hstop⟩
  · have hset := gathers_of_steps hr (Relation.ReflTransGen.mono (fun _ _ h ↦ Next.step h) _ _ hsteps)
    exact ⟨set, w', hrun, hset.isLeast rfl, List.pairwise_map.mpr hset.ordered, fun g hg hempty ↦
      (gathers_of_steps hr hg).forall₂_toList hset hempty rfl⟩
  · obtain ⟨table, htable⟩ := hload path ⟨found, rest, hsteps⟩
    cases hstop.symm.trans htable

end

namespace Ring

def a : Path := ⟨"a.obj"⟩
def b : Path := ⟨"b.obj"⟩
def header : Path := ⟨"stdafx.obj"⟩

/-- The tables of an object file that refers to one symbol. -/
def tableWith (path : Path) (name : String) (directives : List String) : ObjectTable where
  path := path
  unique := 0
  symbols := [⟨0, name, none, 0, true, true, true, false, []⟩]
  directives := directives
  unpatchable := []

/-- The tables of two object files that refer to each other, of which one needs a header, and of the
header's creator. -/
def cache : ObjectCache where
  entries := ⟨[(a, ⟨0, tableWith a "g" []⟩), (b, ⟨1, tableWith b "f" ["/INCLUDE:__@@_PchSym_1"]⟩),
    (header, ⟨2, tableWith header "h" []⟩)]⟩
  readings := 3

def workshop : Workshop where
  files := .empty
  objects := cache
  toolchain := fun _ files ↦ (.error (.error Cause.system.toError), files)
  runs := []

def owners : SymbolOwners := [("f", a), ("g", b)]

def units : CompilandTable := { CompilandTable.empty with headerOwners := [("__@@_PchSym_1", header)] }

def recompiled : PathSet := PathSet.ofList [a]

def gathered : PathSet := PathSet.ofList [a, b, header]

theorem run_needed : ((needed units ⟨[]⟩ owners recompiled).run workshop).1 = .ok gathered := by
  rfl

/-- The files that are gathered have tables, and with them are those that they need. -/
theorem tableOf_gathered {p : Path} (hp : gathered.contains p = true) :
    ∃ table, workshop.tableOf p = .ok table ∧
      ∀ q ∈ wanted units ⟨[]⟩ owners table, gathered.contains q = true := by
  obtain ⟨q, hq, hsame⟩ := (PathSet.contains_iff _ p).mp hp
  have htoList : gathered.toList = [a, b, header] := rfl
  rw [htoList, List.mem_cons, List.mem_pair] at hq
  rcases hq with rfl | rfl | rfl
  · exact ⟨_, Workshop.tableOf_of_cached rfl hsame, by decide⟩
  · exact ⟨_, Workshop.tableOf_of_cached rfl hsame, by decide⟩
  · exact ⟨_, Workshop.tableOf_of_cached rfl hsame, by decide⟩

theorem isClosed_gathered :
    IsClosed units ⟨[]⟩ owners workshop recompiled {p | gathered.contains p = true} := by
  refine isClosed_of_wanted (fun hsame hp ↦ (gathered.contains_congr hsame).symm.trans hp)
    (fun {p} hp ↦ ?_) fun {p table} hp htable ↦ ?_
  · obtain ⟨q, hq, hsame⟩ := (PathSet.contains_iff _ p).mp hp
    have htoList : recompiled.toList = [a] := rfl
    rw [htoList, List.mem_singleton] at hq
    subst hq
    exact (PathSet.contains_iff _ p).mpr ⟨a, List.mem_cons_self, hsame⟩
  · obtain ⟨table', htable', hwanted⟩ := tableOf_gathered hp
    cases htable.symm.trans htable'
    exact hwanted

/-- Two object files that refer to each other are gathered with the creator of a header. -/
theorem gathering_follows_ring : recompiled.IsOrdered ∧
    (∀ path, Visits units ⟨[]⟩ owners workshop recompiled path →
      ∃ table, workshop.tableOf path = .ok table) ∧
    IsLeast {S | IsClosed units ⟨[]⟩ owners workshop recompiled S}
      {p | gathered.contains p = true} := by
  have hordered : recompiled.IsOrdered := PathSet.isOrdered_ofList [a]
  have hload : ∀ path, Visits units ⟨[]⟩ owners workshop recompiled path →
      ∃ table, workshop.tableOf path = .ok table := by
    rintro path ⟨found, queue, hsteps⟩
    have hknown := gathers_of_steps hordered
      (Relation.ReflTransGen.mono (fun _ _ h ↦ Next.step h) _ _ hsteps)
    obtain ⟨table, htable, -⟩ := tableOf_gathered
      (hknown.needed _ isClosed_gathered path (hknown.queued path List.mem_cons_self))
    exact ⟨table, htable⟩
  obtain ⟨set, w', hrun, hleast, -⟩ := gathering_finds_least_closure hordered hload
  have hset : set = gathered := Except.ok.inj ((congrArg Prod.fst hrun).symm.trans run_needed)
  exact ⟨hordered, hload, hset ▸ hleast⟩

end Ring

end Closure
end LivePatch
