import LivePatch.Files.Tree
import Mathlib.Data.List.Basic
import Mathlib.Tactic.Common

/-!
# Contents of files

What the operations on files do to the contents of others: nothing, unless both paths lead to one
location. In a tree every path to a file can be written to, and directories stay where they are.
-/

namespace LivePatch

/-- Where a step leads from a location, whatever lies there. -/
def Component.walk (l : Location) : Component → Location
  | .root | .here => l
  | .up => l.dropLast
  | .name n => l ++ [n]

namespace Path

/-- Where a segment leads from a location, whatever lies there. -/
def walk (l : Location) (s : List Char) : Location :=
  if isFiller s then l else if s = ['.', '.'] then l.dropLast else l ++ [String.ofList s]

/-- The only location that a path can lead to. -/
def location (home : Location) (p : Path) : Location :=
  p.segments.foldl walk (if p.text.toList.head? = some '/' then [] else home)

theorem walk_eq (l : Location) (s : List Char) :
    walk l s = (stepOf s).toList.foldl Component.walk l := by
  unfold walk stepOf
  split
  · rfl
  · split <;> rfl

theorem foldl_walk (l : Location) (ss : List (List Char)) :
    ss.foldl walk l = (ss.filterMap stepOf).foldl Component.walk l := by
  induction ss generalizing l with
  | nil => rfl
  | cons s ss ih =>
    rw [List.foldl_cons, ih, walk_eq, List.filterMap_cons]
    cases stepOf s <;> rfl

/-- Texts between slashes begin with what was read before. -/
theorem segmentsFrom_eq_cons (current cs : List Char) :
    ∃ more rest, segmentsFrom current cs = (current ++ more) :: rest := by
  induction cs generalizing current with
  | nil => exact ⟨[], [], by rw [segmentsFrom, List.append_nil]⟩
  | cons c cs ih =>
    unfold segmentsFrom
    split
    · cases ‹_ = []›
    · exact ⟨[], _, by rw [List.append_nil]⟩
    · next heq =>
      cases heq
      obtain ⟨more, rest, h⟩ := ih (current ++ [c])
      exact ⟨c :: more, rest, by rw [h, List.append_assoc, List.singleton_append]⟩

theorem stepOf_ne_root (s : List Char) : stepOf s ≠ some .root := by
  unfold stepOf
  split
  · exact fun h ↦ by cases h
  · split <;> exact fun h ↦ by cases h

/-- A first segment that is not empty leads where it would further back. -/
theorem firstStep_of_ne_nil {s : List Char} (hs : s ≠ []) (isOnly : Bool) (l : Location) :
    firstStep isOnly s ≠ some .root ∧
      (firstStep isOnly s).toList.foldl Component.walk l = walk l s := by
  unfold firstStep
  rw [if_neg hs]
  split
  · next hdot =>
    rw [hdot]
    exact ⟨(fun h ↦ by cases h), rfl⟩
  · exact ⟨stepOf_ne_root s, (walk_eq l s).symm⟩

/-- A path leads where its steps lead. -/
theorem location_eq (home : Location) (p : Path) : p.location home
    = p.components.foldl Component.walk (if p.components.head? = some .root then [] else home) := by
  unfold location components segments
  rcases p.text.toList with _ | ⟨c, cs⟩
  · rfl
  · by_cases hslash : c = '/'
    · subst hslash
      obtain ⟨more, rest, hcs⟩ := segmentsFrom_eq_cons [] cs
      have hsegments : segmentsFrom [] ('/' :: cs) = [] :: segmentsFrom [] cs := rfl
      rw [hsegments, hcs]
      exact foldl_walk [] _
    · have hsegments : segmentsFrom [] (c :: cs) = segmentsFrom [c] cs := by
        rw [segmentsFrom, List.nil_append]
        exact hslash
      obtain ⟨more, rest, hcs⟩ := segmentsFrom_eq_cons [c] cs
      rw [hsegments, hcs, List.head?_cons, if_neg fun h ↦ hslash (Option.some.inj h)]
      obtain ⟨hroot, hwalk⟩ := firstStep_of_ne_nil (s := [c] ++ more) (by simp) rest.isEmpty home
      dsimp only
      have hhead : ((firstStep rest.isEmpty ([c] ++ more)).toList ++ rest.filterMap stepOf).head?
          ≠ some .root := by
        cases hfirst : firstStep rest.isEmpty ([c] ++ more) with
        | none =>
          intro h
          obtain ⟨s, -, hs⟩ := List.mem_filterMap.mp (List.mem_of_head? h)
          exact stepOf_ne_root s hs
        | some step =>
          exact fun h ↦ hroot (hfirst.trans h)
      rw [if_neg hhead, List.foldl_append, hwalk, List.foldl_cons, foldl_walk]

/-- Paths that name the same file lead to one location. -/
theorem location_congr {p q : Path} (home : Location) (h : p.same q = true) :
    p.location home = q.location home := by
  rw [location_eq, location_eq, beq_iff_eq.mp h]

end Path

/-- What a node holds: the bytes of a file, none for a directory. -/
def FileNode.held : FileNode → Option Bytes
  | .file data _ => some data
  | .directory _ => none

@[simp] theorem FileNode.held_stamped (n : FileNode) (time : FileTime) :
    (n.stamped time).held = n.held := by
  cases n <;> rfl

namespace FileTree

variable {t t' : FileTree}

/-- What lies at a location, times apart. -/
def held? (t : FileTree) (l : Location) : Option (Option Bytes) := (t.at? l).map FileNode.held

theorem isDirectoryAt_iff {l : Location} : t.isDirectoryAt l = true ↔ t.held? l = some none := by
  unfold isDirectoryAt held?
  cases t.at? l with
  | none => simp
  | some n => cases n <;> simp [FileNode.isDirectory, FileNode.held]

theorem isSome_at? (t : FileTree) (l : Location) : (t.at? l).isSome = (t.held? l).isSome := by
  unfold held?
  cases t.at? l <;> rfl

/-- The root is a directory. -/
@[simp] theorem held?_root (t : FileTree) : t.held? [] = some none := rfl

theorem held?_of_ne_nil {l : Location} (h : l ≠ []) :
    t.held? l = (t.nodes.lookup l).map FileNode.held := by
  unfold held? at?
  rw [if_neg (by simpa using h)]

private theorem lookup_replaced (nodes : List (Location × FileNode)) {l m : Location}
    (n : FileNode) (h : m ≠ l) :
    (nodes.map fun e ↦ if e.1 == l then (l, n) else e).lookup m = nodes.lookup m := by
  induction nodes with
  | nil => rfl
  | cons e rest ih =>
    obtain ⟨k, v⟩ := e
    rw [List.map_cons]
    by_cases hk : k = l
    · rw [if_pos (by simpa using hk), List.lookup_cons, List.lookup_cons, hk,
        beq_eq_false_iff_ne.mpr h]
      exact ih
    · rw [if_neg (by simpa using hk), List.lookup_cons, List.lookup_cons, ih]

private theorem lookup_dropped (nodes : List (Location × FileNode)) (l m : Location) :
    (nodes.filter fun e ↦ e.1 != l).lookup m = if m = l then none else nodes.lookup m := by
  induction nodes with
  | nil => simp
  | cons e rest ih =>
    obtain ⟨k, v⟩ := e
    by_cases hk : k = l
    · rw [List.filter_cons_of_neg (by simpa using hk), ih, hk]
      by_cases hm : m = l
      · rw [if_pos hm, if_pos hm]
      · rw [if_neg hm, if_neg hm, List.lookup_cons, beq_eq_false_iff_ne.mpr hm]
    · rw [List.filter_cons_of_pos (by simpa using hk), List.lookup_cons, List.lookup_cons, ih]
      by_cases hm : m = l
      · rw [if_pos hm, if_pos hm, beq_eq_false_iff_ne.mpr fun h ↦ hk (h.symm.trans hm)]
      · rw [if_neg hm, if_neg hm]

/-- What was put somewhere lies there, and everything else where it was. -/
theorem held?_put {l : Location} (hl : l ≠ []) (n : FileNode) (m : Location) :
    (t.put l n).held? m = if m = l then some n.held else t.held? m := by
  by_cases hm : m = l
  · subst hm
    rw [if_pos rfl]
    unfold held?
    rw [at?_put_self t m n hl]
    rfl
  · rw [if_neg hm]
    rcases eq_or_ne m [] with rfl | hnil
    · rfl
    · rw [held?_of_ne_nil hnil, held?_of_ne_nil hnil]
      unfold put
      split
      · rw [lookup_replaced _ n hm]
      · rw [List.lookup_append, List.lookup_cons, beq_eq_false_iff_ne.mpr hm]
        simp

/-- What was taken away is gone, and everything else where it was. -/
theorem held?_drop {l : Location} (hl : l ≠ []) (m : Location) :
    (t.drop l).held? m = if m = l then none else t.held? m := by
  rcases eq_or_ne m [] with rfl | hnil
  · rw [if_neg hl.symm]
    rfl
  · rw [held?_of_ne_nil hnil, held?_of_ne_nil hnil]
    unfold drop
    rw [lookup_dropped]
    split <;> rfl

theorem home_put (t : FileTree) (l : Location) (n : FileNode) : (t.put l n).home = t.home := by
  unfold put
  split <;> rfl

/-- Stamping changes times only. -/
theorem held?_stampAt (t : FileTree) (l : Location) (time : FileTime) (m : Location) :
    (t.stampAt l time).held? m = t.held? m := by
  unfold stampAt
  split
  · cases m <;> rfl
  · next hl =>
    have hl : l ≠ [] := by simpa using hl
    split
    · next n hn =>
      rw [held?_put hl]
      split
      · next hm =>
        subst hm
        simp [held?, hn]
      · rfl
    · rfl

theorem home_stampAt (t : FileTree) (l : Location) (time : FileTime) :
    (t.stampAt l time).home = t.home := by
  unfold stampAt
  split
  · rfl
  · split
    · exact home_put _ _ _
    · rfl

/-- Counting a change changes times only. -/
theorem changedAt_same (t : FileTree) (locations : List Location) :
    (t.changedAt locations).home = t.home ∧ ∀ m, (t.changedAt locations).held? m = t.held? m := by
  have hall : ∀ (time : FileTime) (u : FileTree),
      (locations.foldl (fun u l ↦ u.stampAt l.dropLast time) u).home = u.home ∧
      ∀ m, (locations.foldl (fun u l ↦ u.stampAt l.dropLast time) u).held? m = u.held? m := by
    intro time
    induction locations with
    | nil => exact fun u ↦ ⟨rfl, fun _ ↦ rfl⟩
    | cons l rest ih =>
      intro u
      obtain ⟨hhome, hheld⟩ := ih (u.stampAt l.dropLast time)
      exact ⟨hhome.trans (home_stampAt ..), fun m ↦ (hheld m).trans (held?_stampAt ..)⟩
  exact hall t.now t

/-- Only what lies at one location became something else. -/
structure Replaces (t t' : FileTree) (l : Location) (held : Option (Option Bytes)) : Prop where
  home : t'.home = t.home
  held : ∀ m, t'.held? m = if m = l then held else t.held? m

theorem replaces_put {l : Location} (hl : l ≠ []) (n : FileNode) (locations : List Location) :
    Replaces t ((t.put l n).changedAt locations) l (some n.held) := by
  obtain ⟨hhome, hheld⟩ := changedAt_same (t.put l n) locations
  exact ⟨hhome.trans (home_put ..), fun m ↦ (hheld m).trans (held?_put hl n m)⟩

/-- Every location but the root lies in a directory, and under a name that a file can have. -/
structure IsTree (t : FileTree) : Prop where
  parent : ∀ l name, (t.held? (l ++ [name])).isSome → t.held? l = some none
  named : ∀ l name, (t.held? (l ++ [name])).isSome → isName name.toList = true

/-- A tree, by its nodes. -/
theorem isTree_of_forall (h : ∀ e ∈ t.nodes, t.held? e.1.dropLast = some none ∧
    ∀ name ∈ e.1.getLast?, isName name.toList = true) : t.IsTree := by
  have hnode : ∀ l name, (t.held? (l ++ [name])).isSome → ∃ n, (l ++ [name], n) ∈ t.nodes := by
    intro l name hheld
    rw [held?_of_ne_nil (by simp), Option.isSome_map] at hheld
    obtain ⟨n, hn⟩ := Option.isSome_iff_exists.mp hheld
    obtain ⟨before, after, hnodes, -⟩ := List.lookup_eq_some_iff.mp hn
    exact ⟨n, by rw [hnodes]; simp⟩
  constructor
  · intro l name hheld
    obtain ⟨n, hn⟩ := hnode l name hheld
    have := (h _ hn).1
    rwa [List.dropLast_concat] at this
  · intro l name hheld
    obtain ⟨n, hn⟩ := hnode l name hheld
    exact (h _ hn).2 name (by simp)

/-- A file that appears in a directory, changes or goes leaves a tree. -/
theorem Replaces.isTree {l : Location} {name : String} {data : Option Bytes}
    (h : Replaces t t' (l ++ [name]) (data.map some)) (ht : t.IsTree)
    (hdir : t.held? l = some none) (hname : isName name.toList = true)
    (hfile : t.held? (l ++ [name]) ≠ some none) : t'.IsTree := by
  have hdirs : ∀ m, t.held? m = some none → t'.held? m = some none := by
    intro m hm
    rw [h.held, if_neg fun heq : m = l ++ [name] ↦ hfile (heq ▸ hm)]
    exact hm
  have hold : ∀ m n, (t'.held? (m ++ [n])).isSome →
      m ++ [n] = l ++ [name] ∨ (t.held? (m ++ [n])).isSome := by
    intro m n hsome
    rw [h.held] at hsome
    split at hsome
    · next heq => exact .inl heq
    · exact .inr hsome
  constructor
  · intro m n hsome
    rcases hold m n hsome with heq | hsome
    · obtain ⟨rfl, -⟩ := List.append_inj' heq rfl
      exact hdirs m hdir
    · exact hdirs m (ht.parent m n hsome)
  · intro m n hsome
    rcases hold m n hsome with heq | hsome
    · obtain ⟨rfl, hn⟩ := List.append_inj' heq rfl
      cases hn
      exact hname
    · exact ht.named m n hsome

/-- A step leads where it leads in every tree. -/
theorem eq_of_step? {l m : Location} {s : List Char} (h : t.step? l s = some m) :
    t.held? l = some none ∧ m = Path.walk l s := by
  unfold step? at h
  split at h
  · cases h
  · next hdir =>
    refine ⟨isDirectoryAt_iff.mp (by simpa using hdir), ?_⟩
    unfold Path.walk
    split at h
    · next hfiller =>
      cases h
      rw [if_pos hfiller]
    · next hfiller =>
      rw [if_neg hfiller]
      split at h
      · next hup =>
        cases h
        rw [if_pos hup]
      · next hup =>
        rw [if_neg hup]
        dsimp only at h
        split at h
        · cases h
          rfl
        · cases h

theorem eq_of_follow? {l m : Location} {segments : List (List Char)}
    (h : t.follow? l segments = some m) : m = segments.foldl Path.walk l := by
  induction segments generalizing l with
  | nil =>
    cases h
    rfl
  | cons s rest ih =>
    obtain ⟨k, hk, h⟩ := Option.bind_eq_some_iff.mp h
    rw [List.foldl_cons, ← (eq_of_step? hk).2]
    exact ih h

theorem follow?_append (l : Location) (first second : List (List Char)) :
    t.follow? l (first ++ second) = (t.follow? l first).bind fun m ↦ t.follow? m second := by
  induction first generalizing l with
  | nil => rfl
  | cons s rest ih =>
    rw [List.cons_append, follow?, follow?, Option.bind_assoc]
    exact congrArg _ (funext fun m ↦ ih m)

/-- Where a path is found is where it leads. -/
theorem locate?_eq {p : Path} {l : Location} (h : t.locate? p = some l) :
    l = p.location t.home := by
  unfold locate? at h
  split at h
  · exact eq_of_follow? h
  · cases h

/-- A file that takes the place of what is no directory changes no other way. -/
theorem Replaces.follow? {k : Location} {data : Option Bytes} (h : Replaces t t' k (data.map some))
    (hk : t.held? k ≠ some none) {m : Location} (hm : m ≠ k) (l : Location)
    (segments : List (List Char)) :
    t'.follow? l segments = some m ↔ t.follow? l segments = some m := by
  have hdir : ∀ m, t'.isDirectoryAt m = t.isDirectoryAt m := by
    intro m
    rw [Bool.eq_iff_iff, isDirectoryAt_iff, isDirectoryAt_iff, h.held]
    split
    · next heq =>
      subst heq
      cases data <;> simp [hk]
    · rfl
  -- nothing is followed further from where a file lies
  have hends : ∀ u : FileTree, u.isDirectoryAt k = false → ∀ segs, u.follow? k segs ≠ some m := by
    intro u hu segs hsegs
    cases segs with
    | nil =>
      cases hsegs
      exact hm rfl
    | cons c segs =>
      obtain ⟨j, hj, -⟩ := Option.bind_eq_some_iff.mp hsegs
      unfold step? at hj
      rw [hu] at hj
      cases hj
  have hfile : t.isDirectoryAt k = false := Bool.eq_false_iff.mpr fun h ↦ hk (isDirectoryAt_iff.mp h)
  induction segments generalizing l with
  | nil => rfl
  | cons s rest ih =>
    unfold FileTree.follow? step?
    rw [hdir l]
    split
    · rfl
    · split
      · exact ih l
      · split
        · exact ih l.dropLast
        · dsimp only
          by_cases hnext : l ++ [String.ofList s] = k
          · have hnone : ∀ u : FileTree, u.isDirectoryAt k = false →
                ((if (u.at? k).isSome then some k else none).bind fun m ↦ u.follow? m rest)
                  ≠ some m := by
              intro u hu
              split
              · exact hends u hu rest
              · exact fun h ↦ by cases h
            rw [hnext]
            exact iff_of_false (hnone t' ((hdir k).trans hfile)) (hnone t hfile)
          · rw [isSome_at?, isSome_at?, h.held, if_neg hnext]
            split
            · exact ih _
            · rfl

/-- A path that a file can be created at: its last segment is a name, in a directory. -/
theorem place?_eq_some_iff {p : Path} {l : Location} :
    t.place? p = some l ↔ ∃ init last dir, canFollow p = true ∧ p.segments = init ++ [last] ∧
      t.follow? (t.start p) init = some dir ∧ isName last = true ∧ t.held? dir = some none ∧
        l = dir ++ [String.ofList last] := by
  unfold place?
  constructor
  · intro h
    obtain ⟨last, hlast, h⟩ := Option.bind_eq_some_iff.mp h
    obtain ⟨init, hsegments⟩ := List.getLast?_eq_some_iff.mp hlast
    dsimp only at h
    split at h
    · next hcan =>
      obtain ⟨dir, hdir, h⟩ := Option.bind_eq_some_iff.mp h
      rw [hsegments, List.dropLast_concat] at hdir
      split at h
      · next hname =>
        rw [Bool.and_eq_true] at hname
        cases h
        exact ⟨init, last, dir, hcan, hsegments, hdir, hname.1, isDirectoryAt_iff.mp hname.2, rfl⟩
      · cases h
    · cases h
  · rintro ⟨init, last, dir, hcan, hsegments, hdir, hname, hheld, rfl⟩
    simp [hsegments, hcan, hdir, hname, isDirectoryAt_iff.mpr hheld]

private theorem walk_of_isName {last : List Char} (h : isName last = true) (dir : Location) :
    Path.walk dir last = dir ++ [String.ofList last] := by
  unfold isName at h
  unfold Path.walk Path.isFiller
  simp only [Bool.and_eq_true, bne_iff_ne] at h
  simp [h]

/-- Where a path can be created is where it leads. -/
theorem place?_eq {p : Path} {l : Location} (h : t.place? p = some l) : l = p.location t.home := by
  obtain ⟨init, last, dir, -, hsegments, hdir, hname, -, rfl⟩ := place?_eq_some_iff.mp h
  unfold Path.location
  rw [hsegments, List.foldl_append, List.foldl_cons, List.foldl_nil, walk_of_isName hname]
  rw [eq_of_follow? hdir]
  rfl

/-- What lies where a path can be created is found there. -/
theorem locate?_of_place? {p : Path} {l : Location} (h : t.place? p = some l)
    (hl : (t.held? l).isSome) : t.locate? p = some l := by
  obtain ⟨init, last, dir, hcan, hsegments, hdir, hname, hheld, rfl⟩ := place?_eq_some_iff.mp h
  have hstep : t.step? dir last = some (dir ++ [String.ofList last]) := by
    have hwalk := walk_of_isName hname dir
    unfold isName at hname
    simp only [Bool.and_eq_true, bne_iff_ne] at hname
    unfold step? Path.isFiller
    rw [isDirectoryAt_iff.mpr hheld]
    simp [hname, isSome_at?, hl]
  unfold locate?
  rw [if_pos hcan, hsegments, follow?_append, hdir, Option.bind_some, follow?, hstep]
  rfl

private theorem segmentsFrom_ne_nil (current cs : List Char) :
    Path.segmentsFrom current cs ≠ [] := by
  induction cs generalizing current with
  | nil => simp [Path.segmentsFrom]
  | cons c cs ih =>
    unfold Path.segmentsFrom
    split
    · simp_all
    · simp
    · next heq =>
      cases heq
      exact ih _

/-- In a tree a path to a file is one that the file can be created at. -/
theorem IsTree.place?_of_locate? (ht : t.IsTree) {p : Path} {l : Location} {data : Bytes}
    (h : t.locate? p = some l) (hl : t.held? l = some (some data)) : t.place? p = some l := by
  unfold locate? at h
  split at h
  · next hcan =>
    obtain ⟨last, hlast⟩ := Option.isSome_iff_exists.mp
      (List.getLast?_isSome.mpr (segmentsFrom_ne_nil [] p.text.toList))
    obtain ⟨init, hsegments⟩ := List.getLast?_eq_some_iff.mp hlast
    have hsegments : p.segments = init ++ [last] := hsegments
    rw [hsegments, follow?_append] at h
    obtain ⟨dir, hdir, h⟩ := Option.bind_eq_some_iff.mp h
    obtain ⟨m, hstep, h⟩ := Option.bind_eq_some_iff.mp h
    cases h
    obtain ⟨hheld, rfl⟩ := eq_of_step? hstep
    have hwalk : Path.walk dir last = dir ++ [String.ofList last] := by
      unfold Path.walk at hl ⊢
      split at hl
      · rw [hheld] at hl
        cases hl
      · split at hl
        · rcases List.eq_nil_or_concat dir with rfl | ⟨d, n, rfl⟩
          · rw [List.dropLast_nil, held?_root] at hl
            cases hl
          · rw [List.concat_eq_append] at hheld hl
            rw [List.dropLast_concat, ht.parent d n (by rw [hheld]; rfl)] at hl
            cases hl
        · next hfiller hup => rw [if_neg hfiller, if_neg hup]
    have hname := ht.named dir (String.ofList last) (by rw [← hwalk, hl]; rfl)
    rw [String.toList_ofList] at hname
    exact place?_eq_some_iff.mpr ⟨init, last, dir, hcan, hsegments, hdir, hname, hheld, hwalk⟩
  · cases h

theorem read?_eq_some_iff {p : Path} {data : Bytes} :
    t.read? p = some data ↔ ∃ l, t.locate? p = some l ∧ t.held? l = some (some data) := by
  unfold read? node? held?
  cases t.locate? p with
  | none => simp
  | some l =>
    cases hat : t.at? l with
    | none => simp [hat]
    | some n => cases n <;> simp [hat, FileNode.held]

/-- What is read elsewhere stays. -/
theorem Replaces.read? {k : Location} {data : Option Bytes} (h : Replaces t t' k (data.map some))
    (hk : t.held? k ≠ some none) {q : Path} (hq : q.location t.home ≠ k) :
    t'.read? q = t.read? q := by
  have hlocate : ∀ l, l ≠ k → (t'.locate? q = some l ↔ t.locate? q = some l) := by
    intro l hl
    have hstart : t'.start q = t.start q := by
      unfold start
      rw [h.home]
    unfold locate?
    split
    · rw [hstart]
      exact h.follow? hk hl _ _
    · rfl
  refine Option.ext fun bytes ↦ ?_
  rw [read?_eq_some_iff, read?_eq_some_iff]
  constructor
  · rintro ⟨l, hl, hheld⟩
    have hne : l ≠ k := by rw [locate?_eq hl, h.home]; exact hq
    rw [h.held, if_neg hne] at hheld
    exact ⟨l, (hlocate l hne).mp hl, hheld⟩
  · rintro ⟨l, hl, hheld⟩
    have hne : l ≠ k := by rw [locate?_eq hl]; exact hq
    refine ⟨l, (hlocate l hne).mpr hl, ?_⟩
    rwa [h.held, if_neg hne]

/-- A path names other contents than before, and paths that lead elsewhere name what they did. -/
structure Sets (t t' : FileTree) (p : Path) (data : Option Bytes) : Prop where
  home : t'.home = t.home
  isTree : t'.IsTree
  own : t'.read? p = data
  others : ∀ q : Path, q.location t.home ≠ p.location t.home → t'.read? q = t.read? q

private theorem Replaces.place? {k : Location} {data : Option Bytes}
    (h : Replaces t t' k (data.map some)) (hk : t.held? k ≠ some none) {p : Path} {l : Location}
    (hp : t.place? p = some l) : t'.place? p = some l := by
  obtain ⟨init, last, dir, hcan, hsegments, hdir, hname, hheld, rfl⟩ := place?_eq_some_iff.mp hp
  have hne : dir ≠ k := fun heq ↦ hk (heq ▸ hheld)
  have hstart : t'.start p = t.start p := by
    unfold start
    rw [h.home]
  refine place?_eq_some_iff.mpr ⟨init, last, dir, hcan, hsegments, ?_, hname, ?_, rfl⟩
  · rw [hstart]
    exact (h.follow? hk hne _ _).mpr hdir
  · rw [h.held, if_neg hne]
    exact hheld

/-- Other contents at a place that a file can be created at. -/
theorem Replaces.sets {p : Path} {l : Location} {data : Option Bytes}
    (h : Replaces t t' l (data.map some)) (ht : t.IsTree) (hp : t.place? p = some l)
    (hl : t.held? l ≠ some none) : Sets t t' p data := by
  have hplace := h.place? hl hp
  have hown : t'.held? l = data.map some := by rw [h.held, if_pos rfl]
  refine ⟨h.home, ?_, ?_, fun q hq ↦ h.read? hl (place?_eq hp ▸ hq)⟩
  · obtain ⟨init, last, dir, -, -, -, hname, hheld, rfl⟩ := place?_eq_some_iff.mp hp
    exact h.isTree ht hheld (by rwa [String.toList_ofList]) hl
  · cases data with
    | some bytes =>
      exact read?_eq_some_iff.mpr ⟨l, locate?_of_place? hplace (by rw [hown]; rfl), hown⟩
    | none =>
      rw [Option.eq_none_iff_forall_ne_some]
      intro bytes hbytes
      obtain ⟨m, hm, hheld⟩ := read?_eq_some_iff.mp hbytes
      have heq : m = l := by rw [locate?_eq hm, h.home, ← place?_eq hp]
      rw [heq, hown] at hheld
      cases hheld

/-- What writing a file changes, in a tree or not. -/
theorem replaces_of_write? {p : Path} {data : Bytes} (h : t.write? p data = some t') :
    ∃ l, t.place? p = some l ∧ t.held? l ≠ some none ∧ Replaces t t' l ((some data).map some) := by
  obtain ⟨l, hl, h⟩ := Option.bind_eq_some_iff.mp h
  have hne : l ≠ [] := by
    obtain ⟨-, -, dir, -, -, -, -, -, rfl⟩ := place?_eq_some_iff.mp hl
    simp
  split at h
  · cases h
  · next hat =>
    cases h
    exact ⟨l, hl, by simp [held?, hat, FileNode.held], replaces_put hne (.file data t.now) []⟩
  · next hat =>
    cases h
    exact ⟨l, hl, by simp [held?, hat], replaces_put hne (.file data t.now) [l]⟩

/-- Writing a file sets its contents. -/
theorem sets_of_write? (ht : t.IsTree) {p : Path} {data : Bytes}
    (h : t.write? p data = some t') : Sets t t' p (some data) := by
  obtain ⟨l, hl, hfile, hreplaces⟩ := replaces_of_write? h
  exact hreplaces.sets ht hl hfile

/-- Copying a file sets the contents of the other path to those of the first. -/
theorem sets_of_copy? (ht : t.IsTree) {source target : Path} (h : t.copy? source target = some t') :
    ∃ data, t.read? source = some data ∧ Sets t t' target (some data) := by
  obtain ⟨data, hdata, h⟩ := Option.bind_eq_some_iff.mp h
  exact ⟨data, hdata, sets_of_write? ht h⟩

private theorem ne_nil_of_held? {l : Location} {data : Bytes} (h : t.held? l = some (some data)) :
    l ≠ [] := by
  rintro rfl
  rw [held?_root] at h
  cases h

private theorem replaces_drop {l : Location} (hl : l ≠ []) :
    Replaces t (t.drop l) l (none : Option Bytes) := ⟨rfl, held?_drop hl⟩

/-- What removing a file changes, in a tree or not. -/
theorem replaces_of_remove? {p : Path} (h : t.remove? p = some t') :
    ∃ l data, t.locate? p = some l ∧ t.held? l = some (some data) ∧
      Replaces t t' l ((none : Option Bytes).map some) := by
  obtain ⟨l, hl, h⟩ := Option.bind_eq_some_iff.mp h
  split at h
  · next data time hat =>
    cases h
    have hheld : t.held? l = some (some data) := by simp [held?, hat, FileNode.held]
    obtain ⟨hhome, hsame⟩ := changedAt_same (t.drop l) [l]
    exact ⟨l, data, hl, hheld,
      ⟨hhome, fun m ↦ (hsame m).trans (held?_drop (ne_nil_of_held? hheld) m)⟩⟩
  · cases h

/-- Removing a file sets its contents to none. -/
theorem sets_of_remove? (ht : t.IsTree) {p : Path} (h : t.remove? p = some t') :
    Sets t t' p none := by
  obtain ⟨l, data, hl, hheld, hreplaces⟩ := replaces_of_remove? h
  exact hreplaces.sets ht (ht.place?_of_locate? hl hheld) (by simp [hheld])

/-- What lies elsewhere is read as before when a file was written. -/
theorem read?_of_write? {p q : Path} {data : Bytes} (h : t.write? p data = some t')
    (hq : q.location t.home ≠ p.location t.home) : t'.read? q = t.read? q := by
  obtain ⟨l, hl, hfile, hreplaces⟩ := replaces_of_write? h
  exact hreplaces.read? hfile (place?_eq hl ▸ hq)

/-- What lies elsewhere is read as before when a file was removed. -/
theorem read?_of_remove? {p q : Path} (h : t.remove? p = some t')
    (hq : q.location t.home ≠ p.location t.home) : t'.read? q = t.read? q := by
  obtain ⟨l, data, hl, hheld, hreplaces⟩ := replaces_of_remove? h
  exact hreplaces.read? (by simp [hheld]) (locate?_eq hl ▸ hq)

/-- Moving a file that is there into the place of another one sets the contents of both. -/
theorem sets_of_rename? (ht : t.IsTree) {source target : Path} {data old : Bytes}
    (hsource : t.read? source = some data) (htarget : t.read? target = some old)
    (hne : source.location t.home ≠ target.location t.home) :
    ∃ t' between, t.rename? source target = some t' ∧ Sets t between source none ∧
      Sets between t' target (some data) := by
  obtain ⟨l, hl, hheld⟩ := read?_eq_some_iff.mp hsource
  obtain ⟨m, hm, hheld'⟩ := read?_eq_some_iff.mp htarget
  have hplace := ht.place?_of_locate? hl hheld
  have hplace' := ht.place?_of_locate? hm hheld'
  have hfile : ∃ time, t.at? l = some (.file data time) := by
    unfold held? at hheld
    obtain ⟨n, hn, hdata⟩ := Option.map_eq_some_iff.mp hheld
    cases n with
    | file bytes time =>
      cases hdata
      exact ⟨time, hn⟩
    | directory time => cases hdata
  obtain ⟨time, hat⟩ := hfile
  have hdir : t.isDirectoryAt m = false :=
    Bool.eq_false_iff.mpr fun h ↦ by simp [isDirectoryAt_iff.mp h] at hheld'
  have hlm : m ≠ l := by rw [locate?_eq hl, locate?_eq hm]; exact hne.symm
  have hdrop : Replaces t (t.drop l) l ((none : Option Bytes).map some) :=
    replaces_drop (ne_nil_of_held? hheld)
  have hstart := hdrop.sets ht hplace (by simp [hheld])
  refine ⟨((t.drop l).put m (.file data time)).changedAt [l, m], t.drop l, ?_, hstart, ?_⟩
  · unfold rename?
    simp [hl, hplace', hat, hdir]
  · refine (replaces_put (ne_nil_of_held? hheld') (.file data time) [l, m]).sets hstart.isTree
      (hdrop.place? (by simp [hheld]) hplace') ?_
    rw [hdrop.held, if_neg hlm, hheld']
    simp

end FileTree

namespace Path

/-- A suffix without slashes continues the last of the texts between slashes. -/
theorem segmentsFrom_append {suffix : List Char} (h : '/' ∉ suffix) (current cs : List Char) :
    ∃ init last, segmentsFrom current cs = init ++ [last] ∧
      segmentsFrom current (cs ++ suffix) = init ++ [last ++ suffix] := by
  induction cs generalizing current with
  | nil =>
    refine ⟨[], current, rfl, ?_⟩
    rw [List.nil_append]
    induction suffix generalizing current with
    | nil => simp [segmentsFrom]
    | cons c suffix ih =>
      obtain ⟨hc, hsuffix⟩ := List.ne_and_not_mem_of_not_mem_cons h
      rw [segmentsFrom, ih hsuffix]
      · simp
      · exact hc.symm
  | cons c cs ih =>
    by_cases hc : c = '/'
    · subst hc
      obtain ⟨init, last, hcs, happend⟩ := ih []
      exact ⟨current :: init, last, by rw [segmentsFrom, hcs]; rfl,
        by rw [List.cons_append, segmentsFrom, happend]; rfl⟩
    · obtain ⟨init, last, hcs, happend⟩ := ih (current ++ [c])
      refine ⟨init, last, ?_, ?_⟩
      · rwa [segmentsFrom]
        exact hc
      · rw [List.cons_append, segmentsFrom]
        · exact happend
        · exact hc

/-- A suffix without slashes belongs to the last segment of a path. -/
theorem location_append (home : Location) (p : Path) {suffix : String}
    (h : '/' ∉ suffix.toList) : ∃ dir last, p.location home = walk dir last ∧
      (p.append suffix).location home = walk dir (last ++ suffix.toList) := by
  obtain ⟨init, last, hsegments, happend⟩ := segmentsFrom_append h [] p.text.toList
  have htext : (p.append suffix).text.toList = p.text.toList ++ suffix.toList :=
    String.toList_append
  have hstart : (p.append suffix).text.toList.head? = some '/' ↔
      p.text.toList.head? = some '/' := by
    rw [htext]
    cases hp : p.text.toList with
    | nil =>
      rw [List.nil_append]
      exact iff_of_false (fun hs ↦ h (List.mem_of_head? hs)) (by simp)
    | cons c cs => simp
  unfold location segments
  rw [htext, happend, hsegments, ← htext]
  refine ⟨init.foldl walk (if p.text.toList.head? = some '/' then [] else home), last, ?_, ?_⟩
  · rw [List.foldl_append, List.foldl_cons, List.foldl_nil]
  · rw [List.foldl_append, List.foldl_cons, List.foldl_nil]
    simp only [hstart]

/-- What ends in a suffix of some length is the name of a file. -/
theorem location_append_of_long (home : Location) (p : Path) {suffix : String}
    (h : '/' ∉ suffix.toList) (hlong : 2 < suffix.toList.length) : ∃ dir last,
    p.location home = walk dir last ∧
      (p.append suffix).location home = dir ++ [String.ofList (last ++ suffix.toList)] := by
  obtain ⟨dir, last, hp, happend⟩ := p.location_append home h
  refine ⟨dir, last, hp, happend.trans ?_⟩
  have hlength : (last ++ suffix.toList).length = last.length + suffix.toList.length :=
    List.length_append
  unfold walk isFiller
  rw [if_neg, if_neg]
  · intro heq
    rw [heq] at hlength
    simp at hlength
    omega
  · rw [Bool.or_eq_true, beq_iff_eq, beq_iff_eq]
    rintro (heq | heq)
    · rw [heq] at hlength
      simp at hlength
      omega
    · rw [heq] at hlength
      simp at hlength
      omega

end Path
end LivePatch
