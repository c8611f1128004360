import LivePatch.Build.Changes
import LivePatch.Proofs.Paths

/-!
# What a changed file leads to

Which object files have to be compiled because files they depend on have changed, object file by
object file, and when that covers every changed file. Parts of a unity file whose own sources
changed stand for the whole unity file, so another file that the unity file depends on is lost on
its other parts when it changes at the same time.
-/

namespace LivePatch

/-- Whether a unity file is split by now. -/
def ChangeScan.isSplit (s : ChangeScan) (o : Path) : Bool :=
  (s.amalgamations.find? o).any Amalgamation.isSplit

namespace CompilandTable

variable {t : CompilandTable} {files : FileTree} {splits : Bool} {changed : List Path}
  {s : ChangeScan} {o p file : Path} {d : Dependency} {a : Amalgamation}

/-- The object file of the unity file that the unit of an object file is a part of. -/
def unity? (t : CompilandTable) (o : Path) : Option Path := (t.get? o).bind Compiland.amalgamation

/-- The parts of a unity file. -/
def partsOf (t : CompilandTable) (o : Path) : List Path :=
  ((t.amalgamations.find? o).map Amalgamation.parts).getD []

/-- What is compiled for an object file that depends on a changed file, depending on whether it is
that of a unity file which is split when its turn comes. -/
def standIns (t : CompilandTable) (splits : Bool) (changed : List Path) (isSplit : Bool)
    (o : Path) : List Path :=
  match t.unity? o with
  | some unity => if splits then [o] else [unity]
  | none =>
    match if splits then t.amalgamations.find? o else none with
    | none => [o]
    | some a =>
      if !(t.touchedParts a changed).isEmpty then t.touchedParts a changed
      else if isSplit then a.parts
      else [o]

/-- Whether a unity file is split when the turn comes to its object file: it was before, or one of
its parts had its turn already. -/
def isSplitAmong (t : CompilandTable) (objects : List Path) (o : Path) : Bool :=
  (t.amalgamations.find? o).any Amalgamation.isSplit
    || objects.any fun o' ↦ o'.compare o == .lt && (t.unity? o').any fun unity ↦ unity.same o

/-- The object files that depend on changed files. -/
def dependents (t : CompilandTable) (files : FileTree) : PathSet :=
  PathSet.ofList ((t.changedFiles files).flatMap fun e ↦ e.2.objects)

/-- An object file is compiled for one that depends on a changed file. -/
def StandsIn (t : CompilandTable) (files : FileTree) (splits : Bool) (p : Path) : Prop :=
  ∃ o ∈ (t.dependents files).toList, ∃ q ∈ t.standIns splits ((t.changedFiles files).map Prod.fst)
    (t.isSplitAmong (t.dependents files).toList o) o, q.same p = true

/-- Some object files cover a changed file for an object file that depends on it: they hold that
object file, or that of the unity file that it is a part of; or, for a unity file that may be split,
the part whose source the changed file is, or all parts. -/
def Covers (t : CompilandTable) (splits : Bool) (found : PathSet) (file o : Path) : Prop :=
  found.contains o = true ∨ (∃ unity, t.unity? o = some unity ∧ found.contains unity = true) ∨
    (splits = true ∧ (t.amalgamations.find? o).isSome = true ∧
      ((∃ part ∈ t.partsOf o, found.contains part = true ∧
          ∃ c, t.get? part = some c ∧ file.same c.source = true) ∨
        ∀ part ∈ t.partsOf o, found.contains part = true))

/-- A unity file is to be split, sources of parts of it changed, and a file that it depends on is
the source of none of its parts. -/
structure IsOvershadowed (t : CompilandTable) (splits : Bool) (changed : List Path)
    (file o : Path) : Prop where
  splits : splits = true
  apart : t.unity? o = none
  touched : ∃ a, t.amalgamations.find? o = some a ∧ t.touchedParts a changed ≠ []
  foreign : ∀ part ∈ t.partsOf o, ∀ c, t.get? part = some c → file.same c.source = false

/-! ### One object file after the other -/

/-- Looking for changes, behind some object files: the unity files are those of the table, split
when they were before or when a part was among these, and what was found stands in for these. -/
structure IsBehind (t : CompilandTable) (splits : Bool) (changed objects behind : List Path)
    (s : ChangeScan) : Prop where
  parts : ∀ o, (s.amalgamations.find? o).map Amalgamation.parts
    = (t.amalgamations.find? o).map Amalgamation.parts
  split : ∀ o, splits = true → (∀ o' ∈ behind, o'.same o = false) →
    (t.amalgamations.find? o).isSome = true →
    s.isSplit o = ((t.amalgamations.find? o).any Amalgamation.isSplit
      || behind.any fun o' ↦ (t.unity? o').any fun unity ↦ unity.same o)
  found : ∀ p, s.found.contains p = behind.any fun o ↦
    (t.standIns splits changed (t.isSplitAmong objects o) o).any fun q ↦ q.same p

theorem touchedParts_congr {a a' : Amalgamation} (h : a.parts = a'.parts) :
    t.touchedParts a changed = t.touchedParts a' changed := by
  rw [touchedParts, touchedParts, h]

/-- It matters of unity files only whether they are split. -/
theorem standIns_congr {isSplit isSplit' : Bool}
    (h : splits = true → (t.amalgamations.find? o).isSome = true → isSplit = isSplit') :
    t.standIns splits changed isSplit o = t.standIns splits changed isSplit' o := by
  unfold standIns
  cases t.unity? o with
  | some unity => rfl
  | none =>
    cases splits with
    | false => rfl
    | true =>
      rw [if_pos rfl]
      cases hunity : t.amalgamations.find? o with
      | none => rfl
      | some a => rw [h rfl (by rw [hunity]; rfl)]

/-- The paths in front of one in an ordered list are those in front of its place. -/
theorem any_before_eq {behind rest : List Path} {f : Path → Bool}
    (h : (behind ++ o :: rest).Pairwise fun p q ↦ p.compare q = .lt) :
    ((behind ++ o :: rest).any fun o' ↦ o'.compare o == .lt && f o') = behind.any f := by
  obtain ⟨-, hrest, hbehind⟩ := List.pairwise_append.mp h
  rw [Bool.eq_iff_iff, List.any_eq_true, List.any_eq_true]
  constructor
  · rintro ⟨o', ho', hf⟩
    obtain ⟨hlt, hf⟩ := Bool.and_eq_true_iff.mp hf
    rw [beq_iff_eq] at hlt
    rcases List.mem_append.mp ho' with ho' | ho'
    · exact ⟨o', ho', hf⟩
    · exfalso
      rcases List.mem_cons.mp ho' with rfl | ho'
      · rw [Path.compare_eq_iff.mpr (Path.same_refl o')] at hlt
        cases hlt
      · rw [Std.OrientedCmp.gt_of_lt (List.rel_of_pairwise_cons hrest ho')] at hlt
        cases hlt
  · rintro ⟨o', ho', hf⟩
    refine ⟨o', List.mem_append_left _ ho', ?_⟩
    rw [hbehind o' ho' o (List.mem_cons_self ..), hf]
    rfl

/-- What an object file adds to what is found. -/
theorem contains_resolveChange
    (hparts : (s.amalgamations.find? o).map Amalgamation.parts
      = (t.amalgamations.find? o).map Amalgamation.parts) (p : Path) :
    (t.resolveChange splits changed s o).found.contains p = (s.found.contains p
      || (t.standIns splits changed (s.isSplit o) o).any fun q ↦ q.same p) := by
  have hadd : ∀ q, (s.add q).found.contains p
      = (s.found.contains p || [q].any fun q ↦ q.same p) := by
    intro q
    rw [ChangeScan.add, PathSet.contains_add, Bool.or_comm]
    simp
  unfold resolveChange standIns
  rw [← unity?]
  cases t.unity? o with
  | some unity => cases splits <;> exact hadd _
  | none =>
    cases splits with
    | false => exact hadd o
    | true =>
      rcases hs : t.amalgamations.find? o with _ | a
      · rw [hs, Option.map_none, Option.map_eq_none_iff] at hparts
        rw [if_pos rfl, if_pos rfl, hparts]
        exact hadd o
      · rw [hs, Option.map_some, Option.map_eq_some_iff] at hparts
        obtain ⟨a', ha', hparts⟩ := hparts
        rw [if_pos rfl, if_pos rfl, ha']
        dsimp only
        rw [touchedParts_congr hparts, ChangeScan.isSplit, ha', Option.any_some]
        split
        · exact PathSet.contains_addAll _ _ _
        · split
          · rw [hparts]
            exact PathSet.contains_addAll _ _ _
          · exact hadd o

theorem find?_split (s : ChangeScan) (unity q : Path) :
    (s.split unity).amalgamations.find? q
      = (s.amalgamations.find? q).map fun a ↦ { a with isSplit := a.isSplit || unity.same q } := by
  rw [ChangeScan.split, PathMap.find?_modify]
  cases unity.same q <;> cases s.amalgamations.find? q <;> simp

/-- An object file splits the unity file that it is a part of, and none but its own besides. -/
theorem find?_resolveChange (t : CompilandTable) (splits : Bool) (changed : List Path)
    (s : ChangeScan) (o q : Path) :
    ((t.resolveChange splits changed s o).amalgamations.find? q).map Amalgamation.parts
        = (s.amalgamations.find? q).map Amalgamation.parts ∧
      (splits = true → o.same q = false → (s.amalgamations.find? q).isSome = true →
        (t.resolveChange splits changed s o).isSplit q
          = (s.isSplit q || (t.unity? o).any fun unity ↦ unity.same q)) := by
  unfold resolveChange ChangeScan.isSplit
  rw [← unity?]
  cases t.unity? o with
  | some unity =>
    cases splits with
    | false => exact ⟨rfl, nofun⟩
    | true =>
      simp only [if_true, ChangeScan.add, find?_split]
      cases s.amalgamations.find? q <;> simp
  | none =>
    simp only [Option.any_none, Bool.or_false]
    split
    · exact ⟨rfl, fun _ _ _ ↦ rfl⟩
    · split
      · simp only [ChangeScan.addAll, find?_split]
        refine ⟨?_, fun _ hother _ ↦ ?_⟩
        · cases s.amalgamations.find? q <;> rfl
        · rw [hother]
          cases s.amalgamations.find? q <;> simp
      · split
        · exact ⟨rfl, fun _ _ _ ↦ rfl⟩
        · exact ⟨rfl, fun _ _ _ ↦ rfl⟩

/-- Behind one object file more. -/
theorem IsBehind.snoc {objects behind rest : List Path}
    (h : t.IsBehind splits changed objects behind s) (hobjects : objects = behind ++ o :: rest)
    (hordered : objects.Pairwise fun p q ↦ p.compare q = .lt) :
    t.IsBehind splits changed objects (behind ++ [o]) (t.resolveChange splits changed s o) := by
  have hfind := find?_resolveChange t splits changed s o
  refine ⟨fun q ↦ (hfind q).1.trans (h.parts q), fun q hsplits hbehind hunity ↦ ?_, fun p ↦ ?_⟩
  · have hsome : (s.amalgamations.find? q).isSome = true := by
      rw [← Option.isSome_map, h.parts q, Option.isSome_map]
      exact hunity
    rw [(hfind q).2 hsplits (hbehind o (by simp)) hsome,
      h.split q hsplits (fun o' ho' ↦ hbehind o' (List.mem_append_left _ ho')) hunity,
      List.any_append, Bool.or_assoc]
    simp
  · rw [contains_resolveChange (h.parts o), h.found p, List.any_append]
    have hstandIns : t.standIns splits changed (s.isSplit o) o
        = t.standIns splits changed (t.isSplitAmong objects o) o := by
      refine standIns_congr fun hsplits hunity ↦ ?_
      rw [isSplitAmong, hobjects, any_before_eq (hobjects ▸ hordered)]
      refine h.split o hsplits (fun o' ho' ↦ ?_) hunity
      rw [hobjects] at hordered
      exact Path.not_same_of_lt ((List.pairwise_append.mp hordered).2.2 o' ho' o (by simp))
    rw [hstandIns, List.any_cons, List.any_nil, Bool.or_false]

/-- Behind all object files. -/
theorem IsBehind.foldl {objects : List Path}
    (hordered : objects.Pairwise fun p q ↦ p.compare q = .lt) {rest : List Path} :
    ∀ {behind : List Path} {s : ChangeScan}, t.IsBehind splits changed objects behind s →
      objects = behind ++ rest → t.IsBehind splits changed objects objects
        (rest.foldl (t.resolveChange splits changed) s) := by
  induction rest with
  | nil =>
    intro behind s h hobjects
    rw [List.append_nil] at hobjects
    exact hobjects ▸ h
  | cons o rest ih =>
    intro behind s h hobjects
    exact ih (h.snoc hobjects hordered) (by rw [hobjects, List.append_assoc, List.singleton_append])

/-! ### All changed files -/

/-- What is found is what stands in for an object file that depends on a changed file. -/
theorem contains_detectChanges (t : CompilandTable) (files : FileTree) (splits : Bool) (p : Path) :
    (t.detectChanges files splits).2.contains p = true ↔ t.StandsIn files splits p := by
  have hordered : (t.dependents files).toList.Pairwise fun p q ↦ p.compare q = .lt :=
    List.pairwise_map.mpr (PathSet.isOrdered_ofList _)
  have hstart : t.IsBehind splits ((t.changedFiles files).map Prod.fst)
      (t.dependents files).toList [] ⟨t.amalgamations, ∅⟩ := by
    refine ⟨fun _ ↦ rfl, fun o _ _ _ ↦ ?_, fun _ ↦ rfl⟩
    rw [List.any_nil, Bool.or_false]
    rfl
  have hend := (hstart.foldl hordered rfl).found p
  rw [detectChanges]
  refine (Bool.eq_iff_iff.mp hend).trans ?_
  simp only [List.any_eq_true, StandsIn]

/-- An object file that depends on a changed file. -/
theorem exists_mem_dependents (hfile : (file, d) ∈ t.changedFiles files) (ho : o ∈ d.objects) :
    ∃ o' ∈ (t.dependents files).toList, o'.same o = true := by
  rw [← PathSet.contains_iff, dependents, PathSet.contains_ofList, List.any_eq_true]
  exact ⟨o, List.mem_flatMap.mpr ⟨_, hfile, ho⟩, Path.same_refl o⟩

theorem unity?_congr (h : o.same p = true) : t.unity? o = t.unity? p := by
  rw [unity?, unity?, get?, get?, PathMap.find?_congr _ h]

/-- A unity file whose parts did not change themselves is compiled, or all of its parts are. -/
theorem standIns_of_untouched {isSplit : Bool} (hunity : t.unity? o = none)
    (ha : t.amalgamations.find? o = some a) (htouched : t.touchedParts a changed = []) :
    t.standIns true changed isSplit o = if isSplit then a.parts else [o] := by
  rw [standIns, hunity]
  dsimp only
  rw [if_pos rfl, ha]
  dsimp only
  rw [htouched]
  rfl

theorem standIns_of_touched {isSplit : Bool} (hunity : t.unity? o = none)
    (ha : t.amalgamations.find? o = some a) (htouched : t.touchedParts a changed ≠ []) :
    t.standIns true changed isSplit o = t.touchedParts a changed := by
  rw [standIns, hunity]
  dsimp only
  rw [if_pos rfl, ha]
  dsimp only
  rw [if_pos (by simpa using htouched)]

theorem partsOf_eq (h : t.amalgamations.find? o = some a) : t.partsOf o = a.parts := by
  rw [partsOf, h]
  rfl

/-- A part whose own source is among changed files is touched. -/
theorem mem_touchedParts {part : Path} {c : Compiland} (hpart : part ∈ a.parts)
    (hget : t.get? part = some c) (hsource : file.same c.source = true)
    (hchanged : file ∈ changed) : part ∈ t.touchedParts a changed := by
  refine List.mem_filter.mpr ⟨hpart, ?_⟩
  rw [hget, Option.any_some, List.any_eq_true]
  exact ⟨file, hchanged, hsource⟩

/-- What stands in for an object file covers a changed file that it depends on, unless parts of a
unity file overshadow it. -/
theorem covers_of_not_isOvershadowed {found : PathSet} {isSplit : Bool} (hchanged : file ∈ changed)
    (hfound : ∀ q ∈ t.standIns splits changed isSplit o, found.contains q = true)
    (h : ¬ t.IsOvershadowed splits changed file o) : t.Covers splits found file o := by
  cases hunity : t.unity? o with
  | some unity =>
    rw [standIns, hunity] at hfound
    cases splits with
    | true => exact .inl (hfound o (by simp))
    | false => exact .inr (.inl ⟨unity, hunity, hfound unity (by simp)⟩)
  | none =>
    cases splits with
    | false =>
      rw [standIns, hunity] at hfound
      exact .inl (hfound o (by simp))
    | true =>
      cases ha : t.amalgamations.find? o with
      | none =>
        rw [standIns, hunity] at hfound
        dsimp only at hfound
        rw [if_pos rfl, ha] at hfound
        exact .inl (hfound o (by simp))
      | some a =>
        by_cases htouched : t.touchedParts a changed = []
        · rw [standIns_of_untouched hunity ha htouched] at hfound
          cases isSplit with
          | false => exact .inl (hfound o (by simp))
          | true =>
            refine .inr (.inr ⟨rfl, by rw [ha]; rfl, .inr fun part hpart ↦ hfound part ?_⟩)
            rwa [partsOf_eq ha] at hpart
        · rw [standIns_of_touched hunity ha htouched] at hfound
          -- The parts that changed do not overshadow the file, so it is the source of one of them.
          have hown : ∃ part ∈ t.partsOf o,
              ∃ c, t.get? part = some c ∧ file.same c.source = true := by
            by_contra hnone
            refine h ⟨rfl, hunity, ⟨a, ha, htouched⟩, fun part hpart c hget ↦ ?_⟩
            rw [Bool.eq_false_iff]
            exact fun hsource ↦ hnone ⟨part, hpart, c, hget, hsource⟩
          obtain ⟨part, hpart, c, hget, hsource⟩ := hown
          refine .inr (.inr ⟨rfl, by rw [ha]; rfl, .inl ⟨part, hpart, ?_, c, hget, hsource⟩⟩)
          rw [partsOf_eq ha] at hpart
          exact hfound part (mem_touchedParts hpart hget hsource hchanged)

/-- An overshadowed file is covered by its object file or by all parts. -/
theorem IsOvershadowed.covers_iff {found : PathSet} (h : t.IsOvershadowed splits changed file o) :
    t.Covers splits found file o ↔
      found.contains o = true ∨ ∀ part ∈ t.partsOf o, found.contains part = true := by
  constructor
  · rintro (hself | ⟨unity, hunity, -⟩ | ⟨-, -, ⟨part, hpart, -, c, hget, hsource⟩ | hall⟩)
    · exact .inl hself
    · rw [h.apart] at hunity
      cases hunity
    · rw [h.foreign part hpart c hget] at hsource
      cases hsource
    · exact .inr hall
  · rintro (hself | hall)
    · exact .inl hself
    · obtain ⟨a, ha, -⟩ := h.touched
      exact .inr (.inr ⟨h.splits, by rw [ha]; rfl, .inr hall⟩)

theorem covers_congr {found : PathSet} (h : o.same p = true) :
    t.Covers splits found file o ↔ t.Covers splits found file p := by
  rw [Covers, Covers, unity?_congr h, partsOf, partsOf, PathMap.find?_congr _ h,
    PathMap.contains_congr _ h]

theorem isOvershadowed_congr (h : o.same p = true) :
    t.IsOvershadowed splits changed file o ↔ t.IsOvershadowed splits changed file p := by
  have hparts : t.partsOf o = t.partsOf p := by rw [partsOf, partsOf, PathMap.find?_congr _ h]
  constructor <;> rintro ⟨hsplits, hapart, htouched, hforeign⟩
  · rw [unity?_congr h] at hapart
    rw [PathMap.find?_congr _ h] at htouched
    exact ⟨hsplits, hapart, htouched, hparts ▸ hforeign⟩
  · rw [← unity?_congr h] at hapart
    rw [← PathMap.find?_congr _ h] at htouched
    exact ⟨hsplits, hapart, htouched, hparts ▸ hforeign⟩

/-- A changed file is covered for every object file that depends on it, unless that is the object
file of a unity file of which other parts changed themselves while the file is the source of none.
Then these parts are compiled alone, and the file is covered exactly if something else has the
unity file or all of its parts compiled. -/
theorem changed_file_is_covered_iff (hfile : (file, d) ∈ t.changedFiles files)
    (ho : o ∈ d.objects) :
    t.Covers splits (t.detectChanges files splits).2 file o ↔
      ¬ t.IsOvershadowed splits ((t.changedFiles files).map Prod.fst) file o ∨
        t.StandsIn files splits o ∨ ∀ part ∈ t.partsOf o, t.StandsIn files splits part := by
  have hchanged : file ∈ (t.changedFiles files).map Prod.fst := List.mem_map_of_mem hfile
  by_cases h : t.IsOvershadowed splits ((t.changedFiles files).map Prod.fst) file o
  · simp only [h.covers_iff, contains_detectChanges, h, not_true_eq_false, false_or]
  · refine iff_of_true ?_ (.inl h)
    obtain ⟨o', ho', hsame⟩ := exists_mem_dependents hfile ho
    rw [← covers_congr hsame]
    rw [← isOvershadowed_congr hsame] at h
    have hfound : ∀ q ∈ t.standIns splits ((t.changedFiles files).map Prod.fst)
        (t.isSplitAmong (t.dependents files).toList o') o',
        (t.detectChanges files splits).2.contains q = true := fun q hq ↦
      (contains_detectChanges t files splits q).mpr ⟨o', ho', q, hq, Path.same_refl q⟩
    exact covers_of_not_isOvershadowed hchanged hfound h

/-! A unity file with two parts and a header, and the times at which they were written. -/

namespace SharedHeader

/-- A unit of a source and an object file, which may be a part of the unity file. -/
def unit (source object : Path) (amalgamation : Option Path) : Compiland :=
  { Compiland.ofPaths source object with amalgamation, unique := 0 }

/-- The unity file depends on its parts and on the header. -/
def table : CompilandTable :=
  { CompilandTable.ofLists [unit ⟨"/u.cpp"⟩ ⟨"/u"⟩ none, unit ⟨"/p.cpp"⟩ ⟨"/p"⟩ (some ⟨"/u"⟩),
      unit ⟨"/q.cpp"⟩ ⟨"/q"⟩ (some ⟨"/u"⟩)]
      [(⟨"/p.cpp"⟩, ⟨"/u"⟩), (⟨"/q.cpp"⟩, ⟨"/u"⟩), (⟨"/h"⟩, ⟨"/u"⟩)] with
    amalgamations := PathMap.empty.insert ⟨"/u"⟩ ⟨[⟨"/p"⟩, ⟨"/q"⟩], false⟩ }

/-- The header, and the source of a part if that was written too. -/
def written (withPart : Bool) : FileTree :=
  { FileTree.empty with
    nodes := (["h"], .file #[] (.written 1))
      :: if withPart then [(["p.cpp"], .file #[] (.written 1))] else [] }

/-- What depends on the header. -/
def dependents : Dependency := ⟨none, [⟨"/u"⟩]⟩

/-- The files that changed. -/
def changedPaths (withPart : Bool) : List Path :=
  (table.changedFiles (written withPart)).map Prod.fst

theorem mem_changedFiles (withPart : Bool) :
    (⟨"/h"⟩, dependents) ∈ table.changedFiles (written withPart) := by
  revert withPart
  decide +kernel

end SharedHeader

/-- A header that changed alone has the unity file compiled. -/
theorem lone_header_is_covered :
    ((⟨"/h"⟩, SharedHeader.dependents)
          ∈ SharedHeader.table.changedFiles (SharedHeader.written false) ∧
        ⟨"/u"⟩ ∈ SharedHeader.dependents.objects) ∧
      SharedHeader.table.Covers true
        (SharedHeader.table.detectChanges (SharedHeader.written false) true).2 ⟨"/h"⟩ ⟨"/u"⟩ := by
  have hobject : ⟨"/u"⟩ ∈ SharedHeader.dependents.objects := by decide
  have htouched : (SharedHeader.table.amalgamations.find? ⟨"/u"⟩).map
      (SharedHeader.table.touchedParts · (SharedHeader.changedPaths false)) = some [] := by
    decide +kernel
  have hfile := SharedHeader.mem_changedFiles false
  refine ⟨⟨hfile, hobject⟩, (changed_file_is_covered_iff hfile hobject).mpr (.inl fun h ↦ ?_)⟩
  obtain ⟨a, ha, hne⟩ := h.touched
  rw [ha, Option.map_some, Option.some.injEq] at htouched
  exact hne htouched

/-- A header that changed along with the source of one part is lost on the other part. -/
theorem header_is_lost_beside_part :
    (⟨"/h"⟩, SharedHeader.dependents)
        ∈ SharedHeader.table.changedFiles (SharedHeader.written true) ∧
      ⟨"/u"⟩ ∈ SharedHeader.dependents.objects ∧
      ¬ SharedHeader.table.Covers true
        (SharedHeader.table.detectChanges (SharedHeader.written true) true).2 ⟨"/h"⟩ ⟨"/u"⟩ := by
  refine ⟨SharedHeader.mem_changedFiles true, by decide, ?_⟩
  have hforeign : (SharedHeader.table.partsOf ⟨"/u"⟩).all (fun part ↦
      (SharedHeader.table.get? part).all fun c ↦ !Path.same ⟨"/h"⟩ c.source) = true := by
    decide +kernel
  have hovershadowed :
      SharedHeader.table.IsOvershadowed true (SharedHeader.changedPaths true) ⟨"/h"⟩ ⟨"/u"⟩ := by
    refine ⟨rfl, by decide +kernel,
      ⟨⟨[⟨"/p"⟩, ⟨"/q"⟩], false⟩, by decide +kernel, by decide +kernel⟩,
      fun part hpart c hget ↦ ?_⟩
    have := List.all_eq_true.mp hforeign part hpart
    rw [hget] at this
    simpa using this
  rw [hovershadowed.covers_iff]
  decide +kernel

end CompilandTable
end LivePatch
