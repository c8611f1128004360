import LivePatch.Proofs.Ending
import LivePatch.Proofs.Paths
import LivePatch.Proofs.Session.Quiet

/-!
# What a session keeps account of

Which units a module has, which object files are to be compiled and which are to be linked. An
object file that has a unit and waits for either keeps waiting whatever compiling, linking and
loading come to, until a build that it takes part in has something to load; and a unit is marked as
recompiled exactly as long as its object file is to be linked.
-/

namespace LivePatch

namespace CompilandTable

variable {t : CompilandTable} {object : Path} {c : Compiland}

theorem get?_congr (t : CompilandTable) {p q : Path} (h : p.same q = true) : t.get? p = t.get? q :=
  t.units.find?_congr h

theorem get?_mark (t : CompilandTable) (object : Path) (recompiled : Bool) (o : Path) :
    (t.mark object recompiled).get? o = if object.same o
      then (t.get? o).map fun c ↦ { c with wasRecompiled := recompiled } else t.get? o :=
  t.units.find?_modify object _ o

theorem contains_mark (t : CompilandTable) (object : Path) (recompiled : Bool) (o : Path) :
    (t.mark object recompiled).contains o = t.contains o :=
  t.units.contains_modify object _ o

/-- Every unit is filed under its own object file, and none was recompiled. -/
def IsFresh (t : CompilandTable) : Prop :=
  ∀ object c, t.get? object = some c → c.object.same object = true ∧ c.wasRecompiled = false

theorem isFresh_empty : empty.IsFresh := fun _ _ h ↦ by cases h

theorem IsFresh.add (h : t.IsFresh) (hc : c.wasRecompiled = false) : (t.add c).IsFresh := by
  intro object c' hget
  rw [get?, CompilandTable.add, PathMap.find?_insert] at hget
  split at hget
  · next hsame =>
    cases hget
    exact ⟨hsame, hc⟩
  · exact h object c' hget

/-- Tables that are built from units which were not recompiled. -/
theorem isFresh_ofLists {units : List Compiland} (hunits : ∀ c ∈ units, c.wasRecompiled = false)
    (dependencies : List (Path × Path)) : (ofLists units dependencies).IsFresh := by
  have hadd : ∀ t : CompilandTable, t.IsFresh → (units.foldl CompilandTable.add t).IsFresh := by
    induction units with
    | nil => exact fun t ht ↦ ht
    | cons c units ih =>
      exact fun t ht ↦ ih (fun c' hc' ↦ hunits c' (List.mem_cons_of_mem c hc')) _
        (ht.add (hunits c (List.mem_cons_self ..)))
  have hdependencies : ∀ t : CompilandTable, t.IsFresh →
      (dependencies.foldl (fun t d ↦ t.addDependency d.1 d.2 none) t).IsFresh := by
    induction dependencies with
    | nil => exact fun t ht ↦ ht
    | cons d dependencies ih => exact fun t ht ↦ ih _ ht
  exact hdependencies _ (hadd _ isFresh_empty)

end CompilandTable

namespace CompileStages

/-- The units of all stages. -/
def units (s : CompileStages) : List Compiland :=
  s.headers ++ s.separate ++ s.last.map Prod.fst

theorem units_last (s : CompileStages) :
    s.last.map Prod.fst = s.shared.entries.flatMap Prod.snd ++ s.serial := by
  simp [last, List.map_flatMap, Function.comp_def]

/-- A unit is added to one stage. -/
theorem perm_add {s : CompileStages} (h : s.shared.IsOrdered) (c : Compiland) :
    (s.add c).units.Perm (c :: s.units) := by
  unfold add units
  simp only [units_last, List.append_assoc]
  have hinsert := h.perm_insert c.database c
  split
  · simp only [List.append_assoc, List.singleton_append]
    exact List.perm_middle
  · split
    · simp only [List.append_assoc, List.singleton_append]
      rw [← List.append_assoc, ← List.append_assoc s.headers]
      exact List.perm_middle
    · split
      · have hend := List.perm_append_singleton c
          (s.headers ++ s.separate ++ s.shared.entries.flatMap Prod.snd ++ s.serial)
        simpa only [List.append_assoc] using hend
      · rw [← List.append_assoc, ← List.append_assoc s.headers]
        refine ((hinsert.append_right s.serial).append_left _).trans ?_
        exact List.perm_middle

theorem isOrdered_add {s : CompileStages} (h : s.shared.IsOrdered) (c : Compiland) :
    (s.add c).shared.IsOrdered := by
  unfold add
  split
  · exact h
  · split
    · exact h
    · split
      · exact h
      · exact h.insert _ _

/-- Every unit is compiled in one stage. -/
theorem perm_ofUnits (units : List Compiland) : (ofUnits units).units.Perm units := by
  have hfold : ∀ s : CompileStages, s.shared.IsOrdered →
      (units.foldl add s).units.Perm (units ++ s.units) := by
    induction units with
    | nil => exact fun s _ ↦ List.Perm.refl _
    | cons c units ih =>
      intro s hs
      refine (ih _ (isOrdered_add hs c)).trans ?_
      exact ((perm_add hs c).append_left units).trans List.perm_middle
  have := hfold empty PathMap.isOrdered_empty
  rwa [show empty.units = [] from rfl, List.append_nil] at this

end CompileStages

/-- The account of a session. -/
structure Books where
  compilands : CompilandTable
  modified : PathSet
  pending : PathSet

/-- The account that a module has. -/
def LiveModule.books (m : LiveModule) : Books := ⟨m.compilands, m.modified, m.pending⟩

namespace Books

variable {b b' b'' : Books} {object o : Path}

/-- An object file waits to be compiled or to be linked. -/
def Awaits (b : Books) (o : Path) : Prop :=
  b.modified.contains o = true ∨ b.pending.contains o = true

/-- Units are filed under their object files, and they are marked as long as those are pending. -/
structure IsBalanced (b : Books) : Prop where
  own : ∀ o c, b.compilands.get? o = some c → c.object.same o = true
  marked : ∀ o c, b.compilands.get? o = some c →
    (c.wasRecompiled = true ↔ b.pending.contains o = true)
  ordered : b.modified.IsOrdered

/-- Books that belong to the same units, and in which what waited still waits. -/
structure Retains (b b' : Books) : Prop where
  balanced : b'.IsBalanced
  units : ∀ o, b'.compilands.contains o = b.compilands.contains o
  dependencies : b'.compilands.dependencies = b.compilands.dependencies
  awaits : ∀ o, b.compilands.contains o = true → b.Awaits o → b'.Awaits o

theorem Retains.refl (h : b.IsBalanced) : b.Retains b := ⟨h, fun _ ↦ rfl, rfl, fun _ _ h ↦ h⟩

theorem Retains.trans (h : b.Retains b') (h' : b'.Retains b'') : b.Retains b'' where
  balanced := h'.balanced
  units := fun o ↦ (h'.units o).trans (h.units o)
  dependencies := h'.dependencies.trans h.dependencies
  awaits := fun o hknown hawaits ↦
    h'.awaits o ((h.units o).trans hknown) (h.awaits o hknown hawaits)

/-- A unit was compiled. -/
def compiled (b : Books) (object : Path) : Books :=
  ⟨b.compilands.mark object true, b.modified.erase object, b.pending.add object⟩

/-- A unit failed to compile. -/
def failed (b : Books) (object : Path) : Books :=
  ⟨b.compilands.mark object false, b.modified, b.pending.erase object⟩

/-- An object file was built elsewhere. -/
def accepted (b : Books) (object : Path) : Books :=
  ⟨b.compilands.mark object true, b.modified, b.pending.add object⟩

/-- What was pending was linked. -/
def settled (b : Books) : Books :=
  ⟨b.pending.toList.foldl (fun t o ↦ t.mark o false) b.compilands, b.modified, ∅⟩

/-- The books behind a build that ended with an outcome. -/
def behind (b : Books) (outcome : CycleOutcome) : Books :=
  if outcome.isWithoutPatch then b else b.settled

/-- Marking a unit as its object file becomes pending, or ceases to be, keeps books balanced. -/
theorem IsBalanced.mark (h : b.IsBalanced) {recompiled : Bool} {modified pending : PathSet}
    (hmodified : modified.IsOrdered)
    (hpending : ∀ o, pending.contains o = if object.same o then recompiled else b.pending.contains o) :
    IsBalanced ⟨b.compilands.mark object recompiled, modified, pending⟩ := by
  refine ⟨fun o c hget ↦ ?_, fun o c hget ↦ ?_, hmodified⟩
  · rw [CompilandTable.get?_mark] at hget
    split at hget
    · obtain ⟨c', hget', rfl⟩ := Option.map_eq_some_iff.mp hget
      exact h.own o c' hget'
    · exact h.own o c hget
  · rw [CompilandTable.get?_mark] at hget
    change _ ↔ pending.contains o = true
    rw [hpending]
    split at hget
    · next hsame =>
      obtain ⟨c', -, rfl⟩ := Option.map_eq_some_iff.mp hget
      rw [if_pos hsame]
    · next hsame =>
      rw [if_neg hsame]
      exact h.marked o c hget

theorem retains_compiled (h : b.IsBalanced) (object : Path) : b.Retains (b.compiled object) where
  balanced := by
    refine h.mark (h.ordered.erase object) fun o ↦ ?_
    rw [PathSet.contains_add]
    cases object.same o <;> rfl
  units := b.compilands.contains_mark object true
  dependencies := rfl
  awaits := by
    rintro o - hawaits
    rw [Awaits, compiled, PathMap.contains_erase, PathSet.contains_add]
    rcases hawaits with hawaits | hawaits <;> cases object.same o <;> simp [hawaits]

theorem retains_accepted (h : b.IsBalanced) (object : Path) : b.Retains (b.accepted object) where
  balanced := by
    refine h.mark h.ordered fun o ↦ ?_
    rw [PathSet.contains_add]
    cases object.same o <;> rfl
  units := b.compilands.contains_mark object true
  dependencies := rfl
  awaits := by
    rintro o - hawaits
    rw [Awaits, accepted, PathSet.contains_add]
    rcases hawaits with hawaits | hawaits <;> simp [hawaits]

/-- A unit that failed is still to be compiled. -/
theorem retains_failed (h : b.IsBalanced) (hmodified : b.modified.contains object = true) :
    b.Retains (b.failed object) where
  balanced := by
    refine h.mark h.ordered fun o ↦ ?_
    rw [PathMap.contains_erase]
    cases object.same o <;> rfl
  units := b.compilands.contains_mark object false
  dependencies := rfl
  awaits := by
    rintro o - hawaits
    rw [Awaits, failed, PathMap.contains_erase]
    by_cases hsame : object.same o = true
    · rw [b.modified.contains_congr hsame] at hmodified
      exact .inl hmodified
    · simpa [hsame, Awaits] using hawaits

theorem get?_unmarked (t : CompilandTable) (objects : List Path) (o : Path) :
    (objects.foldl (fun t o ↦ t.mark o false) t).get? o =
      (t.get? o).map fun c ↦ if objects.any fun p ↦ p.same o
        then { c with wasRecompiled := false } else c := by
  induction objects generalizing t with
  | nil => simp
  | cons object objects ih =>
    rw [List.foldl_cons, ih, CompilandTable.get?_mark, List.any_cons]
    cases object.same o with
    | false => simp
    | true =>
      rw [if_pos rfl, Option.map_map]
      congr 1
      funext c
      simp only [Function.comp_apply, Bool.true_or, if_true]
      split <;> rfl

theorem contains_unmarked (t : CompilandTable) (objects : List Path) (o : Path) :
    (objects.foldl (fun t o ↦ t.mark o false) t).contains o = t.contains o := by
  induction objects generalizing t with
  | nil => rfl
  | cons object objects ih => rw [List.foldl_cons, ih, CompilandTable.contains_mark]

theorem dependencies_unmarked (t : CompilandTable) (objects : List Path) :
    (objects.foldl (fun t o ↦ t.mark o false) t).dependencies = t.dependencies := by
  induction objects generalizing t with
  | nil => rfl
  | cons object objects ih => rw [List.foldl_cons, ih]; rfl

/-- Behind a link nothing is pending, and no unit is marked. -/
theorem IsBalanced.settled (h : b.IsBalanced) : b.settled.IsBalanced := by
  refine ⟨fun o c hget ↦ ?_, fun o c hget ↦ ?_, h.ordered⟩
  · rw [Books.settled, get?_unmarked] at hget
    obtain ⟨c', hget', rfl⟩ := Option.map_eq_some_iff.mp hget
    have := h.own o c' hget'
    split <;> exact this
  · rw [Books.settled, get?_unmarked] at hget
    obtain ⟨c', hget', rfl⟩ := Option.map_eq_some_iff.mp hget
    have hmarked := h.marked o c' hget'
    change _ ↔ (∅ : PathSet).contains o = true
    rw [PathSet.contains_empty]
    split
    · rfl
    · next hnot =>
      rw [hmarked, PathSet.contains_iff, ← List.any_eq_true]
      exact ⟨fun hany ↦ absurd hany hnot, fun h ↦ by cases h⟩

/-- What does not take part in a link keeps waiting. -/
theorem awaits_settled (h : b.Awaits o) (hpending : b.pending.contains o = false) :
    b.settled.Awaits o := by
  rcases h with h | h
  · exact .inl h
  · rw [hpending] at h
    cases h

/-- Books with other times of files, or units of unity files compiled in other ways. -/
theorem IsBalanced.congr (h : b.IsBalanced) (hunits : b'.compilands.units = b.compilands.units)
    (hpending : b'.pending = b.pending) (hordered : b'.modified.IsOrdered) : b'.IsBalanced := by
  refine ⟨fun o c hget ↦ ?_, fun o c hget ↦ ?_, hordered⟩
  · rw [CompilandTable.get?, hunits] at hget
    exact h.own o c hget
  · rw [CompilandTable.get?, hunits] at hget
    rw [hpending]
    exact h.marked o c hget

end Books

namespace LiveModule

variable {b start : Books}

/-- Work does not bear on the books. -/
theorem ignoresWork_of_books (P : Books → Prop) : IgnoresWork fun m ↦ P m.books :=
  ⟨fun _ _ h ↦ h, fun _ h ↦ h⟩

theorem books_ignoresWork (b : Books) : IgnoresWork fun m ↦ m.books = b :=
  ignoresWork_of_books (· = b)

/-! ### Compiling -/

theorem books_bookSuccess (b : Books) (object : Path) :
    Triple (fun m ↦ m.books = b) (bookSuccess object) (fun _ m ↦ m.books = b.compiled object)
      fun m ↦ m.books = b := by
  refine Triple.bind (R := fun _ (m : LiveModule) ↦ m.books = b)
    ((books_ignoresWork b).inWorkshop _) fun _ ↦ ?_
  intro m hm
  subst hm
  rfl

theorem books_bookFailure (b : Books) (object : Path) :
    Triple (fun m ↦ m.books = b) (bookFailure object) (fun _ m ↦ m.books = b.failed object)
      fun _ ↦ False := by
  intro m hm
  subst hm
  rfl

/-- What waited at the start still waits, and exactly some object files are to be compiled, apart
from others. -/
structure IsCompiling (start : Books) (others : Path → Prop) (objects : List Path)
    (m : LiveModule) : Prop where
  retains : start.Retains m.books
  modified : ∀ o, m.books.modified.contains o = true ↔ others o ∨ ∃ p ∈ objects, p.same o = true

variable {others : Path → Prop} {objects : List Path}

/-- A unit that was compiled needs not be compiled any more. -/
theorem IsCompiling.compiled {m m' : LiveModule} {object : Path}
    (h : m.IsCompiling start others (object :: objects))
    (hothers : ∀ o, others o → object.same o = false)
    (hobjects : ∀ p ∈ objects, object.same p = false) (hbooks : m'.books = m.books.compiled object) :
    m'.IsCompiling start others objects := by
  refine ⟨hbooks ▸ h.retains.trans (Books.retains_compiled h.retains.balanced object), fun o ↦ ?_⟩
  rw [hbooks, Books.compiled, PathMap.contains_erase, Bool.and_eq_true, h.modified o, Bool.not_eq_true']
  constructor
  · rintro ⟨hne, ho | ⟨p, hp, hsame⟩⟩
    · exact .inl ho
    · rcases List.mem_cons.mp hp with rfl | hp
      · rw [hsame] at hne
        cases hne
      · exact .inr ⟨p, hp, hsame⟩
  · rintro (ho | ⟨p, hp, hsame⟩)
    · exact ⟨hothers o ho, .inl ho⟩
    · refine ⟨?_, .inr ⟨p, List.mem_cons_of_mem _ hp, hsame⟩⟩
      rw [← Path.same_congr_right hsame]
      exact hobjects p hp

/-- A unit that failed joins the others, which stay to be compiled. -/
theorem IsCompiling.failed {m m' : LiveModule} {object : Path}
    (h : m.IsCompiling start others (object :: objects)) (hbooks : m'.books = m.books.failed object) :
    m'.IsCompiling start (fun o ↦ others o ∨ object.same o = true) objects := by
  have hmodified : m.modified.contains object = true :=
    (h.modified object).mpr (.inr ⟨object, List.mem_cons_self .., Path.same_refl _⟩)
  refine ⟨hbooks ▸ h.retains.trans (Books.retains_failed h.retains.balanced hmodified), fun o ↦ ?_⟩
  rw [hbooks, Books.failed, h.modified o]
  simp only [List.mem_cons, exists_eq_or_imp, or_assoc]

/-- Booking results keeps what waits waiting. When no unit failed, all of them were compiled. -/
theorem isCompiling_record {compiled : List Compiled}
    (hdistinct : (compiled.map Compiled.object).Pairwise fun p q ↦ p.same q = false)
    (hothers : ∀ p ∈ compiled.map Compiled.object, ∀ o, others o → p.same o = false) :
    Returns (IsCompiling start others (compiled.map Compiled.object)) (record compiled)
      (fun failures m ↦ start.Retains m.books ∧ (failures = [] → m.IsCompiling start others []))
      fun m ↦ start.Retains m.books := by
  induction compiled generalizing others with
  | nil => exact .of_triple (Triple.pure fun m hm ↦ ⟨hm.retains, fun _ ↦ hm⟩)
  | cons c compiled ih =>
    rw [List.map_cons] at hdistinct hothers ⊢
    obtain ⟨hhead, htail⟩ := List.pairwise_cons.mp hdistinct
    obtain ⟨hothersHead, hothersTail⟩ := List.forall_mem_cons.mp hothers
    have hfailed : ∀ exitCode, Returns
        (IsCompiling start others (c.object :: compiled.map Compiled.object)) (do
          bookFailure c.object
          return (c.object, exitCode) :: (← record compiled))
        (fun failures m ↦ start.Retains m.books ∧ (failures = [] → m.IsCompiling start others []))
        fun m ↦ start.Retains m.books := by
      refine fun exitCode ↦ Returns.of_pre fun m hm ↦ ?_
      have hbook : Triple (· = m) (bookFailure c.object) (fun _ ↦ IsCompiling start
          (fun o ↦ others o ∨ c.object.same o = true) (compiled.map Compiled.object))
          fun m ↦ start.Retains m.books :=
        (books_bookFailure m.books c.object).mono (fun _ h ↦ congrArg books h)
          (fun _ _ h ↦ hm.failed h) fun _ h ↦ h.elim
      refine Returns.bind (.of_triple hbook) fun _ ↦ Returns.bind (ih htail ?_) fun failures ↦
        .of_triple (Triple.pure fun m' hm' ↦ ⟨hm'.1, fun h ↦ by cases h⟩)
      rintro p hp o (ho | ho)
      · exact hothersTail p hp o ho
      · rw [← Path.same_congr_right ho, Path.same_comm]
        exact hhead p hp
    unfold record
    rcases c with ⟨object, (_ | _) | output⟩
    · exact hfailed notRun
    · exact Returns.fault
    · dsimp only
      split
      · refine Returns.of_pre fun m hm ↦ ?_
        have hbook : Triple (· = m) (bookSuccess object)
            (fun _ ↦ IsCompiling start others (compiled.map Compiled.object))
            fun m ↦ start.Retains m.books :=
          (books_bookSuccess m.books object).mono (fun _ h ↦ congrArg books h)
            (fun _ _ h ↦ hm.compiled hothersHead hhead h) fun m' hm' ↦ hm' ▸ hm.retains
        exact Returns.bind (.of_triple hbook) fun _ ↦ ih htail hothersTail
      · exact hfailed output.exitCode

/-- There is a result for every unit. -/
theorem objects_compileEach (units : List (Compiland × Bool)) :
    Triple (fun _ ↦ True) (compileEach units)
      (fun compiled _ ↦ compiled.map Compiled.object = units.map fun u ↦ u.1.object)
      fun _ ↦ True := by
  induction units with
  | nil => exact Triple.pure fun _ _ ↦ rfl
  | cons unit units ih =>
    refine Keeps.triv_bind fun result ↦ Triple.bind ih fun compiled ↦ Triple.pure fun _ h ↦ ?_
    rw [List.map_cons, List.map_cons, h]

theorem isCompiling_ignoresWork : IgnoresWork (IsCompiling start others objects) :=
  ⟨fun _ _ h ↦ ⟨h.retains, h.modified⟩, fun _ h ↦ ⟨h.retains, h.modified⟩⟩

/-- Whether an object file is among others. -/
def IsAmong (objects : List Path) (o : Path) : Prop := ∃ p ∈ objects, p.same o = true

theorem isCompiling_append {m : LiveModule} {first rest : List Path} :
    m.IsCompiling start (fun _ ↦ False) (first ++ rest) ↔
      m.IsCompiling start (IsAmong rest) first := by
  have hiff : ∀ o, (False ∨ ∃ p ∈ first ++ rest, p.same o = true) ↔
      (IsAmong rest o ∨ ∃ p ∈ first, p.same o = true) := by
    intro o
    simp only [IsAmong, List.mem_append, or_and_right, exists_or, false_or]
    exact or_comm
  exact ⟨fun h ↦ ⟨h.retains, fun o ↦ (h.modified o).trans (hiff o)⟩,
    fun h ↦ ⟨h.retains, fun o ↦ (h.modified o).trans (hiff o).symm⟩⟩

/-- Compiling a stage keeps what waits waiting. When no unit failed, the rest is to be compiled. -/
theorem isCompiling_compileStage {units : List (Compiland × Bool)} {first rest : List Path}
    (hobjects : (units.map fun u ↦ u.1.object) = first)
    (hdistinct : (first ++ rest).Pairwise fun p q ↦ p.same q = false) :
    Returns (IsCompiling start (fun _ ↦ False) (first ++ rest)) (compileStage units)
      (fun failures m ↦ start.Retains m.books ∧
        (failures = [] → m.IsCompiling start (fun _ ↦ False) rest))
      fun m ↦ start.Retains m.books := by
  obtain ⟨hfirst, -, hrest⟩ := List.pairwise_append.mp hdistinct
  have hothers : ∀ p ∈ first, ∀ o, IsAmong rest o → p.same o = false := by
    rintro p hp o ⟨q, hq, hsame⟩
    rw [← Path.same_congr_right hsame]
    exact hrest p hp q hq
  have hkeeps : Keeps (IsCompiling start (IsAmong rest) first) (compileEach units) :=
    isCompiling_ignoresWork.compileEach units
  have hcompile := Triple.and hkeeps (objects_compileEach units)
  refine Returns.bind (.of_triple (hcompile.mono (fun _ h ↦ ⟨isCompiling_append.mp h, trivial⟩)
    (fun _ _ h ↦ h) fun _ h ↦ h.1.retains)) fun compiled ↦ Returns.of_pre fun m hm ↦ ?_
  have hcompiled : compiled.map Compiled.object = first := hm.2.trans hobjects
  subst hcompiled
  refine Returns.mono (isCompiling_record hfirst hothers) (fun m' hm' ↦ hm' ▸ hm.1)
    (fun failures m' hm' ↦ ⟨hm'.1, fun h ↦ ?_⟩) fun _ h ↦ h
  exact isCompiling_append.mpr (hm'.2 h)

/-- The unit of a modified object file. -/
def IsToCompile (m : LiveModule) (c : Compiland) : Prop :=
  ∃ o, m.modified.contains o = true ∧ m.compilands.get? o = some c

/-- The units that are compiled are those of the modified object files, one for each, and object
files without a unit are no longer modified. -/
theorem run_unitsToCompile {m : LiveModule} (hordered : m.modified.IsOrdered)
    (hown : ∀ o c, m.compilands.get? o = some c → c.object.same o = true) :
    ∃ units modified, unitsToCompile.run m = (.ok units, { m with modified := modified }) ∧
      modified.IsOrdered ∧ (∀ o, modified.contains o = true ↔
        m.modified.contains o = true ∧ m.compilands.contains o = true) ∧
      (∀ c, c ∈ units ↔ m.IsToCompile c) ∧
      units.Pairwise fun c d ↦ c.object.same d.object = false := by
  set known := m.modified.toList.filter m.compilands.contains
  refine ⟨known.filterMap m.compilands.get?, PathSet.ofList known, rfl, PathSet.isOrdered_ofList known,
    fun o ↦ ?_, fun c ↦ ?_, ?_⟩
  · rw [PathSet.contains_ofList, List.any_eq_true, PathSet.contains_iff]
    constructor
    · rintro ⟨p, hp, hsame⟩
      obtain ⟨hp, hknown⟩ := List.mem_filter.mp hp
      exact ⟨⟨p, hp, hsame⟩, (m.compilands.units.contains_congr hsame).symm.trans hknown⟩
    · rintro ⟨⟨p, hp, hsame⟩, hknown⟩
      exact ⟨p, List.mem_filter.mpr ⟨hp, (m.compilands.units.contains_congr hsame).trans hknown⟩, hsame⟩
  · rw [List.mem_filterMap]
    constructor
    · rintro ⟨p, hp, hc⟩
      exact ⟨p, (PathSet.contains_iff _ _).mpr ⟨p, (List.mem_filter.mp hp).1, Path.same_refl p⟩, hc⟩
    · rintro ⟨o, ho, hc⟩
      obtain ⟨p, hp, hsame⟩ := (PathSet.contains_iff _ _).mp ho
      rw [← m.compilands.get?_congr hsame] at hc
      refine ⟨p, List.mem_filter.mpr ⟨hp, ?_⟩, hc⟩
      rw [CompilandTable.contains, ← PathMap.isSome_find?]
      exact Option.isSome_of_eq_some hc
  · rw [List.pairwise_filterMap]
    refine ((PathSet.pairwise_toList hordered).filter _).imp fun {p q} hne c hc c' hc' ↦ ?_
    rw [Path.same_congr_left (hown p c hc), Path.same_congr_right (hown q c' hc')]
    exact hne

theorem isCompiling_unitsToCompile (hb : b.IsBalanced) :
    Triple (fun m ↦ m.books = b) unitsToCompile
      (fun units m ↦ m.IsCompiling b (fun _ ↦ False) (units.map Compiland.object) ∧
        (units.map Compiland.object).Pairwise fun p q ↦ p.same q = false)
      fun m ↦ b.Retains m.books := by
  intro m hm
  subst hm
  obtain ⟨units, modified, hrun, hordered, hmodified, hunits, hdistinct⟩ :=
    run_unitsToCompile hb.ordered hb.own
  rw [hrun]
  refine ⟨⟨⟨hb.congr rfl rfl hordered, fun _ ↦ rfl, rfl, ?_⟩, fun o ↦ ?_⟩, ?_⟩
  · rintro o hunit (hwaits | hpending)
    · exact .inl ((hmodified o).mpr ⟨hwaits, hunit⟩)
    · exact .inr hpending
  · rw [false_or]
    refine (hmodified o).trans ⟨fun ⟨hwaits, hunit⟩ ↦ ?_, ?_⟩
    · rw [CompilandTable.contains, ← PathMap.isSome_find?] at hunit
      obtain ⟨c, hc⟩ := Option.isSome_iff_exists.mp hunit
      exact ⟨c.object, List.mem_map_of_mem ((hunits c).mpr ⟨o, hwaits, hc⟩), hb.own o c hc⟩
    · rintro ⟨object, hobject, hsame⟩
      obtain ⟨c, hc, rfl⟩ := List.mem_map.mp hobject
      obtain ⟨p, hwaits, hget⟩ := (hunits c).mp hc
      have hsame : p.same o = true :=
        (Path.same_congr_left (hb.own p c hget)).symm.trans hsame
      refine ⟨(m.modified.contains_congr hsame).symm.trans hwaits, ?_⟩
      rw [CompilandTable.contains, ← PathMap.isSome_find?, ← m.compilands.units.find?_congr hsame]
      exact Option.isSome_of_eq_some hget
  · exact List.pairwise_map.mpr hdistinct

/-- Compiling keeps what waits waiting. When no unit failed, nothing is left to be compiled. -/
theorem retains_compile (hb : b.IsBalanced) :
    Returns (fun m ↦ m.books = b) compile
      (fun failures m ↦ b.Retains m.books ∧
        (failures = [] → ∀ o, m.books.modified.contains o = false))
      fun m ↦ b.Retains m.books := by
  refine Returns.bind (.of_triple (isCompiling_unitsToCompile hb)) fun units ↦
    Returns.of_pre fun m₀ hm₀ ↦ ?_
  dsimp only
  obtain ⟨hcompiling, hdistinct⟩ := hm₀
  set stages := CompileStages.ofUnits units
  set headers := stages.headers.map Compiland.object
  set separate := stages.separate.map Compiland.object
  set last := stages.last.map fun u ↦ u.1.object
  have hperm : (headers ++ (separate ++ last)).Perm (units.map Compiland.object) := by
    have := (CompileStages.perm_ofUnits units).map Compiland.object
    rw [CompileStages.units, List.map_append, List.map_append, List.append_assoc,
      List.map_map] at this
    exact this
  have hall : (headers ++ (separate ++ last)).Pairwise fun p q ↦ p.same q = false :=
    hperm.symm.pairwise hdistinct fun {p q} h ↦ (Path.same_comm q p).trans h
  have hstart : m₀.IsCompiling b (fun _ ↦ False) (headers ++ (separate ++ last)) := by
    refine ⟨hcompiling.retains, fun o ↦ (hcompiling.modified o).trans ?_⟩
    simp only [hperm.mem_iff]
  have hrest := (List.pairwise_append.mp hall).2.1
  have hfinal := (List.pairwise_append.mp hrest).2.1
  have hmap : ∀ l : List Compiland,
      ((l.map fun c ↦ (c, false)).map fun u ↦ u.1.object) = l.map Compiland.object := by
    intro l
    simp [Function.comp_def]
  refine Returns.bind (Returns.mono (isCompiling_compileStage (hmap _) hall)
    (fun _ h ↦ h ▸ hstart) (fun _ _ h ↦ h) fun _ h ↦ h) fun failures ↦ ?_
  split
  · next hfailures =>
    exact .of_triple (Triple.pure fun m hm ↦ ⟨hm.1, fun h ↦ by rw [h] at hfailures; cases hfailures⟩)
  · next hnone =>
    have hnone : failures = [] := by simpa using hnone
    refine Returns.bind (Returns.mono (isCompiling_compileStage (hmap _) hrest)
      (fun _ h ↦ h.2 hnone) (fun _ _ h ↦ h) fun _ h ↦ h) fun failures ↦ ?_
    split
    · next hfailures =>
      exact .of_triple (Triple.pure fun m hm ↦
        ⟨hm.1, fun h ↦ by rw [h] at hfailures; cases hfailures⟩)
    · next hnone =>
      have hnone : failures = [] := by simpa using hnone
      have hlast : (last ++ []).Pairwise fun p q : Path ↦ p.same q = false := by
        rwa [List.append_nil]
      have hstage : Returns (IsCompiling b (fun _ ↦ False) (last ++ [])) (compileStage stages.last)
          (fun failures m ↦ b.Retains m.books ∧
            (failures = [] → m.IsCompiling b (fun _ ↦ False) []))
          fun m ↦ b.Retains m.books := isCompiling_compileStage rfl hlast
      rw [List.append_nil] at hstage
      refine Returns.mono hstage (fun _ h ↦ h.2 hnone) (fun failures m hm ↦ ⟨hm.1, fun h o ↦ ?_⟩)
        fun _ h ↦ h
      rw [← Bool.not_eq_true, (hm.2 h).modified o]
      simp

end LiveModule
end LivePatch
