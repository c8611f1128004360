import LivePatch.Proofs.Session.Books
import LivePatch.Session.Compile

/-!
# Compiling in stages

A unit is compiled once at most, and only when all units of the stages before its own were compiled.
What is modified and what is pending afterwards depends on the units that were run and on what their
compilers came to, and on nothing else.
-/

namespace LivePatch

namespace Compiland

/-- Place of a unit among the units of a module: those that create precompiled headers, those that
keep debug information to themselves, those that share a database, and behind them those that share
state with earlier compiles. -/
def rank (c : Compiland) : Nat :=
  if c.createsHeader then 0
  else if c.hasEmbeddedDebugInfo then 1
  else if c.usesMinimalRebuild then 3
  else 2

/-- The stage that a unit is compiled in. The last two kinds are one stage. -/
def stage (c : Compiland) : Nat := min c.rank 2

end Compiland

namespace CompileStages

variable {s : CompileStages} {c : Compiland}

/-- Units are where they belong. -/
structure IsRanked (s : CompileStages) : Prop where
  headers : ∀ c ∈ s.headers, c.rank = 0
  separate : ∀ c ∈ s.separate, c.rank = 1
  shared : ∀ c ∈ s.shared.entries.flatMap Prod.snd, c.rank = 2
  serial : ∀ c ∈ s.serial, c.rank = 3
  ordered : s.shared.IsOrdered

theorem IsRanked.add (h : s.IsRanked) (c : Compiland) : (s.add c).IsRanked := by
  have hsnoc : ∀ {n : Nat} {l : List Compiland}, (∀ d ∈ l, d.rank = n) → c.rank = n →
      ∀ d ∈ l ++ [c], d.rank = n := by
    intro n l hl hc d hd
    rcases List.mem_append.mp hd with hd | hd
    · exact hl d hd
    · rw [List.mem_singleton.mp hd, hc]
  unfold CompileStages.add
  split
  · next hheader =>
    exact { h with headers := hsnoc h.headers (by rw [Compiland.rank, if_pos hheader]) }
  · next hheader =>
    split
    · next hembedded =>
      exact { h with
        separate := hsnoc h.separate (by rw [Compiland.rank, if_neg hheader, if_pos hembedded]) }
    · next hembedded =>
      split
      · next hminimal =>
        refine { h with serial := hsnoc h.serial ?_ }
        rw [Compiland.rank, if_neg hheader, if_neg hembedded, if_pos hminimal]
      · next hminimal =>
        refine { h with shared := fun d hd ↦ ?_, ordered := h.ordered.insert _ _ }
        rcases List.mem_cons.mp ((h.ordered.perm_insert c.database c).mem_iff.mp hd) with rfl | hd
        · rw [Compiland.rank, if_neg hheader, if_neg hembedded, if_neg hminimal]
        · exact h.shared d hd

theorem isRanked_ofUnits (units : List Compiland) : (ofUnits units).IsRanked := by
  have hfold : ∀ s : CompileStages, s.IsRanked → (units.foldl CompileStages.add s).IsRanked := by
    induction units with
    | nil => exact fun _ hs ↦ hs
    | cons c units ih => exact fun s hs ↦ ih _ (hs.add c)
  refine hfold empty ⟨?_, ?_, ?_, ?_, PathMap.isOrdered_empty⟩
  all_goals exact fun _ hc ↦ by cases hc

/-- Only units that are compiled among those of their database share it. -/
theorem IsRanked.mem_last (h : s.IsRanked) {u : Compiland × Bool} (hu : u ∈ s.last) :
    2 ≤ u.1.rank ∧ u.2 = decide (u.1.rank = 2) := by
  rcases List.mem_append.mp hu with hu | hu
  · obtain ⟨e, he, hu⟩ := List.mem_flatMap.mp hu
    obtain ⟨c, hc, rfl⟩ := List.mem_map.mp hu
    simp [h.shared c (List.mem_flatMap.mpr ⟨e, he, hc⟩)]
  · obtain ⟨c, hc, rfl⟩ := List.mem_map.mp hu
    simp [h.serial c hc]

end CompileStages

/-- A unit that was given to its compiler, and the files that the compiler found. -/
structure Trial where
  unit : Compiland
  sharesDatabase : Bool
  files : FileTree

namespace Trial

/-- The run of the compiler. -/
def run (m : LiveModule) (x : Trial) : Run :=
  ⟨CompilerLine.invocation m.settings x.files x.unit x.sharesDatabase, x.files⟩

/-- What the compiler came to. -/
def result (m : LiveModule) (x : Trial) : Outcome ToolOutput :=
  (m.workshop.toolchain (x.run m).invocation x.files).1

/-- The exit code of a compiler that failed. -/
def exitCode? (m : LiveModule) (x : Trial) : Option Int :=
  match x.result m with
  | .ok output => if output.isSuccess then none else some output.exitCode
  | .error _ => some LiveModule.notRun

/-- The unit was compiled. -/
def Succeeds (m : LiveModule) (x : Trial) : Prop := x.exitCode? m = none

/-- What is answered of a unit that failed. -/
def failure? (m : LiveModule) (x : Trial) : Option CompileFailure :=
  (x.exitCode? m).map fun code ↦ (x.unit.object, code)

end Trial

namespace LiveModule

variable {m m' m₀ : LiveModule} {trials : List Trial} {units : List (Compiland × Bool)}
  {failures : List CompileFailure}

/-- The compiler was run for some units, and nothing else was run. -/
structure Ran (m : LiveModule) (trials : List Trial) (m' : LiveModule) : Prop where
  settings : m'.settings = m.settings
  toolchain : m'.workshop.toolchain = m.workshop.toolchain
  runs : m'.workshop.runs = m.workshop.runs ++ trials.map (Trial.run m)

theorem Ran.result_eq (h : m.Ran trials m') (x : Trial) : x.result m' = x.result m := by
  unfold Trial.result Trial.run
  rw [h.settings, h.toolchain]

theorem Ran.trans {more : List Trial} {m'' : LiveModule} (h : m.Ran trials m')
    (h' : m'.Ran more m'') : m.Ran (trials ++ more) m'' where
  settings := h'.settings.trans h.settings
  toolchain := h'.toolchain.trans h.toolchain
  runs := by
    have hrun : Trial.run m' = Trial.run m := by
      funext x
      unfold Trial.run
      rw [h.settings]
    rw [h'.runs, h.runs, hrun, List.map_append, List.append_assoc]

/-- Printing for the processes always comes to its end, and changes only them. -/
theorem run_forwardOutput (text : String) (m : LiveModule) :
    ∃ fleet, (forwardOutput text).run m = (.ok (), { m with processes := fleet }) := by
  unfold forwardOutput
  rw [run_bind, run_get]
  dsimp only
  split
  · exact ⟨m.processes, rfl⟩
  · exact ⟨_, rfl⟩

/-- A tool is run on the files as they are. -/
theorem run_run (i : Invocation) (w : Workshop) : (Workshop.run i).run w
    = ((w.toolchain i w.files).1,
      { w with files := (w.toolchain i w.files).2, runs := w.runs ++ [⟨i, w.files⟩] }) := by
  unfold Workshop.run
  rw [run_bind, run_get]
  dsimp only
  rw [run_bind, run_set]
  exact run_lift _ _

/-- A tool is run once, and what it printed goes to the processes. -/
theorem run_runTool (i : Invocation) (m : LiveModule) : ∃ fleet, (runTool i).run m
    = ((m.workshop.toolchain i m.files).1, { m with
        processes := fleet
        workshop := { m.workshop with
          files := (m.workshop.toolchain i m.files).2
          runs := m.workshop.runs ++ [⟨i, m.files⟩] } }) := by
  have hwork : (inWorkshop (Workshop.run i)).run m = ((m.workshop.toolchain i m.files).1,
      { m with workshop := ((Workshop.run i).run m.workshop).2 }) := by
    change (((Workshop.run i).run m.workshop).1, _) = _
    rw [run_run]
    rfl
  unfold runTool
  rw [run_bind, hwork, run_run]
  rcases (m.workshop.toolchain i m.files).1 with stop | output
  · exact ⟨m.processes, rfl⟩
  · dsimp only
    obtain ⟨fleet, hforward⟩ := run_forwardOutput output.text { m with workshop :=
      { m.workshop with
        files := (m.workshop.toolchain i m.workshop.files).2
        runs := m.workshop.runs ++ [⟨i, m.workshop.files⟩] } }
    rw [run_bind, hforward]
    exact ⟨fleet, rfl⟩

/-- A unit is compiled by one run of its compiler. -/
theorem run_compileUnit (c : Compiland) (sharesDatabase : Bool) (m : LiveModule) :
    ∃ m', (compileUnit c sharesDatabase).run m = (Trial.result m ⟨c, sharesDatabase, m.files⟩, m') ∧
      m.Ran [⟨c, sharesDatabase, m.files⟩] m' ∧ m'.books = m.books := by
  set x : Trial := ⟨c, sharesDatabase, m.files⟩
  obtain ⟨fleet, hrun⟩ := run_runTool (x.run m).invocation m
  exact ⟨_, hrun, ⟨rfl, rfl, rfl⟩, rfl⟩

/-- Units are compiled one after another, whatever becomes of them. -/
theorem run_compileEach (units : List (Compiland × Bool)) (m : LiveModule) :
    ∃ trials m', (compileEach units).run m
        = (.ok (trials.map fun x ↦ ⟨x.unit.object, x.result m⟩), m') ∧
      (trials.map fun x ↦ (x.unit, x.sharesDatabase)) = units ∧ m.Ran trials m' ∧
      m'.books = m.books := by
  induction units generalizing m with
  | nil => exact ⟨[], m, rfl, rfl, ⟨rfl, rfl, (List.append_nil _).symm⟩, rfl⟩
  | cons unit units ih =>
    obtain ⟨c, sharesDatabase⟩ := unit
    obtain ⟨m', hrun, hran, hbooks⟩ := run_compileUnit c sharesDatabase m
    obtain ⟨trials, m'', hrest, hunits, hrans, hbooks'⟩ := ih m'
    refine ⟨⟨c, sharesDatabase, m.files⟩ :: trials, m'', ?_, by rw [List.map_cons, hunits],
      hran.trans hrans, hbooks'.trans hbooks⟩
    unfold compileEach
    rw [run_bind, run_tried, hrun]
    dsimp only
    rw [run_bind, hrest]
    simp only [hran.result_eq]
    rfl

/-- The books behind a unit that was given to its compiler. -/
def booked (m : LiveModule) (b : Books) (x : Trial) : Books :=
  if (x.exitCode? m).isNone then b.compiled x.unit.object else b.failed x.unit.object

/-- Reading an object file again changes no more than the tables that are kept. -/
theorem run_reload (object : Path) (w : Workshop) :
    ∃ objects, ((Workshop.reload object).run w).2 = { w with objects := objects } := by
  have hon : (Workshop.onObjects fun files ↦ ObjectCache.reload files object).run w
      = (((ObjectCache.reload w.files object).run w.objects).1,
        { w with objects := ((ObjectCache.reload w.files object).run w.objects).2 }) := rfl
  unfold Workshop.reload
  rw [run_bind, hon]
  rcases ((ObjectCache.reload w.files object).run w.objects).1 with _ | _ <;> exact ⟨_, rfl⟩

/-- Booking a unit runs no tool. -/
theorem run_bookSuccess {object : Path} (hrun : (bookSuccess object).run m = (.ok (), m')) :
    m.Ran [] m' ∧ m'.books = m.books.compiled object := by
  unfold bookSuccess at hrun
  obtain ⟨_, m₁, hreload, hrun⟩ := run_bind_eq_ok_iff.mp hrun
  obtain ⟨objects, hobjects⟩ := run_reload object m.workshop
  obtain rfl : { m with workshop := ((Workshop.reload object).run m.workshop).2 } = m₁ :=
    congrArg Prod.snd hreload
  rw [hobjects] at hrun
  cases hrun
  exact ⟨⟨rfl, rfl, (List.append_nil _).symm⟩, rfl⟩

theorem run_bookFailure (object : Path) (m : LiveModule) :
    ∃ m', (bookFailure object).run m = (.ok (), m') ∧ m.Ran [] m' ∧
      m'.books = m.books.failed object :=
  ⟨_, rfl, ⟨rfl, rfl, (List.append_nil _).symm⟩, rfl⟩

/-- Booking results, when it comes to its end. -/
theorem run_record {m₁ m₂ : LiveModule}
    (hrun : (record (trials.map fun x ↦ ⟨x.unit.object, x.result m⟩)).run m₁ = (.ok failures, m₂)) :
    failures = trials.filterMap (Trial.failure? m) ∧ m₁.Ran [] m₂ ∧
      m₂.books = trials.foldl m.booked m₁.books := by
  induction trials generalizing m₁ failures with
  | nil =>
    cases hrun
    exact ⟨rfl, ⟨rfl, rfl, (List.append_nil _).symm⟩, rfl⟩
  | cons x trials ih =>
    -- what follows a unit that failed with some exit code
    have hfailed : ∀ code, x.exitCode? m = some code → (bookFailure x.unit.object >>= fun _ ↦ do
        return (x.unit.object, code) :: (← record (trials.map fun x ↦ ⟨x.unit.object, x.result m⟩))).run
          m₁ = (.ok failures, m₂) →
        failures = (x :: trials).filterMap (Trial.failure? m) ∧ m₁.Ran [] m₂ ∧
          m₂.books = (x :: trials).foldl m.booked m₁.books := by
      intro code hcode hrun
      obtain ⟨m', hbook, hran, hbooks⟩ := run_bookFailure x.unit.object m₁
      rw [run_bind, hbook] at hrun
      obtain ⟨rest, m₃, hrest, hrun⟩ := run_bind_eq_ok_iff.mp hrun
      cases hrun
      obtain ⟨rfl, hrans, hbooks'⟩ := ih hrest
      refine ⟨?_, hran.trans hrans, ?_⟩
      · rw [List.filterMap_cons, Trial.failure?, hcode]
        rfl
      · rw [hbooks', hbooks, List.foldl_cons, booked, hcode]
        rfl
    rw [List.map_cons] at hrun
    unfold record at hrun
    rcases hresult : x.result m with (e | _) | output
    · rw [hresult] at hrun
      exact hfailed notRun (by rw [Trial.exitCode?, hresult]) hrun
    · rw [hresult] at hrun
      cases hrun
    · rw [hresult] at hrun
      dsimp only at hrun
      split at hrun
      · next hsuccess =>
        have hcode : x.exitCode? m = none := by
          rw [Trial.exitCode?, hresult]
          exact if_pos hsuccess
        obtain ⟨_, m', hbook, hrun⟩ := run_bind_eq_ok_iff.mp hrun
        obtain ⟨hran, hbooks⟩ := run_bookSuccess hbook
        obtain ⟨rfl, hrans, hbooks'⟩ := ih hrun
        refine ⟨?_, hran.trans hrans, ?_⟩
        · rw [List.filterMap_cons, Trial.failure?, hcode]
          rfl
        · rw [hbooks', hbooks, List.foldl_cons, booked, hcode]
          rfl
      · next hfailure =>
        have hcode : x.exitCode? m = some output.exitCode := by
          rw [Trial.exitCode?, hresult]
          exact if_neg hfailure
        exact hfailed output.exitCode hcode hrun

/-- Compiling a stage, when it comes to its end. -/
theorem run_compileStage (hrun : (compileStage units).run m = (.ok failures, m')) :
    ∃ trials, (trials.map fun x ↦ (x.unit, x.sharesDatabase)) = units ∧ m.Ran trials m' ∧
      failures = trials.filterMap (Trial.failure? m) ∧ m'.books = trials.foldl m.booked m.books := by
  obtain ⟨trials, m₁, hcompile, hunits, hran, hbooks⟩ := run_compileEach units m
  unfold compileStage at hrun
  rw [run_bind, hcompile] at hrun
  obtain ⟨hfailures, hran', hbooks'⟩ := run_record hrun
  have htrans := hran.trans hran'
  rw [List.append_nil] at htrans
  exact ⟨trials, hunits, htrans, hfailures, hbooks ▸ hbooks'⟩

/-! ### The books behind a stage -/

/-- Units that were compiled are not modified any more. -/
theorem modified_booked (b : Books) (o : Path) : (trials.foldl m.booked b).modified.contains o = true ↔
    b.modified.contains o = true ∧ ¬∃ x ∈ trials, x.unit.object.same o = true ∧ x.Succeeds m := by
  induction trials generalizing b with
  | nil => simp
  | cons x trials ih =>
    rw [List.foldl_cons, ih, List.exists_mem_cons_iff]
    unfold booked Trial.Succeeds
    cases hcode : x.exitCode? m with
    | none =>
      simp only [Option.isNone_none, if_true, Books.compiled, PathMap.contains_erase]
      cases x.unit.object.same o <;> simp
    | some code => simp [Books.failed]

/-- Units that were compiled are pending, and those that failed are not. -/
theorem pending_booked (hdistinct : trials.Pairwise fun x y ↦ x.unit.object.same y.unit.object = false)
    (b : Books) (o : Path) : (trials.foldl m.booked b).pending.contains o = true ↔
      (∃ x ∈ trials, x.unit.object.same o = true ∧ x.Succeeds m) ∨
        b.pending.contains o = true ∧
          ¬∃ x ∈ trials, x.unit.object.same o = true ∧ ¬x.Succeeds m := by
  induction trials generalizing b with
  | nil => simp
  | cons x trials ih =>
    obtain ⟨hhead, htail⟩ := List.pairwise_cons.mp hdistinct
    rw [List.foldl_cons, ih htail, List.exists_mem_cons_iff, List.exists_mem_cons_iff]
    cases hx : x.unit.object.same o with
    | false =>
      have hpending : (m.booked b x).pending.contains o = b.pending.contains o := by
        unfold booked
        split
        · exact (PathSet.contains_add ..).trans (by rw [hx, Bool.false_or])
        · exact (PathMap.contains_erase ..).trans (by rw [hx, Bool.not_false, Bool.true_and])
      simp [hpending]
    | true =>
      have hothers : ∀ y ∈ trials, y.unit.object.same o = false := by
        intro y hy
        rw [← Path.same_congr_right hx, Path.same_comm]
        exact hhead y hy
      have hnone : ∀ P : Trial → Prop, ¬∃ y ∈ trials, y.unit.object.same o = true ∧ P y := by
        rintro P ⟨y, hy, hsame, -⟩
        rw [hothers y hy] at hsame
        cases hsame
      have hpending : (m.booked b x).pending.contains o = (x.exitCode? m).isNone := by
        unfold booked
        split
        · next hcode => exact (PathSet.contains_add ..).trans (by rw [hx, Bool.true_or, hcode])
        · next hcode =>
          refine (PathMap.contains_erase ..).trans ?_
          rw [hx, Bool.not_true, Bool.false_and, Bool.eq_false_iff.mpr hcode]
      simp [hpending, hnone, Trial.Succeeds]

/-! ### The stages -/

/-- Stages that were run one after another, up to the first one with a unit that failed. -/
inductive StagesRun (m : LiveModule) : List (List (Compiland × Bool)) → List Trial → Prop where
  | done : StagesRun m [] []
  | failed {stage rest trials x} (hunits : (trials.map fun x ↦ (x.unit, x.sharesDatabase)) = stage)
      (hx : x ∈ trials) (hfails : ¬x.Succeeds m) : StagesRun m (stage :: rest) trials
  | passed {stage rest trials more}
      (hunits : (trials.map fun x ↦ (x.unit, x.sharesDatabase)) = stage)
      (hpass : ∀ x ∈ trials, x.Succeeds m) (hrest : StagesRun m rest more) :
      StagesRun m (stage :: rest) (trials ++ more)

variable {stages : List (List (Compiland × Bool))}

/-- What is run is a beginning of what there is to compile. -/
theorem StagesRun.isPrefix (h : StagesRun m stages trials) :
    (trials.map fun x ↦ (x.unit, x.sharesDatabase)) <+: stages.flatten := by
  induction h with
  | done => exact List.prefix_refl _
  | failed hunits _ _ =>
    rw [hunits, List.flatten_cons]
    exact List.prefix_append ..
  | passed hunits _ _ ih =>
    rw [List.map_append, hunits, List.flatten_cons]
    exact (List.prefix_append_right_inj _).mpr ih

/-- Lists of units by their stages, from one stage on. -/
def AreStages (n : Nat) (stages : List (List (Compiland × Bool))) : Prop :=
  ∀ i stage, stages[i]? = some stage → ∀ u ∈ stage, u.1.stage = n + i

theorem areStages_cons {n : Nat} {stage : List (Compiland × Bool)} :
    AreStages n (stage :: stages) ↔ (∀ u ∈ stage, u.1.stage = n) ∧ AreStages (n + 1) stages := by
  constructor
  · intro h
    refine ⟨h 0 stage rfl, fun i s hs u hu ↦ ?_⟩
    have hi := h (i + 1) s hs u hu
    omega
  · rintro ⟨hfirst, hrest⟩ i s hs u hu
    cases i with
    | zero =>
      cases hs
      exact hfirst u hu
    | succ i =>
      have hi := hrest i s hs u hu
      omega

theorem AreStages.le {n : Nat} (h : AreStages n stages) : ∀ u ∈ stages.flatten, n ≤ u.1.stage := by
  intro u hu
  obtain ⟨stage, hstage, hu⟩ := List.mem_flatten.mp hu
  obtain ⟨i, hi⟩ := List.mem_iff_getElem?.mp hstage
  have hn := h i stage hi u hu
  omega

/-- Runs of different units are told apart by these. -/
theorem eq_of_unit_eq
    (hdistinct : trials.Pairwise fun x y ↦ x.unit.object.same y.unit.object = false) {x y : Trial}
    (hx : x ∈ trials) (hy : y ∈ trials) (h : x.unit = y.unit) : x = y := by
  refine List.inj_on_of_nodup_map (List.pairwise_map.mpr (hdistinct.imp fun hne heq ↦ ?_)) hx hy h
  rw [heq, Path.same_refl] at hne
  cases hne

/-- A unit is run exactly when all units of the stages before its own were compiled. -/
theorem StagesRun.started {n : Nat} {c : Compiland} (h : StagesRun m stages trials)
    (hstages : AreStages n stages)
    (hdistinct : trials.Pairwise fun x y ↦ x.unit.object.same y.unit.object = false)
    (hc : ∃ u ∈ stages.flatten, u.1 = c) : (∃ x ∈ trials, x.unit = c) ↔
      ∀ u ∈ stages.flatten, u.1.stage < c.stage → ∃ y ∈ trials, y.unit = u.1 ∧ y.Succeeds m := by
  have hlisted : ∀ {trials : List Trial} {stage : List (Compiland × Bool)},
      (trials.map fun x ↦ (x.unit, x.sharesDatabase)) = stage →
      (∀ x ∈ trials, ∃ u ∈ stage, u.1 = x.unit) ∧ ∀ u ∈ stage, ∃ x ∈ trials, x.unit = u.1 := by
    rintro trials _ rfl
    refine ⟨fun x hx ↦ ⟨_, List.mem_map.mpr ⟨x, hx, rfl⟩, rfl⟩, fun u hu ↦ ?_⟩
    obtain ⟨x, hx, rfl⟩ := List.mem_map.mp hu
    exact ⟨x, hx, rfl⟩
  obtain ⟨v, hv, rfl⟩ := hc
  induction h generalizing n with
  | done => cases hv
  | @failed stage rest trials x hunits hx hfails =>
    obtain ⟨hstage, hrest⟩ := areStages_cons.mp hstages
    obtain ⟨hof, hto⟩ := hlisted hunits
    rw [List.flatten_cons, List.mem_append] at hv
    rcases hv with hv | hv
    · refine iff_of_true (hto v hv) fun u hu hlt ↦ ?_
      have hle := hstages.le u hu
      have hn := hstage v hv
      omega
    · have hlt := hrest.le v hv
      refine iff_of_false ?_ fun hall ↦ ?_
      · rintro ⟨y, hy, hyv⟩
        obtain ⟨u, hu, huy⟩ := hof y hy
        have hn := hstage u hu
        rw [huy, hyv] at hn
        omega
      · obtain ⟨u, hu, hux⟩ := hof x hx
        have hn := hstage u hu
        obtain ⟨y, hy, hyu, hsuccess⟩ := hall u (List.mem_append_left _ hu) (by omega)
        exact hfails (eq_of_unit_eq hdistinct hy hx (hyu.trans hux) ▸ hsuccess)
  | @passed stage rest trials more hunits hpass hrest' ih =>
    obtain ⟨hstage, hrest⟩ := areStages_cons.mp hstages
    obtain ⟨hof, hto⟩ := hlisted hunits
    have hmore : ∀ x ∈ trials, x.unit.stage = n := by
      intro x hx
      obtain ⟨u, hu, hux⟩ := hof x hx
      rw [← hux, hstage u hu]
    rw [List.flatten_cons, List.mem_append] at hv
    rcases hv with hv | hv
    · refine iff_of_true ?_ fun u hu hlt ↦ ?_
      · obtain ⟨x, hx, hxv⟩ := hto v hv
        exact ⟨x, List.mem_append_left _ hx, hxv⟩
      · have hle := hstages.le u hu
        have hn := hstage v hv
        omega
    · have hlt := hrest.le v hv
      have hstarted := ih hrest (List.pairwise_append.mp hdistinct).2.1 hv
      constructor
      · rintro ⟨x, hx, hxv⟩ u hu hless
        rw [List.flatten_cons, List.mem_append] at hu
        rcases hu with hu | hu
        · obtain ⟨y, hy, hyu⟩ := hto u hu
          exact ⟨y, List.mem_append_left _ hy, hyu, hpass y hy⟩
        · have hx : x ∈ more := by
            refine (List.mem_append.mp hx).resolve_left fun hx ↦ ?_
            have hn := hmore x hx
            rw [hxv] at hn
            omega
          obtain ⟨y, hy, hyu⟩ := hstarted.mp ⟨x, hx, hxv⟩ u hu hless
          exact ⟨y, List.mem_append_right _ hy, hyu⟩
      · intro hall
        obtain ⟨x, hx, hxv⟩ := hstarted.mpr fun u hu hless ↦ by
          obtain ⟨y, hy, hyu, hsuccess⟩ := hall u (List.mem_append_right _ hu) hless
          have hy : y ∈ more := by
            refine (List.mem_append.mp hy).resolve_left fun hy ↦ ?_
            have hn := hmore y hy
            have hle := hrest.le u hu
            rw [hyu] at hn
            omega
          exact ⟨y, hy, hyu, hsuccess⟩
        exact ⟨x, List.mem_append_right _ hx, hxv⟩

/-- Compiles stages one after another, up to the first one with a unit that fails. -/
def compileStages : List (List (Compiland × Bool)) → CycleM (List CompileFailure)
  | [] => pure []
  | stage :: rest => do
    let failures ← compileStage stage
    if !failures.isEmpty then return failures else compileStages rest

/-- The stages that units are compiled in. -/
def stagesOf (units : List Compiland) : List (List (Compiland × Bool)) :=
  let stages := CompileStages.ofUnits units
  [stages.headers.map fun c ↦ (c, false), stages.separate.map fun c ↦ (c, false), stages.last]

/-- Behind the last stage there is nothing to stop for. -/
theorem compileStages_singleton (stage : List (Compiland × Bool)) :
    compileStages [stage] = compileStage stage := by
  have hall : ∀ failures : List CompileFailure,
      (if !failures.isEmpty then pure failures else pure [] : CycleM (List CompileFailure))
        = pure failures := by
    intro failures
    cases failures <;> rfl
  simp only [compileStages, hall, bind_pure]

/-- Compiling goes by stages. -/
theorem compile_eq : compile = unitsToCompile >>= fun units ↦ compileStages (stagesOf units) := by
  unfold compile
  congr 1
  funext units
  unfold stagesOf
  dsimp only
  rw [compileStages, compileStages, compileStages_singleton]

/-- What compilers come to does not depend on what was run before. -/
theorem Ran.exitCode?_eq (h : m.Ran trials m') : Trial.exitCode? m' = Trial.exitCode? m := by
  funext x
  unfold Trial.exitCode?
  rw [h.result_eq]

theorem StagesRun.of_ran {more : List Trial} (h : StagesRun m' stages more) (hran : m.Ran trials m') :
    StagesRun m stages more := by
  have hsuccess : ∀ x, Trial.Succeeds m' x ↔ Trial.Succeeds m x := by
    intro x
    unfold Trial.Succeeds
    rw [hran.exitCode?_eq]
  induction h with
  | done => exact .done
  | failed hunits hx hfails => exact .failed hunits hx fun h ↦ hfails ((hsuccess _).mpr h)
  | passed hunits hpass _ ih => exact .passed hunits (fun x hx ↦ (hsuccess x).mp (hpass x hx)) ih

/-- A unit is answered when it was run and failed. -/
theorem failures_eq_nil_iff :
    trials.filterMap (Trial.failure? m) = [] ↔ ∀ x ∈ trials, x.Succeeds m := by
  rw [List.filterMap_eq_nil_iff]
  exact forall₂_congr fun x _ ↦ Option.map_eq_none_iff

/-- Compiling stages, when it comes to its end. -/
theorem run_compileStages (hrun : (compileStages stages).run m = (.ok failures, m')) :
    ∃ trials, StagesRun m stages trials ∧ m.Ran trials m' ∧
      failures = trials.filterMap (Trial.failure? m) ∧ m'.books = trials.foldl m.booked m.books := by
  induction stages generalizing m failures with
  | nil =>
    cases hrun
    exact ⟨[], .done, ⟨rfl, rfl, (List.append_nil _).symm⟩, rfl, rfl⟩
  | cons stage stages ih =>
    unfold compileStages at hrun
    obtain ⟨first, m₁, hstage, hrun⟩ := run_bind_eq_ok_iff.mp hrun
    obtain ⟨trials, hunits, hran, rfl, hbooks⟩ := run_compileStage hstage
    split at hrun
    · next hfailed =>
      cases hrun
      obtain ⟨x, hx, hfails⟩ : ∃ x ∈ trials, ¬x.Succeeds m := by
        rw [Bool.not_eq_true', List.isEmpty_eq_false_iff, ne_eq, failures_eq_nil_iff] at hfailed
        simpa using hfailed
      exact ⟨trials, .failed hunits hx hfails, hran, rfl, hbooks⟩
    · next hpassed =>
      have hpass : ∀ x ∈ trials, x.Succeeds m := by
        rw [← failures_eq_nil_iff]
        simpa using hpassed
      obtain ⟨more, hstages, hran', rfl, hbooks'⟩ := ih hrun
      refine ⟨trials ++ more, .passed hunits hpass (hstages.of_ran hran), hran.trans hran', ?_, ?_⟩
      · rw [List.filterMap_append, failures_eq_nil_iff.mpr hpass, List.nil_append]
        unfold Trial.failure?
        rw [hran.exitCode?_eq]
      · rw [hbooks', hbooks, List.foldl_append]
        unfold booked
        rw [hran.exitCode?_eq]

/-! ### Units by stages -/

theorem mem_stagesOf {units : List Compiland} {stage : List (Compiland × Bool)} {i : Nat}
    (h : (stagesOf units)[i]? = some stage) {u : Compiland × Bool} (hu : u ∈ stage) :
    u.1.stage = i ∧ u.2 = decide (u.1.rank = 2) := by
  have hranked := CompileStages.isRanked_ofUnits units
  unfold Compiland.stage
  match i, h with
  | 0, h =>
    cases h
    obtain ⟨c, hc, rfl⟩ := List.mem_map.mp hu
    simp [hranked.headers c hc]
  | 1, h =>
    cases h
    obtain ⟨c, hc, rfl⟩ := List.mem_map.mp hu
    simp [hranked.separate c hc]
  | 2, h =>
    cases h
    obtain ⟨hrank, hshares⟩ := hranked.mem_last hu
    exact ⟨by omega, hshares⟩

theorem areStages_stagesOf (units : List Compiland) : AreStages 0 (stagesOf units) := by
  intro i stage h u hu
  rw [(mem_stagesOf h hu).1, Nat.zero_add]

theorem shares_stagesOf {units : List Compiland} {u : Compiland × Bool}
    (hu : u ∈ (stagesOf units).flatten) : u.2 = decide (u.1.rank = 2) := by
  obtain ⟨stage, hstage, hu⟩ := List.mem_flatten.mp hu
  obtain ⟨i, hi⟩ := List.mem_iff_getElem?.mp hstage
  exact (mem_stagesOf hi hu).2

theorem map_stagesOf (units : List Compiland) :
    (stagesOf units).flatten.map Prod.fst = (CompileStages.ofUnits units).units := by
  simp [stagesOf, CompileStages.units, Function.comp_def]

theorem perm_stagesOf (units : List Compiland) :
    ((stagesOf units).flatten.map Prod.fst).Perm units := by
  rw [map_stagesOf]
  exact CompileStages.perm_ofUnits units

/-- Units are compiled in the order of their kinds. -/
theorem pairwise_stagesOf (units : List Compiland) :
    ((stagesOf units).flatten.map Prod.fst).Pairwise fun c d ↦ c.rank ≤ d.rank := by
  have hranked := CompileStages.isRanked_ofUnits units
  have hall : ∀ {n : Nat} {l : List Compiland}, (∀ c ∈ l, c.rank = n) →
      l.Pairwise fun c d ↦ c.rank ≤ d.rank := fun hl ↦
    List.pairwise_of_forall_mem_list fun c hc d hd ↦
      Nat.le_of_eq ((hl c hc).trans (hl d hd).symm)
  rw [map_stagesOf, CompileStages.units, CompileStages.units_last]
  simp only [List.pairwise_append, List.mem_append]
  refine ⟨⟨hall hranked.headers, hall hranked.separate, ?_⟩,
    ⟨hall hranked.shared, hall hranked.serial, ?_⟩, ?_⟩
  · intro c hc d hd
    rw [hranked.headers c hc]
    exact Nat.zero_le _
  · intro c hc d hd
    rw [hranked.shared c hc, hranked.serial d hd]
    decide
  · rintro c (hc | hc) d (hd | hd)
    all_goals first
      | rw [hranked.headers c hc]
      | rw [hranked.separate c hc]
    all_goals first
      | rw [hranked.shared d hd]
      | rw [hranked.serial d hd]
    all_goals decide

/-! ### Compiling -/

/-- What compiling comes to when it answers: which units were run, and what is booked of them. -/
structure GoesByStages (m : LiveModule) (failures : List CompileFailure) (m' : LiveModule)
    (trials : List Trial) : Prop where
  /-- The compiler ran for these units, and no tool ran besides. -/
  ran : m.Ran trials m'
  known : ∀ x ∈ trials, m.IsToCompile x.unit
  once : trials.Pairwise fun x y ↦ x.unit.object.same y.unit.object = false
  ranked : trials.Pairwise fun x y ↦ x.unit.rank ≤ y.unit.rank
  shares : ∀ x ∈ trials, x.sharesDatabase = decide (x.unit.rank = 2)
  /-- A unit ran exactly when the units of all stages before its own were compiled. -/
  started : ∀ c, m.IsToCompile c → ((∃ x ∈ trials, x.unit = c) ↔
    ∀ d, m.IsToCompile d → d.stage < c.stage → ∃ y ∈ trials, y.unit = d ∧ y.Succeeds m)
  failures : failures = trials.filterMap (Trial.failure? m)
  modified : ∀ o, m'.modified.contains o = true ↔
    m.modified.contains o = true ∧ m.compilands.contains o = true ∧
      ¬∃ x ∈ trials, x.unit.object.same o = true ∧ x.Succeeds m
  pending : ∀ o, m'.pending.contains o = true ↔
    (∃ x ∈ trials, x.unit.object.same o = true ∧ x.Succeeds m) ∨
      m.pending.contains o = true ∧ ¬∃ x ∈ trials, x.unit.object.same o = true ∧ ¬x.Succeeds m

/-- When compiling answers, it went by stages: each unit of a modified object file ran once at most,
and only behind stages that were compiled as a whole. The answer is what failed. Object files stay
modified unless they were compiled or have no unit, and those that were compiled become pending,
while those that failed cease to be. -/
theorem compiling_goes_by_stages (hordered : m.modified.IsOrdered)
    (hown : ∀ o c, m.compilands.get? o = some c → c.object.same o = true)
    (hrun : compile.run m = (.ok failures, m')) : ∃ trials, m.GoesByStages failures m' trials := by
  obtain ⟨units, modified, hget, -, hmodified, hunits, hdistinct⟩ :=
    run_unitsToCompile hordered hown
  rw [compile_eq, run_bind, hget] at hrun
  obtain ⟨trials, hstages, hran, hfailures, hbooks⟩ := run_compileStages hrun
  have hperm := perm_stagesOf units
  have hlisted : (trials.map Trial.unit) <+: (stagesOf units).flatten.map Prod.fst := by
    have hmap := hstages.isPrefix.map Prod.fst
    rwa [List.map_map] at hmap
  have honce : trials.Pairwise fun x y ↦ x.unit.object.same y.unit.object = false :=
    List.pairwise_map.mp ((hperm.symm.pairwise hdistinct
      fun {c d} h ↦ (Path.same_comm _ _).trans h).sublist hlisted.sublist)
  have hexists : ∀ c, m.IsToCompile c ↔ ∃ u ∈ (stagesOf units).flatten, u.1 = c := by
    intro c
    rw [← hunits, ← hperm.mem_iff, List.mem_map]
  refine ⟨trials, ⟨hran.settings, hran.toolchain, hran.runs⟩, ?_, honce, ?_, ?_, ?_, hfailures, ?_, ?_⟩
  · intro x hx
    exact (hunits _).mp (hperm.mem_iff.mp (hlisted.mem (List.mem_map_of_mem hx)))
  · exact (List.pairwise_map (R := fun c d : Compiland ↦ c.rank ≤ d.rank)).mp
      ((pairwise_stagesOf units).sublist hlisted.sublist)
  · intro x hx
    exact shares_stagesOf (hstages.isPrefix.mem (List.mem_map_of_mem hx))
  · intro c hc
    rw [hstages.started (areStages_stagesOf units) honce ((hexists c).mp hc)]
    constructor
    · intro hall d hd hlt
      obtain ⟨u, hu, rfl⟩ := (hexists d).mp hd
      exact hall u hu hlt
    · exact fun hall u hu hlt ↦ hall u.1 ((hexists _).mpr ⟨u, hu, rfl⟩) hlt
  · intro o
    change m'.books.modified.contains o = true ↔ _
    rw [hbooks, modified_booked]
    exact (and_congr_left' (hmodified o)).trans and_assoc
  · intro o
    change m'.books.pending.contains o = true ↔ _
    rw [hbooks, pending_booked honce]
    exact Iff.rfl

/-! A module with a unit that creates a precompiled header, another one that does not compile, and a
third one that has to wait. A fourth object file has no unit. -/

namespace Waiting

/-- A unit that is compiled in one way. -/
def unit (name commandLine : String) : Compiland :=
  { Compiland.ofPaths ⟨name ++ ".cpp"⟩ ⟨name ++ ".obj"⟩ with commandLine := commandLine }

/-- The units, of which the second one belongs to a compiler that fails. -/
def compilands : List Compiland :=
  [unit "a" "-Ycpch.h", { unit "b" "-Z7" with compiler := ⟨"broken.exe"⟩ }, unit "c" "-O2"]

/-- An object file without sections, in the working directory. -/
def tree : FileTree :=
  (FileTree.emptyAt ["w"]).put ["w", "a.obj"]
    (.file #[0x64, 0x86, 0, 0, 1, 0, 0, 0, 0, 0, 0, 0, 0, 0, 0, 0, 0, 0, 0, 0] (.written 1))

/-- Compilers of which one always fails. -/
def toolchain : Toolchain := fun i t ↦
  (.ok ⟨if i.tool.same ⟨"broken.exe"⟩ then 2 else 0, ""⟩, t)

/-- The module. -/
def module : LiveModule where
  settings := .default
  path := ⟨"app.dll"⟩
  linker := ⟨⟨"link.exe"⟩, ⟨"app.pdb"⟩, "", ⟨""⟩, []⟩
  weakSymbols := []
  provider := ⟨fun _ ↦ .ok .empty, fun _ ↦ .ok .empty, fun _ ↦ .ok .empty, fun _ ↦ .ok .empty,
    fun _ ↦ .ok [], fun _ ↦ .ok ⟨⟨"link.exe"⟩, ⟨"app.pdb"⟩, "", ⟨""⟩, []⟩⟩
  workshop := ⟨tree, .empty, toolchain, []⟩
  registry := .empty
  compilands := .ofLists Waiting.compilands []
  processes := []
  patches := []
  modified := PathSet.ofList [⟨"d.obj"⟩, ⟨"c.obj"⟩, ⟨"b.obj"⟩, ⟨"a.obj"⟩]
  pending := PathSet.ofList [⟨"b.obj"⟩, ⟨"c.obj"⟩]
  counter := 0

theorem compilands_isFresh : module.compilands.IsFresh :=
  CompilandTable.isFresh_ofLists (by decide) []

end Waiting

/-- A unit that fails holds back the next stage: two compilers ran for three units. -/
theorem failing_unit_holds_back_next_stage :
    (compile.run Waiting.module).1 = .ok [(⟨"b.obj"⟩, 2)] ∧
    (compile.run Waiting.module).2.workshop.runs.length = 2 ∧
    (compile.run Waiting.module).2.modified.toList = [⟨"b.obj"⟩, ⟨"c.obj"⟩] ∧
    (compile.run Waiting.module).2.pending.toList = [⟨"a.obj"⟩, ⟨"c.obj"⟩] ∧
    ∃ trials, Waiting.module.GoesByStages [(⟨"b.obj"⟩, 2)] (compile.run Waiting.module).2 trials := by
  have hanswer : (compile.run Waiting.module).1 = .ok [(⟨"b.obj"⟩, 2)] := by decide +kernel
  refine ⟨hanswer, by decide +kernel, by decide +kernel, by decide +kernel, ?_⟩
  exact compiling_goes_by_stages (PathSet.isOrdered_ofList _)
    (fun o c hget ↦ (Waiting.compilands_isFresh o c hget).1) (Prod.ext hanswer rfl)

end LiveModule
end LivePatch
