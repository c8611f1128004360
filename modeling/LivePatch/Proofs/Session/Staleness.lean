import LivePatch.Proofs.Session.Delivery

/-!
# Object files that are out of date

A cycle for changes comes to its link only when everything that was modified compiled, so that no
object file is linked which is older than its sources. A cycle for object files that were built
elsewhere links what is pending as well, and does not ask whether a unit changed in the meantime:
an object file which waits for a link, and has to be compiled anew, is linked as it is.
-/

namespace LivePatch
namespace LiveModule

variable {m s : LiveModule} {front : CycleM (Option CycleOutcome)} {act : CycleM CycleOutcome}

/-! ### What is linked -/

/-- Object files that were built elsewhere are pending besides what was, and nothing is to be
compiled that was not. -/
def Joined (m : LiveModule) (objects : List Path) (b : Books) : Prop :=
  b.modified = m.modified ∧
    ∀ o, b.pending.contains o = (m.pending.contains o || objects.any fun p ↦ p.same o)

theorem joined_accept (m : LiveModule) (done : List Path) (object : Path) :
    Triple (fun m' ↦ m.Joined done m'.books) (accept object)
      (fun _ m' ↦ m.Joined (done ++ [object]) m'.books) fun _ ↦ True := by
  refine ((ignoresWork_of_books (m.Joined done)).inWorkshop _).bind_any fun _ m' hm' ↦
    ⟨hm'.1, fun o ↦ ?_⟩
  refine (PathSet.contains_add m'.pending object o).trans ?_
  rw [show m'.pending.contains o = _ from hm'.2 o, List.any_append]
  cases hsame : object.same o <;> simp [hsame]

theorem joined_acceptAll (m : LiveModule) (objects : List Path) :
    Triple (· = m) (acceptAll objects) (fun _ m' ↦ m.Joined objects m'.books) fun _ ↦ True := by
  have hall : Triple (fun m' ↦ m.Joined [] m'.books) (objects.forM accept)
      (fun _ m' ↦ m.Joined objects m'.books) fun _ ↦ True :=
    Triple.forM_along fun done object _ _ ↦ joined_accept m done object
  refine Triple.bind (hall.mono (fun m' hm' ↦ ?_) (fun _ _ h ↦ h) fun _ h ↦ h) fun _ ↦
    Triple.bind_get fun m' hm' ↦ ?_
  · subst hm'
    exact ⟨rfl, fun o ↦ (Bool.or_false _).symm⟩
  · split
    · exact Triple.pure fun _ h ↦ h ▸ hm'
    · exact Triple.pure fun _ h ↦ h ▸ hm'

/-- None of the object files is known to be older than its sources. -/
def IsFresh (m : LiveModule) (objects : Path → Prop) : Prop :=
  ∀ o, objects o → m.modified.contains o = false

/-- The tools that a cycle runs are compilers, and behind them the linker at most, which names every
object file that it links anew on its line. In every session, a cycle for changes links no object file
which is still to be compiled when the linker runs. A cycle for object files that were built elsewhere
links these and all that was pending, and what of it was to be compiled when the cycle started is
still to be compiled when the linker runs, so that it links nothing stale exactly when none of it
was. -/
theorem linked_object_files_are_fresh_iff {m : LiveModule} (h : m.Lives) :
    (∀ front b act, m.Approaches front b act → act = front >>= buildUnless ∧
      (∃ (trials : List Trial) (linked : Option Run), (act.run m).2.workshop.runs
          = m.workshop.runs ++ trials.map (Trial.run m) ++ linked.toList ∧
        ∀ run, linked = some run →
          ∃ r s, m.RunsLinker front act r s ∧ run = ⟨r.line, s.files⟩) ∧
      ∀ r s, m.RunsLinker front act r s → ∀ o, r.linkage.recompiled.contains o = true →
        r.line.Names o) ∧
    (∀ r s, m.RunsLinker compileChanged update r s →
      s.IsFresh fun o ↦ r.linkage.recompiled.contains o = true) ∧
    ∀ objects r s, m.RunsLinker (acceptAll objects) (updateWithObjects objects) r s →
      (s.IsFresh (fun o ↦ r.linkage.recompiled.contains o = true) ↔
        m.IsFresh fun o ↦ m.pending.contains o = true ∨ ∃ p ∈ objects, p.same o = true) := by
  refine ⟨fun front b act happroaches ↦ ⟨happroaches.isFront.eq, exists_runs happroaches.isFront m,
    fun r s hlinker o ho ↦ hlinker.links.names ho⟩, fun r s hlinker o _ ↦ ?_,
    fun objects r s hlinker ↦ ?_⟩
  · obtain ⟨m₁, hfront, -, hbooks⟩ := hlinker.links.books
    have hcompiled := retains_compileChanged h.isBalanced m rfl
    rw [hfront] at hcompiled
    have hmodified : s.modified = m₁.modified := congrArg Books.modified hbooks
    rw [hmodified]
    exact hcompiled.2.1 rfl o
  · obtain ⟨m₁, hfront, hrecompiled, hbooks⟩ := hlinker.links.books
    obtain ⟨hmodified, hpending⟩ := (joined_acceptAll m objects).ok rfl hfront
    have hsame : s.modified = m.modified := (congrArg Books.modified hbooks).trans hmodified
    refine forall_congr' fun o ↦ ?_
    dsimp only
    rw [hsame, hrecompiled, show m₁.pending.contains o = _ from hpending o, Bool.or_eq_true,
      List.any_eq_true]

/-- What is found out about the run of the linker that a cycle comes to. -/
theorem exists_runsLinker {P : LinkerRun → LiveModule → Bool} (hfront : IsFront front act)
    (h : (match (approachLinker front).run m with
      | (.ok (some r), s) => P r s
      | _ => false) = true) : ∃ r s, m.RunsLinker front act r s ∧ P r s = true := by
  rcases hrun : (approachLinker front).run m with ⟨_ | _ | r, s⟩ <;> rw [hrun] at h
  · cases h
  · cases h
  · exact ⟨r, s, Links.runsLinker hfront hrun, h⟩

/-- A unit that was just compiled is not stale when it is linked, neither in a cycle for changes nor
in one for its object file. -/
theorem recompiled_unit_is_linked_fresh :
    (∃ r s, (Recompiled.session 0 1).RunsLinker compileChanged update r s ∧
      r.linkage.recompiled.contains ⟨"/o"⟩ = true ∧ r.line.Names ⟨"/o"⟩ ∧
      s.IsFresh fun o ↦ r.linkage.recompiled.contains o = true) ∧
    ∃ r s, (Recompiled.session 0 0).RunsLinker (acceptAll [⟨"/o"⟩])
        (updateWithObjects [⟨"/o"⟩]) r s ∧
      r.linkage.recompiled.contains ⟨"/o"⟩ = true ∧ r.line.Names ⟨"/o"⟩ ∧
      s.IsFresh fun o ↦ r.linkage.recompiled.contains o = true := by
  obtain ⟨r, s, hlinks, hlinked⟩ : ∃ r s,
      (Recompiled.session 0 1).RunsLinker compileChanged update r s ∧
        r.linkage.recompiled.contains ⟨"/o"⟩ = true :=
    exists_runsLinker isFront_compileChanged (by decide +kernel)
  obtain ⟨r', s', hlinks', hlinked'⟩ : ∃ r s, (Recompiled.session 0 0).RunsLinker
      (acceptAll [⟨"/o"⟩]) (updateWithObjects [⟨"/o"⟩]) r s ∧
        r.linkage.recompiled.contains ⟨"/o"⟩ = true :=
    exists_runsLinker (isFront_acceptAll _) (by decide +kernel)
  have hchanged := linked_object_files_are_fresh_iff (Recompiled.lives_session 0 1)
  have hbuilt := linked_object_files_are_fresh_iff (Recompiled.lives_session 0 0)
  exact ⟨⟨r, s, hlinks, hlinked, (hchanged.1 _ _ _ .update).2.2 r s hlinks _ hlinked,
    hchanged.2.1 r s hlinks⟩, r', s', hlinks', hlinked',
    (hbuilt.1 _ _ _ (.updateWithObjects _)).2.2 r' s' hlinks' _ hlinked',
    (hbuilt.2.2 _ r' s' hlinks').mpr fun o _ ↦ PathSet.contains_empty o⟩

/-! A session with a unit and a unit that creates a precompiled header. The unit compiled, but could
not be linked. Then both sources change, the header does not compile any more, and an object file
without a unit is built elsewhere. -/

namespace Overtaken

/-- The unit that creates the header. -/
def header : Compiland :=
  ⟨⟨"/h"⟩, ⟨"/hobj"⟩, ⟨"/d"⟩, ⟨"cl"⟩, "/Ych", ⟨""⟩, none, 2, false⟩

/-- The units of every image. -/
def compilands : CompilandTable := .ofLists [Recompiled.unit, header] []

/-- Tables with the units for every image. -/
def provider : Provider := { Relinked.provider with compilands := fun _ ↦ .ok compilands }

/-- The files, with the sources as they were written at some times, and an object file that is built
elsewhere. -/
def files (time headerTime : Nat) : FileTree :=
  { Relinked.files with
    nodes := (["s"], .file #[] (.written time)) :: (["h"], .file #[] (.written headerTime)) ::
      (["p"], .file Relinked.object (.written 0)) :: Relinked.files.nodes }

/-- The files, and a compiler and a linker that exit with codes. -/
def workshop (compilerCode linkerCode : Int) (files : FileTree) : Workshop :=
  ⟨files, .empty, fun i t ↦ (.ok ⟨if i.tool = ⟨"link"⟩ then linkerCode else compilerCode, ""⟩, t),
    []⟩

/-- The module when it was just loaded. -/
def loaded : LiveModule :=
  { Relinked.started 0 with
    provider := provider
    workshop := workshop 0 1 (files 0 0)
    registry := Registry.empty.insert ⟨"/m"⟩ { ImageTables.empty with compilands } 0x1000
    compilands := compilands.timed (files 0 0) }

/-- The unit was compiled, and waits because it could not be linked. -/
def unlinked : LiveModule :=
  (update.run { loaded with workshop := workshop 0 1 (files 1 0) }).2

/-- Both sources changed, and the header does not compile any more. -/
def uncompiled : LiveModule :=
  (update.run { unlinked with workshop := workshop 2 0 (files 2 1) }).2

/-- A session goes on in another workshop. -/
theorem lives_reworked (h : m.Lives) (w : Workshop) : Lives { m with workshop := w } :=
  h.elapse (.surroundings rfl)

/-- A session goes on behind a cycle that returned. -/
theorem lives_ran {act : CycleM CycleOutcome} (h : m.Lives) (hact : IsCycle act)
    (hreturns : (act.run m).1 ≠ .error .fault) : (act.run m).2.Lives :=
  h.cycle hact rfl hreturns

theorem lives_loaded : loaded.Lives := by
  have hload : load ⟨"/m"⟩ .default provider (workshop 0 1 (files 0 0)) = .ok loaded :=
    load_eq_ok_iff.mpr
      ⟨_, _, _, _, _, rfl, rfl, Relinked.load_image rfl, Relinked.size_image, rfl, rfl⟩
  refine .load _ _ _ _ (fun t ht ↦ ?_) hload
  cases ht
  refine CompilandTable.isFresh_ofLists (fun c hc ↦ ?_) []
  simp only [List.mem_cons, List.not_mem_nil, or_false] at hc
  rcases hc with rfl | rfl <;> rfl

theorem lives_uncompiled : uncompiled.Lives := by
  have hunlinked : unlinked.Lives :=
    lives_ran (lives_reworked lives_loaded _) .update (by decide +kernel)
  exact lives_ran (lives_reworked hunlinked _) .update (by decide +kernel)

end Overtaken

/-- An object file that waits for a link is linked although the unit changed since. -/
theorem overtaken_object_file_is_linked :
    ¬ ∀ {m : LiveModule} {front b act}, m.Lives → m.Approaches front b act →
      ∀ r s, m.RunsLinker front act r s →
        s.IsFresh fun o ↦ r.linkage.recompiled.contains o = true := by
  intro hfresh
  obtain ⟨r, s, hlinker, hstale⟩ : ∃ r s, Overtaken.uncompiled.RunsLinker (acceptAll [⟨"/p"⟩])
      (updateWithObjects [⟨"/p"⟩]) r s ∧
        (r.linkage.recompiled.contains ⟨"/o"⟩ && s.modified.contains ⟨"/o"⟩) = true :=
    exists_runsLinker (isFront_acceptAll _) (by decide +kernel)
  obtain ⟨hlinked, hmodified⟩ := Bool.and_eq_true_iff.mp hstale
  have hnot := hfresh Overtaken.lives_uncompiled (.updateWithObjects _) r s hlinker ⟨"/o"⟩ hlinked
  rw [hmodified] at hnot
  cases hnot

end LiveModule
end LivePatch
