import LivePatch.Proofs.Build.Names
import LivePatch.Proofs.Objects.References
import LivePatch.Proofs.Patch.Timing

/-!
# References to stripped names

A name that was stripped from an object file has no definition left in the patch, so every reference
of the file to it should lead to the existing instance before the entry point runs. It does where
the symbol that owns the reference allows it, which is what the file's own check asks of all of
them. Names that were stripped because they are defined outside the recompiled units were never
checked, and some references to them dangle.
-/

namespace LivePatch.Activation

section

variable {a : Activation} {objects : List (ObjectTable × List String)} {patch : PatchRecord}
  {staged staged' : List Staged} {before : BeforeEntry} {object : ObjectTable}
  {stripped : List String} {name : String} {existing : FoundSymbol}

/-- Nothing else that was edited reaches into the field of a redirection. -/
structure BeforeEntry.IsClear (before : BeforeEntry) (record : ReferenceRedirection) : Prop where
  records : ∀ r ∈ before.records, r = record ∨ Mapping.AreClear r.span record.span
  entry : ∀ span ∈ before.patch.entrySpans, Mapping.AreClear span record.span

/-- A redirection was made: in every process in which it did not fail, its field resolves to the
destination. -/
structure IsMade (a : Activation) (before : BeforeEntry) (staged : List Staged)
    (record : ReferenceRedirection) : Prop where
  mem : record ∈ before.records
  holds : before.IsClear record → List.Forall₂ (fun failed s ↦
    (record, false) ∈ before.records.zip failed →
      record.HoldsIn a.view.registry a.view.token (Staged.sight s)) before.failures staged

/-- What became of a reference that the linker took into the patch: it was redirected to the
existing instance of its destination, or its symbol does not allow that and the linker's own
resolution stands. -/
inductive Settles (a : Activation) (before : BeforeEntry) (staged : List Staged)
    (stripped : List String) (existing : FoundSymbol) (source : String) (rva : UInt32)
    (r : Relocation) : Prop where
  | redirected (h : r.isRedirectable source = true) (field : UInt32)
      (hfield : Word.add32? rva r.offset = some field)
      (made : a.IsMade before staged ⟨r.kind, field, existing.token, existing.rva, r.addend⟩)
  | dangling (h : r.isRedirectable source = false)
      (hresolve : a.view.resolve r source rva stripped = .ok none)

/-- Every reference of a symbol that the linker took is looked at in its phase. -/
theorem resolve_of_references {phase : Phase} {records : List ReferenceRedirection}
    (h : a.references phase objects = .ok records) (hobject : (object, stripped) ∈ objects)
    {s : ObjectSymbol} (hs : s ∈ object.defined) {rva : UInt32}
    (hlinks : a.view.Links object s.name rva) {r : Relocation} (hr : r ∈ s.relocations)
    (hphase : PatchView.phaseOf object stripped r = phase) :
    ∃ found, a.view.resolve r s.name rva stripped = .ok found := by
  obtain ⟨lists, hlists, -⟩ := Outcome.bind_eq_ok_iff.mp h
  obtain ⟨found, -, hcollect⟩ := Pointwise.exists_right (Outcome.forall₂_of_mapM hlists) hobject
  obtain ⟨symbols, hsymbols, -⟩ := Outcome.bind_eq_ok_iff.mp hcollect
  obtain ⟨found, -, hsymbol⟩ := Pointwise.exists_right (Outcome.forall₂_of_mapM hsymbols) hs
  exact PatchView.resolve_of_collectSymbol hsymbol hlinks hr hphase

/-- When the entry point is about to run, every reference to a stripped name is settled. -/
theorem settles_of_beforeEntry (hpatch : patch.token = a.view.token)
    (hobject : (object, stripped) ∈ objects) (hname : name ∈ stripped)
    (hfound : a.view.registry.findSymbol? (some a.view.token) name = some existing)
    (hrun : (a.beforeEntry objects patch).run staged = (.ok before, staged'))
    {s : ObjectSymbol} (hs : s ∈ object.defined) {rva : UInt32}
    (hlinks : a.view.Links object s.name rva) {r : Relocation} (hr : r ∈ s.relocations)
    (htarget : r.target = name) :
    a.Settles before staged' stripped existing s.name rva r := by
  subst htarget
  cases hredirectable : r.isRedirectable s.name with
  | false =>
    refine .dangling hredirectable ?_
    unfold PatchView.resolve
    rw [hredirectable]
    rfl
  | true =>
    have hbefore := fun record ↦ (triple_beforeEntry hpatch record).ok trivial hrun
    have hrecords := (hbefore ⟨r.kind, 0, existing.token, existing.rva, r.addend⟩).1
    have hphase : PatchView.phaseOf object stripped r = .preEntry :=
      PatchView.phaseOf_of_stripped hname
    obtain ⟨found, hresolve⟩ := resolve_of_references hrecords hobject hs hlinks hr hphase
    have hfield : a.view.resolve r s.name rva stripped = _ :=
      PatchView.resolve_of_stripped hname hredirectable hfound
    rw [hfield] at hresolve
    obtain ⟨field, hfit, hresolve⟩ := Outcome.bind_eq_ok_iff.mp hresolve
    cases hresolve
    refine .redirected hredirectable field (Outcome.orFault_eq_ok_iff.mp hfit) ⟨?_, fun hclear ↦ ?_⟩
    · refine (mem_references_iff hrecords).mpr
        ⟨_, hobject, s, hs, rva, hlinks, r, hr, hphase, ?_⟩
      rw [hfield, hfit]
      rfl
    · exact (hbefore _).2 hclear.records hclear.entry

/-- When files were stripped and an activation of the patch comes to the point where the entry point
is about to run:

* Exactly those names went from a file for which there are grounds: the file's own records speak for
  it, or another file's do and this one refers to it, or it lived in a section that was dropped. The
  file's own check asks whether all its references to a name can be redirected.
* The entry point comes behind what has happened so far, which asked agents only to enter a sync point.
* Every reference of the file to a name that went from it and that a loaded image has is settled: if
  its symbol allows that it leads to the existing instance, and otherwise it was left to the linker. -/
theorem references_to_stripped_names_lead_to_existing {registry : Registry} {recompiled : PathSet}
    {owners : SymbolOwners} {strategy : RemovalStrategy} {needed : List Path} {w w' : Workshop}
    {result : Stripped} {path : Path}
    (hstrip : (Stripped.strip registry recompiled owners strategy needed).run w = (.ok result, w'))
    (hpath : path ∈ needed) (hobject : ((Workshop.object path).run w').1 = .ok object)
    (hpatch : patch.token = a.view.token) (hactivated : (object, result.namesIn path) ∈ objects)
    (hrun : (a.beforeEntry objects patch).run staged = (.ok before, staged')) :
    (∃ passages, Stripped.Strips registry recompiled owners strategy needed w result w' passages ∧
      ∃ p ∈ passages, p.read.path.same path = true ∧ p.read.table = object ∧
        ∀ name, name ∈ result.namesIn path ↔
          Stripped.Grounds registry recompiled owners passages p name) ∧
    (∀ read data, ObjectTable.parse read data = .ok object → ∀ name,
      object.canStrip registry name = true ↔
        Names.isRedirectable name = true ∧ registry.containsSymbol name = true ∧
          ∀ reference, ObjectTable.IsReference read data reference → reference.target = name →
            reference.IsRedirectable object) ∧
    (a.run objects patch
        = a.beforeEntry objects patch >>= fun before ↦ a.fromEntry objects before.patch) ∧
    Staged.DoesOnly [.enterSyncPoint] (a.EarlyWrite objects patch) (a.beforeEntry objects patch) ∧
    ∀ name ∈ result.namesIn path, ∀ existing,
      a.view.registry.findSymbol? (some a.view.token) name = some existing →
      ∀ s ∈ object.defined, ∀ rva, a.view.Links object s.name rva → ∀ r ∈ s.relocations,
        r.target = name → a.Settles before staged' (result.namesIn path) existing s.name rva r := by
  obtain ⟨passages, hstrips⟩ := Stripped.exists_passages_of_strip hstrip
  obtain ⟨p, hp, hsame, htable, hnames⟩ := hstrips.namesIn hpath
  have htable : p.read.table = object := by
    rw [Workshop.run_object_of_hasTable htable] at hobject
    exact Except.ok.inj hobject
  refine ⟨⟨passages, hstrips, p, hp, hsame, htable, fun name ↦ ?_⟩,
    fun read data hparse name ↦ ObjectTable.canStrip_iff hparse, a.run_eq objects patch,
    a.doesOnly_beforeEntry objects patch hpatch, ?_⟩
  · rw [hnames]
    exact hstrips.mem_removed_iff hp
  · intro name hname existing hfound s hs rva hlinks r hr htarget
    exact settles_of_beforeEntry hpatch hactivated hname hfound hrun hs hlinks hr htarget

end

/-! A function and its handler of exceptions, which both read a variable of another unit. -/

namespace Handler

/-- An object file with the functions `GetX` and `__catch$GetX`, which read `g_x`. -/
def data : Bytes :=
  -- The header of the file, and that of its only section.
  #[0x64, 0x86, 0x01, 0x00, 0x00, 0x00, 0x00, 0x00, 0x60, 0x00, 0x00, 0x00, 0x03, 0x00, 0x00, 0x00,
    0x00, 0x00, 0x00, 0x00]
  ++ #[0x2e, 0x74, 0x65, 0x78, 0x74, 0x00, 0x00, 0x00, 0x00, 0x00, 0x00, 0x00, 0x00, 0x00, 0x00,
    0x00, 0x10, 0x00, 0x00, 0x00, 0x3c, 0x00, 0x00, 0x00, 0x4c, 0x00, 0x00, 0x00, 0x00, 0x00, 0x00,
    0x00, 0x02, 0x00, 0x00, 0x00, 0x20, 0x00, 0x50, 0x60]
  -- The code of both functions, and a relocation of each.
  ++ #[0x8b, 0x05, 0x00, 0x00, 0x00, 0x00, 0xc3, 0xcc]
  ++ #[0x8b, 0x05, 0x00, 0x00, 0x00, 0x00, 0xc3, 0xcc]
  ++ #[0x02, 0x00, 0x00, 0x00, 0x02, 0x00, 0x00, 0x00, 0x04, 0x00]
  ++ #[0x0a, 0x00, 0x00, 0x00, 0x02, 0x00, 0x00, 0x00, 0x04, 0x00]
  -- Three symbols, and the name that does not fit its record.
  ++ #[0x47, 0x65, 0x74, 0x58, 0x00, 0x00, 0x00, 0x00, 0x00, 0x00, 0x00, 0x00, 0x01, 0x00, 0x20,
    0x00, 0x02, 0x00]
  ++ #[0x00, 0x00, 0x00, 0x00, 0x04, 0x00, 0x00, 0x00, 0x08, 0x00, 0x00, 0x00, 0x01, 0x00, 0x20,
    0x00, 0x02, 0x00]
  ++ #[0x67, 0x5f, 0x78, 0x00, 0x00, 0x00, 0x00, 0x00, 0x00, 0x00, 0x00, 0x00, 0x00, 0x00, 0x00,
    0x00, 0x02, 0x00]
  ++ #[0x11, 0x00, 0x00, 0x00, 0x5f, 0x5f, 0x63, 0x61, 0x74, 0x63, 0x68, 0x24, 0x47, 0x65, 0x74,
    0x58, 0x00]

/-- The object file's name. -/
def path : Path := ⟨"/b.obj"⟩

/-- The reference to the variable, two bytes behind the start of either function. -/
def reference : Relocation := ⟨2, "g_x", 0, .relative 0⟩

/-- The function. -/
def function : ObjectSymbol := ⟨0, "GetX", some 1, 0, true, true, false, false, [reference]⟩

/-- The handler. -/
def handler : ObjectSymbol :=
  ⟨1, "__catch$GetX", some 1, 8, true, true, false, false, [reference]⟩

/-- The tables of the object file. -/
def table : ObjectTable :=
  ⟨path, Fingerprint.ofPath path,
    [function, handler, ⟨2, "g_x", none, 0, false, true, true, false, []⟩], [], []⟩

/-- The object file and what works with it. -/
def workshop : Workshop :=
  ⟨⟨[(["b.obj"], .file data (.written 0))], .written 0, [], 1⟩, .empty, fun _ t ↦ (.ok ⟨0, ""⟩, t), []⟩

/-- What is known of the module, which has the variable, and of the patch. -/
def tables (symbols : List (String × UInt32)) : ImageTables :=
  ⟨.ofList symbols, .empty, .empty, .empty, []⟩

/-- The module and its patch in one process. -/
def registry : Registry :=
  (((Registry.empty.insert ⟨"/module"⟩ (tables [("g_x", 0x20)]) 0x1000).register .module 7
    0x140000000).insert ⟨"/patch"⟩ (tables [("GetX", 0x10), ("__catch$GetX", 0x18)])
    0x1000).register ⟨1⟩ 7 0x140010000

/-- An activation of the patch. -/
def activation : Activation where
  files := .empty
  view := ⟨registry, ⟨1⟩, tables [("GetX", 0x10), ("__catch$GetX", 0x18)]⟩
  image := ⟨⟨"/patch"⟩, #[]⟩

/-- The process. -/
def staged : Staged :=
  .ofProcess ⟨((Target.ofPid 7).map 0x140000000 (Bytes.fill 0x30 0)).map 0x140010000
    (Bytes.fill 0x20 0), .willing, none, 0x140000000, []⟩

/-- The patch before it is activated. -/
def patch : PatchRecord := .bare ⟨"/patch"⟩ ⟨1⟩ 0x1000 none

/-- Stripping the file, which was recompiled. Its variable is not defined in a recompiled unit. -/
def stripping : Outcome Stripped × Workshop :=
  (Stripped.strip registry (.ofList [path]) [] .debugSection [path]).run workshop

/-- What reading the file, stripping it and activating the patch come to. -/
private class Evaluation : Prop where
  stripped : ObjectTable.parse path data = .ok table ∧
    stripping.1.map (fun result ↦ result.namesIn path) = .ok ["g_x"] ∧
    ((Workshop.object path).run stripping.2).1 = .ok table
  found : (registry.findSymbol? (some ⟨1⟩) "g_x").map (fun e ↦ (e.token, e.rva))
    = some (.module, 0x20)
  activated : ((activation.beforeEntry [(table, ["g_x"])] patch).run [staged]).1.map
      (fun b ↦ b.failures) = .ok [[false]] ∧
    ((activation.beforeEntry [(table, ["g_x"])] patch).run [staged]).2.map
      (fun s ↦ (s.process.pid, s.process.target.memory.read 0x14001001a 4))
        = [(7, .ok #[0, 0, 0, 0])]

private instance evaluation : Evaluation where
  stripped := by decide +kernel
  found := by decide +kernel
  activated := by decide +kernel

private theorem stripping_eq : ∃ result, stripping = (.ok result, stripping.2) ∧
    result.namesIn path = ["g_x"] := by
  have hnames := evaluation.stripped.2.1
  generalize stripping = r at hnames
  obtain ⟨_ | result, w'⟩ := r
  · cases hnames
  · exact ⟨result, rfl, Except.ok.inj hnames⟩

private theorem found : ∃ existing, registry.findSymbol? (some ⟨1⟩) "g_x" = some existing ∧
    existing.token = .module ∧ existing.rva = 0x20 := by
  obtain ⟨existing, hexisting, heq⟩ := Option.map_eq_some_iff.mp evaluation.found
  exact ⟨existing, hexisting, Prod.mk.inj heq⟩

private theorem run_activation : ∃ before s,
    (activation.beforeEntry [(table, ["g_x"])] patch).run [staged] = (.ok before, [s]) ∧
      before.failures = [[false]] ∧ s.process.pid = 7 ∧
      s.process.target.memory.read 0x14001001a 4 = .ok #[0, 0, 0, 0] := by
  obtain ⟨hbefore, hprocess⟩ := evaluation.activated
  generalize (activation.beforeEntry [(table, ["g_x"])] patch).run [staged] = r
    at hbefore hprocess ⊢
  obtain ⟨result, staged'⟩ := r
  obtain ⟨s, rfl, hs⟩ := List.map_eq_singleton_iff.mp hprocess
  cases result with
  | error _ => cases hbefore
  | ok before =>
    exact ⟨before, s, rfl, Except.ok.inj hbefore, Prod.mk.inj hs⟩

end Handler

open Handler in
/-- The variable went from the file, which does not define it, and the reference of the function to it
is settled. -/
theorem function_reference_to_stripped_name_leads_to_existing : ∃ result before s existing,
    stripping = (.ok result, stripping.2) ∧
    (∃ passages, Stripped.Strips registry (.ofList [path]) [] .debugSection [path] workshop result
      stripping.2 passages ∧ ∃ p ∈ passages, p.read.table = table ∧
        Stripped.Grounds registry (.ofList [path]) [] passages p "g_x") ∧
    (table.canStrip registry "g_x" = true ↔
      Names.isRedirectable "g_x" = true ∧ registry.containsSymbol "g_x" = true ∧
        ∀ reference, ObjectTable.IsReference path data reference → reference.target = "g_x" →
          reference.IsRedirectable table) ∧
    (activation.beforeEntry [(table, result.namesIn path)] Handler.patch).run [Handler.staged]
      = (.ok before, [s]) ∧
    registry.findSymbol? (some ⟨1⟩) "g_x" = some existing ∧
    activation.Settles before [s] (result.namesIn path) existing "GetX" 0x10 reference := by
  obtain ⟨result, hstripping, hnames⟩ := stripping_eq
  obtain ⟨before, s, hrun, -⟩ := run_activation
  obtain ⟨existing, hexisting, -⟩ := found
  rw [← hnames] at hrun
  have hname : "g_x" ∈ result.namesIn path := hnames ▸ List.mem_singleton_self _
  obtain ⟨⟨passages, hstrips, p, hp, -, htable, hgrounds⟩, hcheck, -, -, hsettles⟩ :=
    references_to_stripped_names_lead_to_existing hstripping (List.mem_singleton_self _)
      evaluation.stripped.2.2 rfl (List.mem_singleton_self _) hrun
  refine ⟨result, before, s, existing, hstripping,
    ⟨passages, hstrips, p, hp, htable, (hgrounds _).mp hname⟩, hcheck _ _ evaluation.stripped.1 _, hrun,
    hexisting, ?_⟩
  exact hsettles _ hname existing hexisting function (by decide +kernel) 0x10
    ⟨by decide +kernel, by decide +kernel⟩ reference (List.mem_singleton_self _) rfl

open Handler in
/-- The variable was stripped from the file, which refers to it in the handler too; that reference
was left to the linker and does not lead to the existing instance when the entry point is about to
run. -/
theorem handler_reference_to_stripped_name_dangles : ∃ result before s existing,
    stripping = (.ok result, stripping.2) ∧ "g_x" ∈ result.namesIn path ∧
    ((Workshop.object path).run stripping.2).1 = .ok table ∧
    (activation.beforeEntry [(table, result.namesIn path)] Handler.patch).run [Handler.staged]
      = (.ok before, [s]) ∧
    registry.findSymbol? (some ⟨1⟩) "g_x" = some existing ∧
    handler ∈ table.defined ∧ reference ∈ handler.relocations ∧ reference.target = "g_x" ∧
    activation.view.Links table handler.name 0x18 ∧
    ¬ReferenceRedirection.HoldsIn
      ⟨reference.kind, 0x18 + reference.offset, existing.token, existing.rva, reference.addend⟩
      registry ⟨1⟩ s.sight := by
  obtain ⟨result, hstripping, hnames⟩ := stripping_eq
  obtain ⟨before, s, hrun, -, hpid, hread⟩ := run_activation
  obtain ⟨existing, hexisting, htoken, hrva⟩ := found
  rw [← hnames] at hrun
  refine ⟨result, before, s, existing, hstripping, hnames ▸ List.mem_singleton_self _,
    evaluation.stripped.2.2, hrun, hexisting, by decide +kernel, List.mem_singleton_self _, rfl,
    ⟨by decide +kernel, by decide +kernel⟩, fun hholds ↦ ?_⟩
  have hsight : s.sight.1 = 7 := hpid
  rw [htoken, hrva] at hholds
  obtain ⟨p, field, hp, hfield, hresolves⟩ := hholds ⟨0x140010000, 0x1000⟩ 0x140000000
    (by rw [hsight]; decide +kernel) (by rw [hsight]; decide +kernel)
  cases hp
  cases hread.symm.trans hfield
  revert hresolves
  decide +kernel

end LivePatch.Activation
