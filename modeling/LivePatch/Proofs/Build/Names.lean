import LivePatch.Proofs.Build.Backups
import LivePatch.Proofs.Build.Sections
import LivePatch.Proofs.Paths

/-!
# Names that are stripped

Which names go from each of several object files. A name goes from a file by itself, since a record
of it says so; or it goes from another file by itself and this one still refers to it; or a symbol of
that name lives in a section that is dropped. These are all, and stripping answers exactly these
names for every file.
-/

namespace LivePatch

namespace Stripping

variable {registry : Registry} {recompiled : PathSet} {owners : SymbolOwners}

/-! ### Names that a pass strips -/

/-- What was stripped from a file so far: it has its tables, exactly certain names went, and those
that are to go from every file are among certain ones. -/
structure HasLost (t : ObjectTable) (P N : String → Prop) (s : Stripping) : Prop where
  table : s.table = t
  removed : ∀ name, name ∈ s.removed ↔ N name
  forced : ∀ name ∈ s.forced, P name

section Steps

variable {t : ObjectTable} {P N N' : String → Prop}

theorem HasLost.congr {s : Stripping} (h : HasLost t P N s) (heq : ∀ name, N name ↔ N' name) :
    HasLost t P N' s :=
  ⟨h.table, fun name ↦ (h.removed name).trans (heq name), h.forced⟩

theorem hasLost_edit {α : Type} (act : Coff.EditM α) : Keeps (HasLost t P N) (edit act) :=
  Keeps.of_run fun _ hs ↦ ⟨hs.table, hs.removed, hs.forced⟩

theorem hasLost_force {name : String} (h : P name) : Keeps (HasLost t P N) (force name) := by
  refine Keeps.modify fun s hs ↦ ⟨hs.table, hs.removed, fun other hother ↦ ?_⟩
  dsimp only at hother
  split at hother
  · exact hs.forced other hother
  · rcases List.mem_cons.mp hother with rfl | hother
    · exact h
    · exact hs.forced other hother

/-- Removing a symbol strips its name. -/
theorem hasLost_remove (raw : Coff.EditorSymbol) (name : String) :
    Triple (HasLost t P N) (remove raw name)
      (fun _ ↦ HasLost t P fun other ↦ N other ∨ other = name) fun _ ↦ True := by
  refine Triple.bind (hasLost_edit _).any fun _ ↦
    Triple.modify fun s hs ↦ ⟨hs.table, fun other ↦ ?_, hs.forced⟩
  have hremoved := hs.removed
  dsimp only
  split
  · next hmem =>
    rw [List.contains_iff_mem, hremoved] at hmem
    rw [hremoved]
    exact ⟨.inl, fun h ↦ h.elim id fun heq ↦ heq ▸ hmem⟩
  · rw [List.mem_cons, hremoved]
    exact or_comm

/-- Carrying out the verdict on a record strips the name for which it speaks. -/
theorem hasLost_execute (raw : Coff.EditorSymbol) (v : Verdict)
    (h : ∀ name, v.name? = some name → P name) :
    Triple (HasLost t P N) (execute raw v)
      (fun _ ↦ HasLost t P fun name ↦ N name ∨ v.name? = some name) fun _ ↦ True := by
  have hsame : ∀ {name other : String}, other = name ↔ some name = some other := by
    intro name other
    rw [Option.some.injEq, eq_comm]
  cases v with
  | stays => exact Triple.pure fun _ hs ↦ hs.congr fun name ↦ by simp [Verdict.name?]
  | goes name =>
    exact (hasLost_remove raw name).mono (fun _ hs ↦ hs)
      (fun _ _ hs ↦ hs.congr fun _ ↦ or_congr_right hsame) fun _ hs ↦ hs
  | goesEverywhere name =>
    exact Triple.bind (hasLost_force (h name rfl)).any fun _ ↦
      (hasLost_remove raw name).mono (fun _ hs ↦ hs)
        (fun _ _ hs ↦ hs.congr fun _ ↦ or_congr_right hsame) fun _ hs ↦ hs

end Steps

/-- A name goes from a file by itself: one of its records says so. -/
def IsKnown (registry : Registry) (recompiled : PathSet) (owners : SymbolOwners) (s : Stripping)
    (name : String) : Prop :=
  ∃ listed, s.editor.symbols = .ok listed ∧
    ∃ raw ∈ listed, GoesByItself registry recompiled owners s.table raw name

/-- Stripping a file of what is known strips the names that go from it by themselves. -/
theorem hasLost_stripKnown (s : Stripping) (hremoved : s.removed = []) (hforced : s.forced = []) :
    Triple (· = s) (stripKnown registry recompiled owners)
      (fun _ ↦ HasLost s.table (s.IsKnown registry recompiled owners)
        (s.IsKnown registry recompiled owners)) fun _ ↦ True := by
  refine Triple.bind_get fun s' heq ↦ ?_
  subst heq
  refine Triple.bind_lift (fun listed hlisted ↦ ?_) fun _ _ ↦ trivial
  have hknown : ∀ name, (∃ raw ∈ listed,
      (verdict registry recompiled owners s'.table raw).name? = some name) ↔
        s'.IsKnown registry recompiled owners name := by
    intro name
    simp only [IsKnown, hlisted, Except.ok.injEq, exists_eq_left', name?_verdict_iff]
  have hall : Triple (HasLost s'.table (s'.IsKnown registry recompiled owners) fun name ↦
      ∃ raw ∈ ([] : List Coff.EditorSymbol),
        (verdict registry recompiled owners s'.table raw).name? = some name)
      (listed.forM (stripSymbol registry recompiled owners))
      (fun _ ↦ HasLost s'.table (s'.IsKnown registry recompiled owners) fun name ↦ ∃ raw ∈ listed,
        (verdict registry recompiled owners s'.table raw).name? = some name) fun _ ↦ True := by
    refine Triple.forM_along (I := fun done ↦ HasLost s'.table
      (s'.IsKnown registry recompiled owners) fun name ↦ ∃ raw ∈ done,
        (verdict registry recompiled owners s'.table raw).name? = some name)
      fun done raw rest heq ↦ ?_
    have hraw : raw ∈ listed := heq ▸ List.mem_append_right _ (List.mem_cons_self ..)
    rw [stripSymbol_eq]
    refine Triple.bind_get fun s hs ↦ ?_
    rw [hs.table]
    refine (hasLost_execute raw _ fun name hname ↦ (hknown name).mp ⟨raw, hraw, hname⟩).mono
      (fun _ h ↦ h ▸ hs) (fun _ _ h ↦ h.congr fun name ↦ ?_) fun _ h ↦ h
    simp only [List.mem_append, List.mem_singleton, or_and_right, exists_or, exists_eq_left]
  refine Triple.bind (hall.mono (fun _ h ↦ ?_) (fun _ _ h ↦ h) fun _ h ↦ h) fun _ ↦
    Triple.bind (hasLost_edit _).any fun _ ↦ Triple.pure fun _ h ↦ h.congr hknown
  subst h
  exact ⟨rfl, by simp [hremoved], by simp [hforced]⟩

/-- A record of a file that refers to a name and is alive. -/
def IsReference (t : ObjectTable) (raw : Coff.EditorSymbol) (name : String) : Prop :=
  raw.sectionNumber = 0 ∧ raw.isRemoved = false ∧
    ∃ s, symbolAt? t raw = some s ∧ s.isUndefined = true ∧ s.name = name

/-- A file refers to a name. -/
def Refers (s : Stripping) (name : String) : Prop :=
  ∃ listed, s.editor.symbols = .ok listed ∧ ∃ raw ∈ listed, IsReference s.table raw name

/-- Stripping one reference strips its name if it is one of those to go. -/
theorem hasLost_stripReference {t : ObjectTable} {N : String → Prop} (everywhere : List String)
    (raw : Coff.EditorSymbol) :
    Triple (HasLost t (fun _ ↦ True) N) (stripReference everywhere raw)
      (fun _ ↦ HasLost t (fun _ ↦ True) fun name ↦
        N name ∨ name ∈ everywhere ∧ IsReference t raw name) fun _ ↦ True := by
  unfold stripReference
  split
  · next hskip =>
    refine Triple.pure fun s hs ↦ hs.congr fun name ↦ ?_
    refine ⟨.inl, fun h ↦ h.elim id fun h ↦ ?_⟩
    simp [h.2.1, h.2.2.1] at hskip
  · next hlook =>
    obtain ⟨hzero, halive⟩ : raw.sectionNumber = 0 ∧ raw.isRemoved = false := by simpa using hlook
    refine Triple.bind_get fun s hs ↦ ?_
    rw [hs.table]
    split
    · next hnone =>
      refine Triple.pure fun s' h ↦ h ▸ hs.congr fun name ↦ ?_
      refine ⟨.inl, fun h ↦ h.elim id ?_⟩
      rintro ⟨-, -, -, symbol, hsymbol, hundefined, -⟩
      simp [hsymbol, hundefined] at hnone
    · next symbol hsymbol =>
      obtain ⟨hsymbol, hundefined⟩ := Option.filter_eq_some_iff.mp hsymbol
      have hown : ∀ name, IsReference t raw name ↔ symbol.name = name := by
        intro name
        refine ⟨?_, fun hname ↦ ⟨hzero, halive, symbol, hsymbol, hundefined, hname⟩⟩
        rintro ⟨-, -, symbol', hsymbol', -, hname⟩
        cases hsymbol.symm.trans hsymbol'
        exact hname
      simp only [hown]
      split
      · next hgo =>
        have hmem : symbol.name ∈ everywhere := by simpa using (Bool.and_eq_true_iff.mp hgo).1
        refine (Triple.bind (hasLost_remove raw symbol.name) fun _ ↦
          (hasLost_force (P := fun _ ↦ True) trivial).any).mono (fun _ h ↦ h ▸ hs)
          (fun _ _ h ↦ h.congr fun name ↦ or_congr_right ?_) fun _ h ↦ h
        exact ⟨fun heq ↦ ⟨heq ▸ hmem, heq.symm⟩, fun h ↦ h.2.symm⟩
      · next hstay =>
        refine Triple.pure fun s' h ↦ h ▸ hs.congr fun name ↦ ?_
        refine ⟨.inl, fun h ↦ h.elim id ?_⟩
        rintro ⟨hmem, rfl⟩
        rw [← hs.removed]
        simpa [hmem] using hstay

/-- Stripping a file of references strips the names to go that it refers to. -/
theorem hasLost_stripReferences {N P : String → Prop} (everywhere : List String) (s : Stripping)
    (hs : HasLost s.table P N s) :
    Triple (· = s) (stripReferences everywhere)
      (fun _ ↦ HasLost s.table (fun _ ↦ True) fun name ↦
        N name ∨ name ∈ everywhere ∧ s.Refers name) fun _ ↦ True := by
  refine Triple.bind_get fun s' heq ↦ ?_
  subst heq
  refine Triple.bind_lift (fun listed hlisted ↦ ?_) fun _ _ ↦ trivial
  have hall : Triple (HasLost s'.table (fun _ ↦ True) fun name ↦ N name ∨
      ∃ raw ∈ ([] : List Coff.EditorSymbol), name ∈ everywhere ∧ IsReference s'.table raw name)
      (listed.forM (stripReference everywhere))
      (fun _ ↦ HasLost s'.table (fun _ ↦ True) fun name ↦ N name ∨
        ∃ raw ∈ listed, name ∈ everywhere ∧ IsReference s'.table raw name) fun _ ↦ True := by
    refine Triple.forM_along (I := fun done ↦ HasLost s'.table (fun _ ↦ True) fun name ↦ N name ∨
      ∃ raw ∈ done, name ∈ everywhere ∧ IsReference s'.table raw name) fun done raw rest heq ↦ ?_
    refine (hasLost_stripReference everywhere raw).mono (fun _ h ↦ h)
      (fun _ _ h ↦ h.congr fun name ↦ ?_) fun _ h ↦ h
    simp only [List.mem_append, List.mem_singleton, or_and_right, exists_or, exists_eq_left,
      or_assoc]
  refine hall.mono (fun _ h ↦ ?_) (fun _ _ h ↦ h.congr fun name ↦ or_congr_right ?_) fun _ h ↦ h
  · subst h
    exact ⟨rfl, fun name ↦ (hs.removed name).trans (by simp), fun _ _ ↦ trivial⟩
  · refine ⟨fun ⟨raw, hraw, hmem, href⟩ ↦ ⟨hmem, listed, hlisted, raw, hraw, href⟩, ?_⟩
    rintro ⟨hmem, listed', hlisted', raw, hraw, href⟩
    cases hlisted.symm.trans hlisted'
    exact ⟨raw, hraw, hmem, href⟩

/-- A name goes from a file along with a section that is dropped: a symbol that lives there stands
for it, which is local to the section or may be stripped. -/
def GoesAlong (registry : Registry) (s : Stripping) (name : String) : Prop :=
  ∃ plan listed, s.planSections registry = .ok plan ∧ s.editor.symbols = .ok listed ∧
    ∃ number ∈ plan.1, ∃ raw ∈ listed, livesIn number raw = true ∧ nameOf s.table raw = name ∧
      (raw.storageClass = Coff.classStatic ∨ raw.storageClass = Coff.classLabel ∨
        s.table.canStrip registry name = true)

/-- The names of the symbols that go along with sections. -/
theorem goesAlong_iff {s : Stripping} {plan : List Nat × List (Coff.EditorSymbol × String)}
    (hplan : s.planSections registry = .ok plan) (name : String) :
    s.GoesAlong registry name ↔ ∃ p ∈ plan.2, p.2 = name := by
  obtain ⟨listed, hlisted, -⟩ := Outcome.bind_eq_ok_iff.mp hplan
  have hsymbols := @mem_planSections_symbols_iff s listed registry plan hlisted hplan
  constructor
  · rintro ⟨plan', listed', hplan', hlisted', number, hnumber, raw, hraw, hlives, hname, -⟩
    cases hplan.symm.trans hplan'
    cases hlisted.symm.trans hlisted'
    exact ⟨(raw, name), hsymbols.mpr ⟨hraw, hname, number, hnumber, hlives⟩, rfl⟩
  · rintro ⟨⟨raw, _⟩, hp, rfl⟩
    obtain ⟨hraw, hname, number, hnumber, hlives⟩ := hsymbols.mp hp
    refine ⟨plan, listed, hplan, hlisted, number, hnumber, raw, hraw, hlives, hname, ?_⟩
    have hleave := canLeave_of_mem_planSections hplan hp
    simpa [canLeave, or_assoc] using hleave

/-- Dropping sections strips the names that go along with them. -/
theorem hasLost_finish {N P : String → Prop} (strategy : RemovalStrategy) (s : Stripping)
    (hs : HasLost s.table P N s) :
    Triple (· = s) (finish registry strategy)
      (fun _ ↦ HasLost s.table P fun name ↦ N name ∨ s.GoesAlong registry name) fun _ ↦ True := by
  have hempty : Triple (· = s) (removeEmptied registry)
      (fun _ ↦ HasLost s.table P fun name ↦ N name ∨ s.GoesAlong registry name) fun _ ↦ True := by
    refine Triple.bind_get fun s' heq ↦ ?_
    subst heq
    split
    · next hnone =>
      have hstays : ∀ name, ¬ s'.GoesAlong registry name := ?_
      · refine Triple.pure fun _ h ↦ ?_
        rw [h]
        exact hs.congr fun name ↦ by simp [hstays name]
      rintro name ⟨plan, listed, hplan, hlisted, number, hnumber, -⟩
      obtain ⟨_, -, hrest⟩ := Outcome.bind_eq_ok_iff.mp hplan
      obtain ⟨sections, hsections, -⟩ := Outcome.bind_eq_ok_iff.mp hrest
      refine (forall_mem_planSections (P := fun _ ↦ False) hlisted hsections hplan (fun n hn ↦ ?_)
        (fun _ _ _ h _ ↦ h) number hnumber).elim
      simp [IsEmptied, emptiedSections, List.isEmpty_iff.mp hnone] at hn
    · refine Triple.bind_lift (fun plan hplan ↦ ?_) fun _ _ ↦ trivial
      have hall : Triple (HasLost s'.table P fun name ↦ N name ∨
          ∃ p ∈ ([] : List (Coff.EditorSymbol × String)), p.2 = name)
          (plan.2.forM fun p ↦ remove p.1 p.2)
          (fun _ ↦ HasLost s'.table P fun name ↦ N name ∨ ∃ p ∈ plan.2, p.2 = name)
          fun _ ↦ True := by
        refine Triple.forM_along (I := fun (done : List (Coff.EditorSymbol × String)) ↦
          HasLost s'.table P fun name ↦ N name ∨ ∃ p ∈ done, p.2 = name) fun done p rest heq ↦ ?_
        refine (hasLost_remove p.1 p.2).mono (fun _ h ↦ h) (fun _ _ h ↦ h.congr fun name ↦ ?_)
          fun _ h ↦ h
        simp only [List.mem_append, List.mem_singleton, or_and_right, exists_or, exists_eq_left,
          or_assoc, eq_comm (a := name)]
      refine Triple.bind (hall.mono (fun _ h ↦ ?_) (fun _ _ h ↦ h) fun _ h ↦ h) fun _ ↦ ?_
      · subst h
        exact hs.congr fun name ↦ by simp
      · exact (Keeps.forM fun _ _ ↦ hasLost_edit _).any.mono
          (fun _ h ↦ h.congr fun name ↦ or_congr_right (goesAlong_iff hplan name).symm)
          (fun _ _ h ↦ h) fun _ h ↦ h
  refine Triple.bind hempty fun _ ↦ ?_
  split
  · exact (hasLost_edit _).any
  · exact Triple.pure fun _ h ↦ h

end Stripping

/-! ### Tables and files while files are stripped -/

namespace ObjectCache

variable {files : FileTree} {path path' : Path} {table : ObjectTable}

/-- The tables of an object file are kept. -/
def HasTable (c : ObjectCache) (path : Path) (table : ObjectTable) : Prop :=
  ∃ serial, c.get? path = some ⟨serial, table⟩

theorem HasTable.congr {c : ObjectCache} (h : c.HasTable path table)
    (hsame : path.same path' = true) : c.HasTable path' table :=
  h.imp fun _ hcached ↦ (PathMap.find?_congr _ hsame).symm.trans hcached

theorem get?_added (c : ObjectCache) (path : Path) (table : ObjectTable) (q : Path) :
    (c.added path table).get? q = if path.same q then some ⟨c.readings, table⟩ else c.get? q :=
  PathMap.find?_insert ..

/-- The tables of a file that was asked for are kept. -/
theorem hasTable_load (path : Path) :
    Triple (fun _ ↦ True) (load files path) (fun cached c ↦ c.HasTable path cached.table)
      fun _ ↦ True := by
  refine Triple.bind_get fun c _ ↦ ?_
  split
  · next cached hcached => exact Triple.pure fun _ h ↦ ⟨cached.serial, h ▸ hcached⟩
  · refine Triple.bind_lift (fun table _ ↦ Triple.bind_get fun c' _ ↦ ?_) fun _ _ ↦ trivial
    refine Triple.bind (R := fun _ c ↦ c.HasTable path table) (Triple.set fun _ _ ↦ ?_) fun _ ↦
      Triple.pure fun _ h ↦ h
    exact ⟨c'.readings, by rw [get?_added, Path.same_refl, if_pos rfl]⟩

/-- Tables that are kept stay when others are asked for. -/
theorem HasTable.load (path' : Path) :
    Keeps (fun c ↦ c.HasTable path table) (ObjectCache.load files path') := by
  refine Triple.bind_get fun c hc ↦ ?_
  split
  · exact Triple.pure fun _ h ↦ h ▸ hc
  · next hnone =>
    refine Triple.bind_lift (fun table' _ ↦ Triple.bind_get fun c' h ↦ ?_) fun _ h ↦ h ▸ hc
    subst h
    refine Triple.bind (R := fun _ c ↦ c.HasTable path table) (Triple.set fun _ _ ↦ ?_) fun _ ↦
      Triple.pure fun _ h ↦ h
    obtain ⟨serial, hcached⟩ := hc
    refine ⟨serial, ?_⟩
    rw [get?_added, if_neg, hcached]
    intro hsame
    rw [get?, PathMap.find?_congr _ hsame] at hnone
    cases hnone.symm.trans hcached

/-- Tables that are kept are what asking for the file comes to. -/
theorem HasTable.run_load {c : ObjectCache} (files : FileTree) (h : c.HasTable path table) :
    ∃ serial, (ObjectCache.load files path).run c = (.ok ⟨serial, table⟩, c) := by
  obtain ⟨serial, hcached⟩ := h
  refine ⟨serial, ?_⟩
  unfold ObjectCache.load
  rw [run_bind, run_get]
  dsimp only
  rw [hcached]
  rfl

end ObjectCache

namespace Workshop

variable {P S : ObjectCache → Prop} {α : Type} {path : Path} {table : ObjectTable}

/-- Work on cached tables. -/
theorem triple_onObjects {act : FileTree → ExceptT Stop (StateM ObjectCache) α}
    {Q : α → ObjectCache → Prop} (h : ∀ files, Triple P (act files) Q S) :
    Triple (fun w ↦ P w.objects) (onObjects act) (fun a w ↦ Q a w.objects) fun w ↦ S w.objects := by
  intro w hw
  have hact := h w.files w.objects hw
  have hrun : (onObjects act).run w = (((act w.files).run w.objects).1,
    { w with objects := ((act w.files).run w.objects).2 }) := rfl
  rw [hrun]
  generalize (act w.files).run w.objects = r at hact ⊢
  rcases r with ⟨_ | _, _⟩ <;> exact hact

theorem hasTable_object (path : Path) :
    Triple (fun _ ↦ True) (object path) (fun table w ↦ w.objects.HasTable path table)
      fun _ ↦ True :=
  (triple_onObjects fun _ ↦ ObjectCache.hasTable_load path).bind fun _ ↦ Triple.pure fun _ h ↦ h

theorem keeps_hasTable_object (path' : Path) :
    Keeps (fun w ↦ w.objects.HasTable path table) (object path') :=
  Keeps.bind (triple_onObjects fun _ ↦ ObjectCache.HasTable.load path') fun _ ↦ Keeps.pure _

/-- Asking for an object file whose tables are kept. -/
theorem run_object_of_hasTable {w : Workshop} (h : w.objects.HasTable path table) :
    (object path).run w = (.ok table, w) := by
  obtain ⟨serial, hload⟩ := ObjectCache.HasTable.run_load w.files h
  have hon : (onObjects fun files ↦ ObjectCache.load files path).run w
      = (((ObjectCache.load w.files path).run w.objects).1,
        { w with objects := ((ObjectCache.load w.files path).run w.objects).2 }) := rfl
  unfold object
  rw [run_bind, hon, hload]
  rfl

end Workshop

namespace Backup

/-- Files in which object files lie apart. -/
def AreSafe (t : FileTree) (objects : List Path) : Prop := t.IsTree ∧ AreApart t.home objects

/-- Files that became others, but the object files. -/
structure AreUnedited (objects : List Path) (t t' : FileTree) : Prop where
  home : t'.home = t.home
  isTree : t'.IsTree
  kept : ∀ o ∈ objects, t'.read? o = t.read? o

variable {objects : List Path} {t t' : FileTree}

/-- Backing an object file up leaves the object files alone. -/
theorem areUnedited_make (hsafe : AreSafe t objects) {o : Path} (ho : o ∈ objects) :
    Keeps (AreUnedited objects t) (make o) := by
  refine Triple.bind (Files.triple_change _).inContext fun _ ↦ Triple.pure ?_
  rintro u ⟨t', ht', hcopy⟩
  obtain ⟨data, -, hsets⟩ := FileTree.sets_of_copy? ht'.isTree hcopy
  refine ⟨hsets.home.trans ht'.home, hsets.isTree, fun o' ho' ↦ ?_⟩
  rw [hsets.others o' ?_, ht'.kept o' ho']
  rw [ht'.home]
  exact (hsafe.2.backups o ho o' ho').symm

/-- Writing an object file sets its contents, and those of no other one. -/
theorem triple_save {home : Location} (e : Coff.Editor) (o : Path) :
    Triple (fun t ↦ t.home = home ∧ t.IsTree) (e.save o)
      (fun _ t ↦ (t.home = home ∧ t.IsTree) ∧ t.read? o = some e.data)
      fun t ↦ t.home = home ∧ t.IsTree := by
  refine Triple.inContext ((Files.triple_change _).mono (fun _ h ↦ h) ?_ fun _ h ↦ h)
  rintro _ u ⟨t', ht', hwrite⟩
  have hsets := FileTree.sets_of_write? ht'.2 hwrite
  exact ⟨⟨hsets.home.trans ht'.1, hsets.isTree⟩, hsets.own⟩

theorem keeps_read_save {e : Coff.Editor} {home : Location} {o o' : Path} {data : Option Bytes}
    (hne : o.location home ≠ o'.location home) :
    Keeps (fun t ↦ (t.home = home ∧ t.IsTree) ∧ t.read? o = data) (e.save o') := by
  refine Triple.inContext ((Files.triple_change _).mono (fun _ h ↦ h) ?_ fun _ h ↦ h)
  rintro _ u ⟨t', ht', hwrite⟩
  have hsets := FileTree.sets_of_write? ht'.1.2 hwrite
  refine ⟨⟨hsets.home.trans ht'.1.1, hsets.isTree⟩, ?_⟩
  rw [hsets.others o (by rwa [ht'.1.1]), ht'.2]

end Backup

/-! ### Runs of stripping -/

namespace Stripped

open Stripping Backup

/-- What becomes of one of several files: as it was read, stripped of what is known, stripped of what
was stripped from others, and without emptied sections. -/
structure Passage where
  read : Stripping
  known : Stripping
  spread : Stripping
  finished : Stripping

/-- Stripping a file of what was stripped from others, if there are others. -/
def Spreads (names : List String) (s s' : Stripping) : Prop :=
  (stripReferences names).run s = (.ok (), s') ∨ names = [] ∧ s' = s

/-- The names that are to go from every file, when there are several. -/
def everywhere (passages : List Passage) : List String :=
  if 1 < passages.length then passages.flatMap fun p ↦ p.known.removed ++ p.known.forced else []

variable (registry : Registry) (recompiled : PathSet) (owners : SymbolOwners)
  (strategy : RemovalStrategy)

/-- A file goes through the passes of stripping: the first one, the second one if there are names
that are to go from every file, and the last one. -/
structure Passage.Runs (names : List String) (p : Passage) : Prop where
  known : (stripKnown registry recompiled owners).run p.read = (.ok (), p.known)
  spread : Spreads names p.known p.spread
  finished : (Stripping.finish registry strategy).run p.spread = (.ok (), p.finished)

/-- A file that was opened to be stripped: it was read and nothing was stripped from it, and the
tables that are kept of it are used. Where object files lie apart, it has the contents from before. -/
structure IsOpened (w w' : Workshop) (needed : List Path) (path : Path) (s : Stripping) : Prop where
  named : s.path = path
  editor : Coff.Editor.parse s.editor.data strategy = .ok s.editor
  fresh : s.removed = [] ∧ s.forced = [] ∧ s.emptied = []
  table : w'.objects.HasTable path s.table
  data : AreSafe w.files needed → w.files.read? path = some s.editor.data

/-- What stripping several files does: each of them is opened and goes through the passes. The names
that were stripped are answered, and where object files lie apart, the edited files are saved. -/
structure Strips (needed : List Path) (w : Workshop) (result : Stripped) (w' : Workshop)
    (passages : List Passage) : Prop where
  opened : List.Forall₂ (fun path p ↦ IsOpened strategy w w' needed path p.read) needed passages
  runs : ∀ p ∈ passages, p.Runs registry recompiled owners strategy (everywhere passages)
  symbols : result.symbols = (passages.map fun p ↦ (p.read.path, p.finished.removed)).foldl
    (fun m e ↦ m.insert e.1 e.2) ∅
  saved : AreSafe w.files needed → ∀ p ∈ passages,
    w'.files.read? p.read.path = some p.finished.editor.data

/-- A file that was opened and stripped of what is known. -/
def IsStarted (w w' : Workshop) (needed : List Path) (path : Path) (s : Stripping) : Prop :=
  ∃ read, IsOpened strategy w w' needed path read ∧
    (stripKnown registry recompiled owners).run read = (.ok (), s)

/-- A file that went through the last pass: what was stripped is answered, and where object files lie
apart, the edited file was saved. -/
def IsFinished (w w' : Workshop) (needed : List Path) (s : Stripping)
    (answer : Path × List String) : Prop :=
  ∃ s', (Stripping.finish registry strategy).run s = (.ok (), s') ∧ answer = (s.path, s'.removed) ∧
    (AreSafe w.files needed → w'.files.read? s.path = some s'.editor.data)

/-- What is answered for several files that went through the passes. -/
def AnswersOf (needed : List Path) (w : Workshop) (answers : List (Path × List String))
    (w' : Workshop) : Prop :=
  ∃ passages : List Passage,
    List.Forall₂ (fun path p ↦ IsOpened strategy w w' needed path p.read) needed passages ∧
    (∀ p ∈ passages, p.Runs registry recompiled owners strategy (everywhere passages)) ∧
    answers = passages.map (fun p ↦ (p.read.path, p.finished.removed)) ∧
    (AreSafe w.files needed → ∀ p ∈ passages,
      w'.files.read? p.read.path = some p.finished.editor.data)

variable {registry recompiled owners strategy}

/-- Work in the workshop. -/
theorem triple_workshop {α : Type} {act : WorkshopM α} {P S : Workshop → Prop}
    {Q : α → Workshop → Prop} (h : Triple P act Q S) :
    Triple (fun r ↦ P r.workshop) (inWorkshop act) (fun a r ↦ Q a r.workshop)
      fun r ↦ S r.workshop := by
  intro r hr
  rw [run_inWorkshop]
  have hact := h r.workshop hr
  generalize act.run r.workshop = result at hact ⊢
  rcases result with ⟨_ | a, w⟩ <;> exact hact

variable {w : Workshop} {needed : List Path}

/-- Starting a file opens it and strips it of what is known. -/
theorem triple_start_opened {path : Path} (hpath : path ∈ needed) :
    Triple (fun r ↦ AreSafe w.files needed → AreUnedited needed w.files r.workshop.files)
      (start registry recompiled owners strategy path)
      (fun s r ↦ IsStarted registry recompiled owners strategy w r.workshop needed path s ∧
        (AreSafe w.files needed → AreUnedited needed w.files r.workshop.files)) fun _ ↦ True := by
  have hmake : Keeps (fun u : Workshop ↦ AreSafe w.files needed →
      AreUnedited needed w.files u.files) (Workshop.onFiles (Backup.make path)) :=
    Keeps.of_run fun u hu hsafe ↦ (areUnedited_make hsafe hpath).run (hu hsafe)
  have hobject : Triple (fun u : Workshop ↦ AreSafe w.files needed →
      AreUnedited needed w.files u.files) (Workshop.object path)
      (fun table u ↦ (AreSafe w.files needed → AreUnedited needed w.files u.files) ∧
        u.objects.HasTable path table) fun _ ↦ True := by
    have hkeeps : Keeps (fun u : Workshop ↦ AreSafe w.files needed →
        AreUnedited needed w.files u.files) (Workshop.object path) :=
      (Keeps.of_run fun _ hu ↦ hu).bind fun _ ↦ Keeps.pure _
    exact (Triple.and hkeeps (Workshop.hasTable_object path)).mono (fun _ hu ↦ ⟨hu, trivial⟩)
      (fun _ _ h ↦ h) fun _ _ ↦ trivial
  refine Triple.bind (Keeps.any (triple_workshop hmake)) fun _ ↦
    Triple.bind (R := fun _ r ↦ AreSafe w.files needed → AreUnedited needed w.files r.workshop.files)
      (Triple.modify fun _ h ↦ h) fun _ ↦
    Triple.bind (triple_workshop hobject) fun table ↦ Triple.bind_get fun r hr ↦
    Triple.bind_lift (fun editor heditor ↦ ?_) fun _ _ ↦ trivial
  split
  · next s hs =>
    refine Triple.pure fun r' heq ↦ ⟨⟨⟨path, editor, table, [], [], []⟩, ?_, hs⟩, heq ▸ hr.1⟩
    obtain ⟨data, hread, hparse⟩ := Outcome.bind_eq_ok_iff.mp heditor
    rw [Outcome.inContext_eq_ok_iff] at hread hparse
    have hdata := (Coff.Editor.data_of_parse hparse).1
    refine ⟨rfl, by rw [hdata]; exact hparse, ⟨rfl, rfl, rfl⟩, heq ▸ hr.2, fun hsafe ↦ ?_⟩
    rw [← (hr.1 hsafe).kept path hpath, hdata]
    exact Outcome.orFail_eq_ok_iff.mp hread
  · exact Triple.throw fun _ _ ↦ trivial

/-- Tables that are kept stay when a file is started. -/
theorem keeps_hasTable_start {path : Path} {table : ObjectTable} (path' : Path) :
    Keeps (fun r ↦ r.workshop.objects.HasTable path table)
      (start registry recompiled owners strategy path') := by
  have hmake : Keeps (fun u : Workshop ↦ u.objects.HasTable path table)
      (Workshop.onFiles (Backup.make path')) := Keeps.of_run fun _ hu ↦ hu
  refine (triple_workshop hmake).bind fun _ ↦ Keeps.bind (Keeps.modify fun _ hr ↦ hr) fun _ ↦
    (triple_workshop (Workshop.keeps_hasTable_object path')).bind fun _ ↦ Keeps.get.bind fun _ ↦
    (Keeps.lift _).bind fun _ ↦ ?_
  split
  · exact Keeps.pure _
  · exact Keeps.throw _

/-- Starting several files opens all of them. -/
theorem triple_startEach_opened :
    Triple (fun r ↦ AreSafe w.files needed → AreUnedited needed w.files r.workshop.files)
      (needed.mapM (start registry recompiled owners strategy))
      (fun started r ↦
        List.Forall₂ (IsStarted registry recompiled owners strategy w r.workshop needed) needed
          started ∧
        (AreSafe w.files needed → AreUnedited needed w.files r.workshop.files)) fun _ ↦ True := by
  refine Triple.mapM_kept (R := fun path s (r : StripRun) ↦
    IsStarted registry recompiled owners strategy w r.workshop needed path s) (fun _ ↦ triple_start_opened) (List.pairwise_of_forall_mem_list fun path _ path' hpath' s ↦ ?_)
  refine Triple.of_pre ?_
  rintro r ⟨⟨read, hread, hrun⟩, hr⟩
  refine ((Keeps.any (keeps_hasTable_start path')).and (triple_start_opened hpath')).mono
    (fun _ heq ↦ ⟨heq ▸ hread.table, heq ▸ hr⟩) (fun _ _ h ↦ ⟨⟨read, ?_, hrun⟩, h.2.2⟩) fun _ h ↦ h.2
  exact { hread with table := h.1 }

/-- Finishing a file saves it and answers the names that were stripped from it. -/
theorem triple_finish_saved {s : Stripping} {c : ObjectCache} :
    Triple (fun r ↦ r.workshop.objects = c ∧ (AreSafe w.files needed →
        r.workshop.files.home = w.files.home ∧ r.workshop.files.IsTree))
      (finish registry strategy s)
      (fun answer r ↦ IsFinished registry strategy w r.workshop needed s answer ∧
        r.workshop.objects = c ∧ (AreSafe w.files needed →
          r.workshop.files.home = w.files.home ∧ r.workshop.files.IsTree)) fun _ ↦ True := by
  unfold finish
  split
  · next s' hs' =>
    have hpath : s'.path = s.path := (keeps_path_finish registry strategy).run_eq rfl hs'
    have hsave : Triple (fun u : Workshop ↦ u.objects = c ∧ (AreSafe w.files needed →
          u.files.home = w.files.home ∧ u.files.IsTree)) (Workshop.onFiles (s'.editor.save s'.path))
        (fun _ u ↦ (u.objects = c ∧ (AreSafe w.files needed →
          u.files.home = w.files.home ∧ u.files.IsTree)) ∧
            (AreSafe w.files needed → u.files.read? s.path = some s'.editor.data))
        fun _ ↦ True := by
      intro u hu
      rw [Workshop.run_onFiles]
      have hwritten := fun hsafe ↦
        triple_save s'.editor s'.path u.files (hu.2 hsafe)
      generalize (s'.editor.save s'.path).run u.files = written at hwritten ⊢
      rcases written with ⟨_ | _, t⟩
      · trivial
      · exact ⟨⟨hu.1, fun hsafe ↦ (hwritten hsafe).1⟩, fun hsafe ↦ hpath ▸ (hwritten hsafe).2⟩
    exact Triple.bind (triple_workshop hsave) fun _ ↦ Triple.pure fun r hr ↦
      ⟨⟨s', hs', by rw [hpath], hr.2⟩, hr.1⟩
  · exact Triple.throw fun _ _ ↦ trivial

/-- Finishing a file leaves the contents of the others alone. -/
theorem keeps_read_finish {s : Stripping} {path : Path} {data : Option Bytes}
    (hne : AreSafe w.files needed → path.location w.files.home ≠ s.path.location w.files.home) :
    Keeps (fun r ↦ AreSafe w.files needed → (r.workshop.files.home = w.files.home ∧
      r.workshop.files.IsTree) ∧ r.workshop.files.read? path = data)
      (finish registry strategy s) := by
  unfold finish
  split
  · next s' hs' =>
    have hpath : s'.path = s.path := (keeps_path_finish registry strategy).run_eq rfl hs'
    refine Keeps.bind (triple_workshop (P := fun u ↦ AreSafe w.files needed →
      (u.files.home = w.files.home ∧ u.files.IsTree) ∧ u.files.read? path = data)
      (Keeps.of_run fun u hu hsafe ↦ ?_)) fun _ ↦ Keeps.pure _
    exact (keeps_read_save (by rw [hpath]; exact hne hsafe)).run (hu hsafe)
  · exact Keeps.throw _

/-- Finishing several files saves all of them. -/
theorem triple_finishEach_saved {spreaded : List Stripping} {c : ObjectCache}
    (hpaths : spreaded.map Stripping.path = needed) :
    Triple (fun r ↦ r.workshop.objects = c ∧ (AreSafe w.files needed →
        r.workshop.files.home = w.files.home ∧ r.workshop.files.IsTree))
      (spreaded.mapM (finish registry strategy))
      (fun answers r ↦
        List.Forall₂ (IsFinished registry strategy w r.workshop needed) spreaded answers ∧
          r.workshop.objects = c) fun _ ↦ True := by
  have hapart : spreaded.Pairwise fun s s' ↦ AreSafe w.files needed →
      s.path.location w.files.home ≠ s'.path.location w.files.home := by
    by_cases hsafe : AreSafe w.files needed
    · have hdistinct := hsafe.2.distinct
      rw [← hpaths, List.pairwise_map] at hdistinct
      exact hdistinct.imp fun hne _ ↦ hne
    · exact List.pairwise_of_forall fun _ _ h ↦ (hsafe h).elim
  refine (Triple.mapM_kept
    (R := fun s answer (r : StripRun) ↦ IsFinished registry strategy w r.workshop needed s answer)
    (fun _ _ ↦ triple_finish_saved) (hapart.imp fun hne answer ↦ Triple.of_pre ?_)).mono
    (fun _ h ↦ h) (fun _ _ h ↦ ⟨h.1, h.2.1⟩) fun _ h ↦ h
  rintro r ⟨⟨s', hs', hanswer, hread⟩, hr⟩
  exact (triple_finish_saved.and (Keeps.any (keeps_read_finish hne))).mono
    (fun _ heq ↦ heq ▸ ⟨hr, fun hsafe ↦ ⟨hr.2 hsafe, hread hsafe⟩⟩)
    (fun _ _ h ↦ ⟨⟨s', hs', hanswer, fun hsafe ↦ (h.2 hsafe).2⟩, h.1.2⟩) fun _ h ↦ h.1

/-- The passes of a file are about the same path. -/
theorem Spreads.path {names : List String} {s s' : Stripping} (h : Spreads names s s') :
    s'.path = s.path := by
  rcases h with hrun | ⟨-, rfl⟩
  · exact (keeps_path_stripReferences names).run_eq rfl hrun
  · rfl

/-- What the passes come to for one file after another makes passages of the files. -/
theorem exists_passages {w' : Workshop} {names : List String} {paths : List Path}
    {started spreaded : List Stripping} {answers : List (Path × List String)}
    (hstarted : List.Forall₂ (IsStarted registry recompiled owners strategy w w' needed) paths started)
    (hspread : List.Forall₂ (Spreads names) started spreaded)
    (hfinished : List.Forall₂ (IsFinished registry strategy w w' needed) spreaded answers) :
    ∃ passages : List Passage, passages.map Passage.known = started ∧
      List.Forall₂ (fun path p ↦ IsOpened strategy w w' needed path p.read) paths passages ∧
      (∀ p ∈ passages, p.Runs registry recompiled owners strategy names) ∧
      answers = passages.map (fun p ↦ (p.read.path, p.finished.removed)) ∧
      (AreSafe w.files needed → ∀ p ∈ passages,
        w'.files.read? p.read.path = some p.finished.editor.data) := by
  induction hstarted generalizing spreaded answers with
  | nil =>
    cases hspread
    cases hfinished
    exact ⟨[], rfl, .nil, by simp, rfl, by simp⟩
  | cons hfirst _ ih =>
    obtain ⟨read, hopened, hknown⟩ := hfirst
    cases hspread with
    | cons hspread hrest =>
      cases hfinished with
      | cons hfinished hlast =>
        obtain ⟨finished, hfinish, rfl, hsaved⟩ := hfinished
        obtain ⟨passages, rfl, hall, hruns, rfl, hsaves⟩ := ih hrest hlast
        have hpath := hspread.path.trans
          ((keeps_path_stripKnown registry recompiled owners).run_eq rfl hknown)
        refine ⟨⟨read, _, _, finished⟩ :: passages, rfl, .cons hopened hall,
          List.forall_mem_cons.mpr ⟨⟨hknown, hspread, hfinish⟩, hruns⟩, by rw [hpath]; rfl,
          fun hsafe ↦ List.forall_mem_cons.mpr ⟨?_, hsaves hsafe⟩⟩
        rw [← hpath]
        exact hsaved hsafe

/-- The last pass over several files that were started and went through the second one. -/
theorem triple_finishEach_answers {r : StripRun} {started : List Stripping}
    (hstarted : List.Forall₂ (IsStarted registry recompiled owners strategy w r.workshop needed) needed
      started)
    (hr : AreSafe w.files needed → AreUnedited needed w.files r.workshop.files)
    (spreaded : List Stripping)
    (hspread : List.Forall₂ (Spreads (if 1 < started.length then
      started.flatMap fun s ↦ s.removed ++ s.forced else [])) started spreaded) :
    Triple (· = r) (spreaded.mapM (finish registry strategy))
      (fun answers r ↦ AnswersOf registry recompiled owners strategy needed w answers r.workshop)
      fun _ ↦ True := by
  have hpaths : spreaded.map Stripping.path = needed := by
    rw [← List.forall₂_eq_eq_eq, List.forall₂_map_left_iff]
    refine (Pointwise.comp hstarted hspread fun path s s' hs hs' ↦ ?_).flip
    obtain ⟨read, hopened, hknown⟩ := hs
    exact hs'.path.trans (((keeps_path_stripKnown registry recompiled owners).run_eq rfl
      hknown).trans hopened.named)
  refine (triple_finishEach_saved (w := w) (c := r.workshop.objects) hpaths).mono (fun r' heq ↦ ?_)
    (fun answers r' h ↦ ?_) fun _ h ↦ h
  · subst heq
    exact ⟨rfl, fun hsafe ↦ ⟨(hr hsafe).home, (hr hsafe).isTree⟩⟩
  · -- The tables that are kept are no longer those of the start, but the same.
    have hkept : List.Forall₂ (IsStarted registry recompiled owners strategy w r'.workshop needed)
        needed started :=
      hstarted.imp fun _ _ ⟨read, hopened, hknown⟩ ↦
        ⟨read, { hopened with table := h.2 ▸ hopened.table }, hknown⟩
    obtain ⟨passages, rfl, hopened, hruns, hanswers, hsaved⟩ := exists_passages hkept hspread h.1
    rw [List.length_map, List.flatMap_map] at hruns
    exact ⟨passages, hopened, hruns, hanswers, hsaved⟩

variable (registry recompiled owners strategy w needed) in
/-- Stripping several files takes each of them through the passes. -/
theorem triple_stripEach_passages :
    Triple (· = ⟨w, []⟩) (stripEach registry recompiled owners strategy needed)
      (fun answers r ↦ AnswersOf registry recompiled owners strategy needed w answers r.workshop)
      fun _ ↦ True := by
  refine Triple.bind ((triple_startEach_opened (w := w)).mono (fun r h hsafe ↦ ?_) (fun _ _ h ↦ h)
    fun _ h ↦ h) fun started ↦ Triple.of_pre fun r ⟨hstarted, hr⟩ ↦ ?_
  · subst h
    exact ⟨rfl, hsafe.1, fun _ _ ↦ rfl⟩
  have hfinish := triple_finishEach_answers hstarted hr
  dsimp only
  split
  · next hmany =>
    rw [if_pos hmany] at hfinish
    refine Triple.bind (R := fun spreaded r' ↦ List.Forall₂ (Spreads
        (started.flatMap fun s ↦ s.removed ++ s.forced)) started spreaded ∧ r' = r)
      (Triple.mapM_forall₂ fun s _ ↦ Triple.lift (fun r' s' heq hs' ↦ ⟨.inl ?_, heq⟩) fun _ _ ↦ trivial)
      fun spreaded ↦ Triple.of_pre fun r' ⟨hspread, heq⟩ ↦ heq ▸ hfinish spreaded hspread
    unfold spread at hs'
    split at hs'
    · next hrun =>
      cases hs'
      exact hrun
    · cases hs'
  · next hfew =>
    rw [if_neg hfew] at hfinish
    exact hfinish started (List.forall₂_same.mpr fun _ _ ↦ .inr ⟨rfl, rfl⟩)

/-- Stripping that succeeds took every file through the passes. -/
theorem exists_passages_of_strip {result : Stripped} {w' : Workshop}
    (hrun : (strip registry recompiled owners strategy needed).run w = (.ok result, w')) :
    ∃ passages, Strips registry recompiled owners strategy needed w result w' passages := by
  have hstrip := triple_stripEach_passages registry recompiled owners strategy w needed _ rfl
  rw [run_strip] at hrun
  generalize (stripEach registry recompiled owners strategy needed).run ⟨w, []⟩ = r at hstrip hrun
  rcases r with ⟨_ | answers, r⟩
  · dsimp only at hrun
    split at hrun <;> cases hrun
  · cases hrun
    obtain ⟨passages, hopened, hruns, rfl, hsaved⟩ := hstrip
    exact ⟨passages, hopened, hruns, rfl, hsaved⟩

/-! ### Grounds -/

section Names

variable {names : List String} {p : Passage} {passages : List Passage} {name : String}

/-- What the passes strip from a file. -/
theorem Passage.Runs.hasLost (h : p.Runs registry recompiled owners strategy names)
    (hfresh : p.read.removed = [] ∧ p.read.forced = [] ∧ p.read.emptied = []) :
    HasLost p.read.table (p.read.IsKnown registry recompiled owners)
        (p.read.IsKnown registry recompiled owners) p.known ∧
      p.finished.table = p.read.table ∧
      ∀ name, name ∈ p.finished.removed ↔ p.read.IsKnown registry recompiled owners name ∨
        (name ∈ names ∧ p.known.Refers name) ∨ p.spread.GoesAlong registry name := by
  have hknown := (hasLost_stripKnown p.read hfresh.1 hfresh.2.1).ok rfl h.known
  have hspread : HasLost p.read.table (fun _ ↦ True) (fun name ↦
      p.read.IsKnown registry recompiled owners name ∨ name ∈ names ∧ p.known.Refers name)
      p.spread := by
    rcases h.spread with hrun | ⟨rfl, hsame⟩
    · have hspread := (hasLost_stripReferences names p.known (hknown.table ▸ hknown)).ok rfl hrun
      rwa [hknown.table] at hspread
    · rw [hsame]
      exact ⟨hknown.table, fun name ↦ (hknown.removed name).trans (by simp), fun _ _ ↦ trivial⟩
  have hfinished := (hasLost_finish strategy p.spread (hspread.table ▸ hspread)).ok rfl h.finished
  exact ⟨hknown, hfinished.table.trans hspread.table, fun name ↦
    (hfinished.removed name).trans or_assoc⟩

variable (registry recompiled owners) in
/-- Reasons for which a name goes from one of several files. -/
inductive Grounds (passages : List Passage) (p : Passage) (name : String) : Prop where
  /-- A record of the file says so by itself. -/
  | known (h : p.read.IsKnown registry recompiled owners name)
  /-- It goes from another file by itself, and this one still refers to it. -/
  | elsewhere (hmany : 1 < passages.length) (other : Passage) (hother : other ∈ passages)
      (h : other.read.IsKnown registry recompiled owners name) (href : p.known.Refers name)
  /-- A symbol of that name lives in a section that is dropped. -/
  | withSection (h : p.spread.GoesAlong registry name)

variable {result : Stripped} {w' : Workshop}

/-- The names that are to go from every file are those that go from one by itself. -/
theorem Strips.mem_everywhere_iff
    (h : Strips registry recompiled owners strategy needed w result w' passages) :
    name ∈ everywhere passages ↔ 1 < passages.length ∧
      ∃ p ∈ passages, p.read.IsKnown registry recompiled owners name := by
  have hgone : ∀ p ∈ passages, (name ∈ p.known.removed ∨ name ∈ p.known.forced) ↔
      p.read.IsKnown registry recompiled owners name := by
    intro p hp
    obtain ⟨path, -, hopened⟩ := Pointwise.exists_left h.opened hp
    obtain ⟨hlost, -⟩ := (h.runs p hp).hasLost hopened.fresh
    rw [hlost.removed]
    exact ⟨fun hname ↦ hname.elim id (hlost.forced name), .inl⟩
  unfold everywhere
  split
  · next hmany =>
    simp only [List.mem_flatMap, List.mem_append]
    exact ⟨fun ⟨p, hp, hname⟩ ↦ ⟨hmany, p, hp, (hgone p hp).mp hname⟩,
      fun ⟨_, p, hp, hname⟩ ↦ ⟨p, hp, (hgone p hp).mpr hname⟩⟩
  · next hfew => exact ⟨fun h ↦ (List.not_mem_nil h).elim, fun h ↦ (hfew h.1).elim⟩

/-- A name goes from a file exactly when there are grounds for that. -/
theorem Strips.mem_removed_iff
    (h : Strips registry recompiled owners strategy needed w result w' passages)
    (hp : p ∈ passages) :
    name ∈ p.finished.removed ↔ Grounds registry recompiled owners passages p name := by
  obtain ⟨path, -, hopened⟩ := Pointwise.exists_left h.opened hp
  obtain ⟨-, -, hremoved⟩ := (h.runs p hp).hasLost hopened.fresh
  rw [hremoved, h.mem_everywhere_iff]
  constructor
  · rintro (hknown | ⟨⟨hmany, other, hother, hknown⟩, href⟩ | halong)
    · exact .known hknown
    · exact .elsewhere hmany other hother hknown href
    · exact .withSection halong
  · rintro (hknown | ⟨hmany, other, hother, hknown, href⟩ | halong)
    · exact .inl hknown
    · exact .inr (.inl ⟨⟨hmany, other, hother, hknown⟩, href⟩)
    · exact .inr (.inr halong)

/-- The names that stripping answers for a file are those that were stripped from it. -/
theorem Strips.namesIn
    (h : Strips registry recompiled owners strategy needed w result w' passages) {path : Path}
    (hpath : path ∈ needed) : ∃ p ∈ passages, p.read.path.same path = true ∧
      w'.objects.HasTable path p.read.table ∧ result.namesIn path = p.finished.removed := by
  obtain ⟨p, hp, hopened⟩ := Pointwise.exists_right h.opened hpath
  have hnamed : ∃ e ∈ passages.map (fun p ↦ (p.read.path, p.finished.removed)),
      e.1.same path = true :=
    ⟨_, List.mem_map_of_mem hp, by rw [hopened.named]; exact Path.same_refl path⟩
  obtain ⟨e, he, hsame, hfound⟩ := PathMap.exists_find?_foldl_insert hnamed ∅
  obtain ⟨p', hp', rfl⟩ := List.mem_map.mp he
  obtain ⟨path', -, hopened'⟩ := Pointwise.exists_left h.opened hp'
  refine ⟨p', hp', hsame, hopened'.table.congr (hopened'.named ▸ hsame), ?_⟩
  rw [Stripped.namesIn, h.symbols, hfound]
  rfl

end Names

end Stripped
end LivePatch
