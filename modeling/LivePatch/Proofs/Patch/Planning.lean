import LivePatch.Patch.Activate
import LivePatch.Proofs.Outcome
import LivePatch.Proofs.Triple

/-!
# What activation plans

Every function that an activation redirects, and every library function that it leads back, is
connected with one instance: the one in the newest image before the patch that has the name. A name
is never redirected in both directions by one patch.
-/

namespace LivePatch

namespace Registry

variable {r : Registry} {exclude : Option Token} {name : String}

/-- The tables of symbols of all images, the oldest first. -/
def symbols (r : Registry) : List SymbolTable := r.images.map fun i ↦ i.tables.symbols

@[simp] theorem length_symbols (r : Registry) : r.symbols.length = r.size := List.length_map _

/-- The images that are looked through have their positions as tokens. -/
theorem mem_newestFirst_iff {e : Token × RegisteredImage} :
    e ∈ r.newestFirst exclude ↔ r.images[e.1.index]? = some e.2 ∧ some e.1 ≠ exclude := by
  obtain ⟨⟨index⟩, image⟩ := e
  unfold newestFirst
  rw [List.mem_filter, List.mem_reverse, List.mem_map, bne_iff_ne]
  refine and_congr_left' ⟨?_, fun h ↦ ⟨(image, index), List.mem_zipIdx_iff_getElem?.mpr h, rfl⟩⟩
  rintro ⟨⟨image', index'⟩, hmem, heq⟩
  cases heq
  exact List.mem_zipIdx_iff_getElem?.mp hmem

/-- Newer images come first. -/
theorem pairwise_newestFirst (r : Registry) (exclude : Option Token) :
    (r.newestFirst exclude).Pairwise fun a b ↦ b.1.index < a.1.index := by
  unfold newestFirst
  refine List.Pairwise.filter _ (List.pairwise_reverse.mpr (List.pairwise_map.mpr ?_))
  have hindices : (r.images.zipIdx.map Prod.snd).Pairwise (· < ·) := by
    rw [List.zipIdx_map_snd]
    exact List.pairwise_lt_range'
  exact List.pairwise_map.mp hindices

end Registry

namespace SymbolTable

/-- The address that the image at a position gives a name. -/
def addressIn? (images : List SymbolTable) (i : Nat) (name : String) : Option UInt32 :=
  images[i]?.bind fun t ↦ t.find? name

/-- The newest of the images before a position that has a name, and the name's address there. -/
structure IsNewestBefore (images : List SymbolTable) (stop : Nat) (name : String) (i : Nat)
    (rva : UInt32) : Prop where
  before : i < stop
  found : addressIn? images i name = some rva
  newest : ∀ j, i < j → j < stop → addressIn? images j name = none

variable {images : List SymbolTable} {stop i : Nat} {name : String} {rva : UInt32}

/-- Images that are added later are not looked at. -/
theorem addressIn?_append (more : List SymbolTable) (h : i < images.length) :
    addressIn? (images ++ more) i name = addressIn? images i name := by
  unfold addressIn?
  rw [List.getElem?_append_left h]

theorem IsNewestBefore.append (h : IsNewestBefore images stop name i rva)
    (hstop : stop ≤ images.length) (more : List SymbolTable) :
    IsNewestBefore (images ++ more) stop name i rva where
  before := h.before
  found := (addressIn?_append more (Nat.lt_of_lt_of_le h.before hstop)).trans h.found
  newest j hi hj := (addressIn?_append more (Nat.lt_of_lt_of_le hj hstop)).trans (h.newest j hi hj)

/-- Two images that have a name do not have the same one as their newest before. -/
theorem IsNewestBefore.stop_unique {stop' : Nat} {rva' : UInt32}
    (h : IsNewestBefore images stop name i rva) (h' : IsNewestBefore images stop' name i rva')
    (hstop : addressIn? images stop name ≠ none) (hstop' : addressIn? images stop' name ≠ none) :
    stop = stop' := by
  rcases Nat.lt_trichotomy stop stop' with hlt | heq | hlt
  · exact (hstop (h'.newest stop h.before hlt)).elim
  · exact heq
  · exact (hstop' (h.newest stop' h'.before hlt)).elim

end SymbolTable

open SymbolTable

/-- The instance of a symbol outside the newest image is in the newest image before it that has the
symbol. -/
theorem Registry.isNewestBefore_of_findSymbol? {r : Registry} {token : Token}
    (hnewest : token.index + 1 = r.size) {name : String} {found : FoundSymbol}
    (h : r.findSymbol? (some token) name = some found) :
    IsNewestBefore r.symbols token.index name found.token.index found.rva := by
  obtain ⟨newer, e, older, hsplit, hfound, hnone⟩ := List.findSome?_eq_some_iff.mp h
  obtain ⟨rva, hrva, rfl⟩ := Option.map_eq_some_iff.mp hfound
  have hsorted := r.pairwise_newestFirst (some token)
  rw [hsplit] at hsorted
  have hmem : e ∈ r.newestFirst (some token) := hsplit ▸ List.mem_append_right _ (List.mem_cons_self ..)
  obtain ⟨hget, hother⟩ := mem_newestFirst_iff.mp hmem
  have hne : ∀ i, i ≠ token.index → some (Token.mk i) ≠ some token := fun i hi heq ↦
    hi (congrArg Token.index (Option.some.inj heq))
  have haddress : ∀ (i : Nat) (image : RegisteredImage), r.images[i]? = some image →
      addressIn? r.symbols i name = image.tables.symbols.find? name := by
    intro i image hi
    simp [addressIn?, symbols, hi]
  refine ⟨?_, (haddress _ _ hget).trans hrva, fun j hj hstop ↦ ?_⟩
  · have hlt : e.1.index < r.images.length := (List.getElem?_eq_some_iff.mp hget).1
    have hindex : e.1.index ≠ token.index := fun heq ↦ hother
      (congrArg some (by rw [show e.1 = ⟨e.1.index⟩ from rfl, heq]))
    change token.index + 1 = r.images.length at hnewest
    change e.1.index < token.index
    omega
  · change e.1.index < j at hj
    have hj' : j < r.images.length := by
      change token.index + 1 = r.images.length at hnewest
      omega
    have hin := mem_newestFirst_iff (e := (⟨j⟩, r.images[j])).mpr
      ⟨List.getElem?_eq_getElem hj', hne j (by omega)⟩
    rw [haddress j _ (List.getElem?_eq_getElem hj')]
    -- An image behind the one that was found is older, so a newer one stands in front of it.
    rw [hsplit] at hin
    rcases List.mem_append.mp hin with hin | hin
    · exact Option.map_eq_none_iff.mp (hnone _ hin)
    · have hle : j ≤ e.1.index := by
        rcases List.mem_cons.mp hin with heq | hin
        · exact Nat.le_of_eq (congrArg (fun x : Token × RegisteredImage ↦ x.1.index) heq)
        · exact Nat.le_of_lt (List.rel_of_pairwise_cons (List.pairwise_append.mp hsorted).2.1 hin)
      omega

/-- Where the redirections of a patch lead, by the tables of the images: each connects the patch's
instance of a function with the one in the newest image before that has it, and no function is
redirected in both directions. -/
structure PatchRecord.Connects (images : List SymbolTable) (own : SymbolTable) (p : PatchRecord) :
    Prop where
  functions : ∀ r ∈ p.functions, own.find? r.name = some r.patchRva ∧
    IsNewestBefore images p.token.index r.name r.existing.index r.existingRva
  libraryFunctions : ∀ r ∈ p.libraryFunctions, own.find? r.name = some r.patchRva ∧
    IsNewestBefore images p.token.index r.name r.existing.index r.existingRva
  apart : ∀ r ∈ p.functions, ∀ l ∈ p.libraryFunctions, r.name ≠ l.name

/-- Images that come later do not matter. -/
theorem PatchRecord.Connects.append {images : List SymbolTable} {own : SymbolTable}
    {p : PatchRecord} (h : p.Connects images own) (hp : p.token.index ≤ images.length)
    (more : List SymbolTable) : p.Connects (images ++ more) own where
  functions r hr := ⟨(h.functions r hr).1, (h.functions r hr).2.append hp more⟩
  libraryFunctions r hr := ⟨(h.libraryFunctions r hr).1, (h.libraryFunctions r hr).2.append hp more⟩
  apart := h.apart

namespace Activation

variable {a : Activation}

/-- The instances that a redirection of a name joins: the patch's own, and the newest elsewhere. -/
structure Joins (a : Activation) (name : String) (patchRva : UInt32) (existing : Token)
    (existingRva : UInt32) : Prop where
  own : a.view.tables.symbols.find? name = some patchRva
  found : ∃ found, a.view.registry.findSymbol? (some a.view.token) name = some found ∧
    found.token = existing ∧ found.rva = existingRva

/-- In the newest image, the instance elsewhere is in an older one. -/
theorem Joins.newest {name : String} {patchRva existingRva : UInt32} {existing : Token}
    (h : a.Joins name patchRva existing existingRva)
    (hnewest : a.view.token.index + 1 = a.view.registry.size) :
    IsNewestBefore a.view.registry.symbols a.view.token.index name existing.index existingRva := by
  obtain ⟨found, hfound, rfl, rfl⟩ := h.found
  exact Registry.isNewestBefore_of_findSymbol? hnewest hfound

/-- A redirection of a function joins the existing instance to the patch's. -/
theorem triple_planFunction (ips : List (List UInt64)) (name : String) :
    Triple (fun _ ↦ True) (a.planFunction ips name)
      (fun plan _ ↦ ∀ r ∈ plan, r.name = name ∧ a.Joins name r.patchRva r.existing r.existingRva)
      fun _ ↦ True := by
  have hnone : ∀ post : FunctionRedirection → Prop, Triple (fun _ ↦ True)
      (pure none : EachM Staged (Option FunctionRedirection)) (fun plan _ ↦ ∀ r ∈ plan, post r)
      fun _ ↦ True := fun _ ↦ Triple.pure fun _ _ r h ↦ by cases h
  unfold planFunction
  split
  · next own existing hown hexisting =>
    have hjoins : a.Joins name own existing.token existing.rva :=
      ⟨hown, existing, hexisting, rfl, rfl⟩
    refine Triple.bind (Keeps.lift _) fun contribution ↦ ?_
    dsimp only
    split
    · exact hnone _
    · cases contribution
      all_goals
        refine Keeps.triv_bind fun size ↦ Keeps.triv_bind fun options ↦ ?_
        split
        · exact hnone _
        · exact Triple.pure fun _ _ r h ↦ by cases h; exact ⟨rfl, hjoins⟩
  · exact hnone _

/-- A redirection of a patch's copy of a library function joins it to the existing instance. -/
theorem joins_of_planLibraryFunction {name : String} {r : LibraryRedirection}
    (h : a.planLibraryFunction name = .ok (some r)) :
    r.name = name ∧ a.Joins name r.patchRva r.existing r.existingRva := by
  unfold planLibraryFunction at h
  split at h
  · cases h
  · next own hown =>
    obtain ⟨contribution, -, h⟩ := Outcome.bind_eq_ok_iff.mp h
    split at h
    · cases h
    · obtain ⟨rest, -, h⟩ := Outcome.bind_eq_ok_iff.mp h
      dsimp only at h
      split at h
      · cases h
      · split at h
        · next existing base hexisting _ =>
          obtain ⟨start, -, h⟩ := Outcome.bind_eq_ok_iff.mp h
          obtain ⟨covered, -, h⟩ := Outcome.bind_eq_ok_iff.mp h
          split at h
          · split at h
            · cases h
              exact ⟨rfl, hown, existing, hexisting, rfl, rfl⟩
            · cases h
          · cases h
        · cases h

/-- What planned redirections join. No name is planned in both directions. -/
structure ArePlanned (a : Activation) (objects : List ObjectTable)
    (functions : List FunctionRedirection) (libraries : List LibraryRedirection) : Prop where
  functions : ∀ r ∈ functions, r.name ∈ functionNames objects ∧
    a.Joins r.name r.patchRva r.existing r.existingRva
  libraries : ∀ l ∈ libraries, isPlannedLibraryFunction (functionNames objects) l.name = true ∧
    a.Joins l.name l.patchRva l.existing l.existingRva

/-- Planned redirections join the patch's instances to those elsewhere. -/
theorem arePlanned_planFunctions (objects : List ObjectTable) (ips : List (List UInt64)) :
    Triple (fun _ ↦ True) (a.planFunctions objects ips)
      (fun plan _ ↦ a.ArePlanned objects plan.1 plan.2) fun _ ↦ True := by
  have hplans : Triple (fun _ ↦ True) ((functionNames objects).mapM (a.planFunction ips))
      (fun plans _ ↦ (∀ plan ∈ plans, ∀ r ∈ plan, r.name ∈ functionNames objects ∧
        a.Joins r.name r.patchRva r.existing r.existingRva) ∧ True) fun _ ↦ True := by
    refine Triple.mapM fun name hname ↦ (triple_planFunction ips name).mono (fun _ h ↦ h)
      (fun plan _ h ↦ ⟨fun r hr ↦ ?_, trivial⟩) fun _ h ↦ h
    obtain ⟨rfl, hjoins⟩ := h r hr
    exact ⟨hname, hjoins⟩
  refine hplans.bind fun plans ↦ Triple.bind_lift (fun libraries hlibraries ↦ Triple.pure ?_)
    fun _ _ ↦ trivial
  rintro _ ⟨hplanned, -⟩
  refine ⟨fun r hr ↦ ?_, fun l hl ↦ ?_⟩
  · obtain ⟨plan, hmem, hplan⟩ := List.mem_filterMap.mp hr
    exact hplanned plan hmem r hplan
  · obtain ⟨plan, hmem, hplan⟩ := List.mem_filterMap.mp hl
    obtain ⟨name, hname, hplanned⟩ := (Outcome.mem_mapM_iff hlibraries).mp hmem
    rw [show plan = some l from hplan] at hplanned
    obtain ⟨rfl, hjoins⟩ := joins_of_planLibraryFunction hplanned
    exact ⟨(List.mem_filter.mp hname).2, hjoins⟩

/-- A plan connects the patch with the newest images before it. -/
theorem ArePlanned.connects {objects : List ObjectTable} {functions : List FunctionRedirection}
    {libraries : List LibraryRedirection} (h : a.ArePlanned objects functions libraries)
    (hnewest : a.view.token.index + 1 = a.view.registry.size) {patch : PatchRecord}
    (htoken : patch.token = a.view.token) :
    PatchRecord.Connects a.view.registry.symbols a.view.tables.symbols
      { patch with functions := functions, libraryFunctions := libraries } := by
  have hconnects : ∀ {name rva existing existingRva}, a.Joins name rva existing existingRva →
      a.view.tables.symbols.find? name = some rva ∧
      IsNewestBefore a.view.registry.symbols patch.token.index name existing.index existingRva :=
    fun h ↦ ⟨h.own, htoken ▸ h.newest hnewest⟩
  refine ⟨fun r hr ↦ hconnects (h.functions r hr).2, fun l hl ↦ hconnects (h.libraries l hl).2,
    fun r hr l hl heq ↦ ?_⟩
  have hseen := (h.libraries l hl).1
  rw [isPlannedLibraryFunction, ← heq, List.contains_iff_mem.mpr (h.functions r hr).1] at hseen
  cases hseen

/-- What redirecting functions adds to a patch. -/
theorem triple_redirectFunctions_connects (hnewest : a.view.token.index + 1 = a.view.registry.size)
    {patch : PatchRecord} (htoken : patch.token = a.view.token) (objects : List ObjectTable) :
    Triple (fun _ ↦ True) (a.redirectFunctions objects patch)
      (fun p _ ↦ (∃ functions libraries,
        p = { patch with functions := functions, libraryFunctions := libraries }) ∧
        p.Connects a.view.registry.symbols a.view.tables.symbols) fun _ ↦ True := by
  refine Keeps.triv_bind fun _ ↦ Triple.ensuring (E := fun _ ↦ True)
    (Keeps.triv_bind fun ips ↦ (arePlanned_planFunctions objects ips).bind fun plan ↦ ?_)
    (fun _ _ h ↦ h) fun _ _ ↦ trivial
  exact Triple.of_fact fun hplan ↦ Keeps.triv_bind fun _ ↦
    Triple.pure fun _ _ ↦ ⟨⟨plan.1, plan.2, rfl⟩, hplan.connects hnewest htoken⟩

/-- The record of a patch that was activated as the newest image connects it with older ones. -/
theorem triple_run_connects (hnewest : a.view.token.index + 1 = a.view.registry.size)
    {patch : PatchRecord} (htoken : patch.token = a.view.token)
    (objects : List (ObjectTable × List String)) :
    Triple (fun _ ↦ True) (a.run objects patch)
      (fun p _ ↦ p.token = patch.token ∧
        p.Connects a.view.registry.symbols a.view.tables.symbols) fun _ ↦ True := by
  unfold run
  refine Keeps.triv_bind fun _ ↦ Keeps.triv_bind fun preHooks ↦ Keeps.triv_bind fun _ ↦
    Keeps.triv_bind fun preEntry ↦ ?_
  dsimp only
  refine Keeps.triv_bind fun _ ↦ Keeps.triv_bind fun _ ↦ Keeps.triv_bind fun _ ↦
    Keeps.triv_bind fun postEntry ↦ ?_
  refine Triple.bind (triple_redirectFunctions_connects hnewest (by exact htoken) _) fun p ↦
    Triple.of_fact fun hp ↦ ?_
  refine Keeps.triv_bind fun postHooks ↦ Keeps.triv_bind fun _ ↦ Triple.pure fun _ _ ↦ ?_
  obtain ⟨⟨functions, libraries, rfl⟩, hconnects⟩ := hp
  exact ⟨rfl, hconnects.functions, hconnects.libraryFunctions, hconnects.apart⟩

end Activation
end LivePatch
