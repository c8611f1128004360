import LivePatch.Patch.Plan
import LivePatch.Proofs.Outcome
import LivePatch.Proofs.Triple

/-!
# Spellings of object files

Records of a build spell the path of one object file in more than one way, and a contribution keeps
the spelling of its record. Whether a symbol came from an object file is decided by the normalized
path, so it does not depend on the spelling. Whether an object file belongs to a unit is looked up
by the path itself: that decides which references are redirected and which functions are left to
their library, and it is all that a spelling decides.
-/

namespace LivePatch

namespace Outcome

variable {α β : Type}

/-- Two results that are related, or two computations that stopped short alike. -/
inductive Related (R : α → β → Prop) : Outcome α → Outcome β → Prop where
  | ok {a : α} {b : β} (h : R a b) : Related R (.ok a) (.ok b)
  | error (stop : Stop) : Related R (.error stop) (.error stop)

variable {R : α → β → Prop} {x : Outcome α} {y : Outcome β}

/-- What works alike on related results is alike behind them. -/
theorem Related.bind_eq {γ : Type} {f : α → Outcome γ} {g : β → Outcome γ} (h : Related R x y)
    (hfg : ∀ a b, R a b → f a = g b) : x >>= f = y >>= g := by
  cases h with
  | ok hR => exact hfg _ _ hR
  | error stop => rfl

/-- Work on a state that is alike on related results is alike behind them. -/
theorem Related.lift_bind_eq {σ γ : Type} {f : α → ExceptT Stop (StateM σ) γ}
    {g : β → ExceptT Stop (StateM σ) γ} (h : Related R x y) (hfg : ∀ a b, R a b → f a = g b) :
    liftM x >>= f = liftM y >>= g := by
  cases h with
  | ok hR => exact hfg _ _ hR
  | error stop => rfl

end Outcome

/-- A range of an image with its object file spelled another way. -/
structure Contribution.Respells (c d : Contribution) : Prop where
  rva : d.rva = c.rva
  size : d.size = c.size
  object : d.object.normalized = c.object.normalized

/-- A table with the object files of its ranges spelled other ways. -/
def ContributionTable.Respells (t u : ContributionTable) : Prop :=
  List.Forall₂ Contribution.Respells t.ranges u.ranges

/-- The tables of an image that differ in the spellings of contributing object files only. -/
structure ImageTables.Respells (t u : ImageTables) : Prop where
  symbols : u.symbols = t.symbols
  contributions : t.contributions.Respells u.contributions
  compilands : u.compilands = t.compilands
  thunks : u.thunks = t.thunks
  sections : u.sections = t.sections

/-- An image whose tables differ in such spellings only. -/
structure RegisteredImage.Respells (i j : RegisteredImage) : Prop where
  path : j.path = i.path
  tables : i.tables.Respells j.tables
  size : j.size = i.size
  processes : j.processes = i.processes

/-- The same images, whose tables differ in such spellings only. -/
def Registry.Respells (r s : Registry) : Prop :=
  List.Forall₂ RegisteredImage.Respells r.images s.images

/-- One instance of a symbol, in images whose tables differ in such spellings only. -/
structure FoundSymbol.Respells (f g : FoundSymbol) : Prop where
  token : g.token = f.token
  rva : g.rva = f.rva
  image : f.image.Respells g.image

/-- What redirections of references are decided on, but for such spellings. -/
structure PatchView.Respells (v w : PatchView) : Prop where
  registry : v.registry.Respells w.registry
  token : w.token = v.token
  tables : v.tables.Respells w.tables

/-- What a patch is activated with, but for such spellings. -/
structure Activation.Respells (a b : Activation) : Prop where
  files : b.files = a.files
  view : a.view.Respells b.view
  image : b.image = a.image

namespace ContributionTable

variable {t u : ContributionTable}

/-- The range that covers an address stands at one position of both tables, whatever else is known
of ranges at one position. -/
theorem Respells.find_and {P : Contribution → Contribution → Prop} (h : t.Respells u)
    (hP : List.Forall₂ P t.ranges u.ranges) (rva : UInt32) :
    Outcome.Related (Option.Rel fun c d ↦ c.Respells d ∧ P c d) (t.find rva) (u.find rva) := by
  have hlast := Pointwise.getLast? (Pointwise.takeWhile (Pointwise.and h hP)
    (p := fun c ↦ decide (c.rva ≤ rva)) (q := fun d ↦ decide (d.rva ≤ rva))
    fun c d hcd ↦ by rw [hcd.1.rva])
  unfold ContributionTable.find
  generalize (t.ranges.takeWhile _).getLast? = x at hlast ⊢
  generalize (u.ranges.takeWhile _).getLast? = y at hlast ⊢
  cases hlast with
  | none => exact .ok .none
  | @some c d hcd =>
    dsimp only
    rw [hcd.1.rva, hcd.1.size]
    cases Word.add32? c.rva (max c.size 1) with
    | none => exact .error .fault
    | some stop =>
      change Outcome.Related _ (.ok _) (.ok _)
      split
      · exact .ok (.some hcd)
      · exact .ok .none

/-- The range that covers an address is the same one, whatever the spellings. -/
theorem Respells.find (h : t.Respells u) (rva : UInt32) :
    Outcome.Related (Option.Rel Contribution.Respells) (t.find rva) (u.find rva) := by
  have hfind := h.find_and h rva
  simpa only [and_self] using hfind

end ContributionTable

namespace ImageTables

variable {t u : ImageTables}

/-- Whether a symbol came from an object file does not depend on how the file is spelled. -/
theorem Respells.isContributedBy (h : t.Respells u) (rva : UInt32) (object : Path) :
    u.isContributedBy rva object = t.isContributedBy rva object := by
  unfold ImageTables.isContributedBy ContributionTable.objectAt
  rw [bind_assoc, bind_assoc]
  refine ((h.contributions.find rva).bind_eq fun x y hxy ↦ ?_).symm
  cases hxy with
  | none => rfl
  | some hcd =>
    change Except.ok _ = Except.ok _
    rw [hcd.object]

/-- Every object file belongs to a unit under both spellings or under neither. -/
def KeepsUnits (t u : ImageTables) : Prop :=
  List.Forall₂ (fun c d ↦ t.compilands.contains d.object = t.compilands.contains c.object)
    t.contributions.ranges u.contributions.ranges

/-- What an image defines in units of its own does not depend on spellings that keep them. -/
theorem Respells.definesFreshly (h : t.Respells u) (hunits : t.KeepsUnits u) (name : String) :
    u.definesFreshly name = t.definesFreshly name := by
  unfold ImageTables.definesFreshly ContributionTable.objectAt
  rw [h.symbols]
  cases t.symbols.find? name with
  | none => rfl
  | some rva =>
    dsimp only
    rw [bind_assoc, bind_assoc]
    refine ((h.contributions.find_and hunits rva).bind_eq fun x y hxy ↦ ?_).symm
    cases hxy with
    | none => rfl
    | @some c d hcd =>
      change Except.ok _ = Except.ok _
      rw [h.compilands, hcd.2]

end ImageTables

namespace Registry

variable {r s : Registry}

/-- Images are looked through in the same order, whatever is known of images at one position. -/
private theorem newestFirst_and {P : RegisteredImage → RegisteredImage → Prop}
    (hP : List.Forall₂ P r.images s.images) (exclude : Option Token) :
    List.Forall₂ (fun e f ↦ P e.2 f.2 ∧ e.1 = f.1) (r.newestFirst exclude)
      (s.newestFirst exclude) := by
  unfold Registry.newestFirst
  refine List.rel_filter (fun e f hef ↦ ?_) (List.forall₂_reverse_iff.mpr ?_)
  · dsimp only
    rw [hef.2]
  · refine List.rel_map (fun e f hef ↦ ?_) (Pointwise.zipIdx hP 0)
    exact ⟨hef.1, congrArg Token.mk hef.2⟩

/-- The newest instance of a symbol is in the image at one position of both registries, whatever
else is known of images at one position. -/
theorem Respells.findSymbol?_and {P : RegisteredImage → RegisteredImage → Prop} (h : r.Respells s)
    (hP : List.Forall₂ P r.images s.images) (exclude : Option Token) (name : String) :
    Option.Rel (fun f g ↦ f.Respells g ∧ P f.image g.image) (r.findSymbol? exclude name)
      (s.findSymbol? exclude name) := by
  refine Pointwise.findSome? (newestFirst_and (Pointwise.and h hP) exclude) ?_
  rintro ⟨token, image⟩ ⟨_, image'⟩ ⟨⟨himage, hP⟩, rfl⟩
  dsimp only
  rw [himage.tables.symbols]
  cases image.tables.symbols.find? name with
  | none => exact .none
  | some rva => exact .some ⟨⟨rfl, rfl, himage⟩, hP⟩

/-- The newest instance of a symbol is the same one, whatever the spellings. -/
theorem Respells.findSymbol? (h : r.Respells s) (exclude : Option Token) (name : String) :
    Option.Rel FoundSymbol.Respells (r.findSymbol? exclude name) (s.findSymbol? exclude name) := by
  have hfound := h.findSymbol?_and (P := fun _ _ ↦ True) ?_ exclude name
  · simpa only [and_true] using hfound
  · exact List.Forall₂.imp (fun _ _ _ ↦ trivial) h

/-- Where images are mapped does not depend on spellings. -/
theorem Respells.bases (h : r.Respells s) (pid : UInt32) : s.bases pid = r.bases pid := by
  have hbases : List.Forall₂ (· = ·) (r.bases pid) (s.bases pid) :=
    List.rel_map (fun i j hij ↦ by rw [hij.processes]) h
  rw [List.forall₂_eq_eq_eq] at hbases
  exact hbases.symm

/-- The mapping of an image does not depend on spellings. -/
theorem Respells.mapping? (h : r.Respells s) (pid : UInt32) (token : Token) :
    s.mapping? pid token = r.mapping? pid token := by
  have hget := Pointwise.getElem? h token.index
  unfold Registry.mapping? Registry.get?
  rw [h.bases pid]
  generalize r.images[token.index]? = x at hget ⊢
  generalize s.images[token.index]? = y at hget ⊢
  cases hget with
  | none => rfl
  | some hij => simp only [hij.size, Option.bind_eq_bind, Option.bind_some]

end Registry

namespace FoundSymbol

variable {f g : FoundSymbol}

/-- Whether an instance of a function was linked in from a static library. -/
def isFromLibrary (f : FoundSymbol) : Outcome Bool := do
  return Activation.isFromLibrary f.image (← f.image.tables.contributions.find f.rva)

/-- Which instances come from libraries does not depend on spellings that keep units. -/
theorem Respells.isFromLibrary (h : f.Respells g) (hunits : f.image.tables.KeepsUnits g.image.tables) :
    g.isFromLibrary = f.isFromLibrary := by
  unfold FoundSymbol.isFromLibrary
  rw [h.rva]
  refine ((h.image.tables.contributions.find_and hunits f.rva).bind_eq fun x y hxy ↦ ?_).symm
  cases hxy with
  | none => rfl
  | @some c d hcd =>
    change Except.ok (!f.image.tables.compilands.contains c.object)
      = Except.ok (!g.image.tables.compilands.contains d.object)
    rw [h.image.tables.compilands, hcd.2]

end FoundSymbol

namespace PatchView

variable {v w : PatchView}

/-- The newest instance of a symbol outside the patch. -/
def existing? (v : PatchView) (name : String) : Option FoundSymbol :=
  v.registry.findSymbol? (some v.token) name

/-- Two views find the same names freshly defined, of those whose references can be redirected. -/
def DefinesAlike (v w : PatchView) : Prop :=
  ∀ name, Names.isRedirectable name = true → (v.existing? name).isSome = true →
    w.tables.definesFreshly name = v.tables.definesFreshly name

/-- References are resolved by two views in the same way. -/
def ResolvesAlike (v w : PatchView) : Prop :=
  ∀ r source rva stripped, w.resolve r source rva stripped = v.resolve r source rva stripped

theorem Respells.existing? (h : v.Respells w) (name : String) :
    Option.Rel FoundSymbol.Respells (v.existing? name) (w.existing? name) := by
  unfold PatchView.existing?
  rw [h.token]
  exact h.registry.findSymbol? _ _

/-- A reference that asks for nothing but a name: it is redirected unless the name is freshly
defined. -/
private theorem resolve_bare {name : String} (hname : Names.isRedirectable name = true)
    {existing : FoundSymbol} (hexisting : v.existing? name = some existing) :
    v.resolve ⟨0, name, 0, .wideVa⟩ "" 0 [] = (do
      let isFresh ← v.tables.definesFreshly name
      pure (if isFresh then none else some ⟨.wideVa, 0, existing.token, existing.rva, 0⟩)) := by
  have hredirectable : Relocation.isRedirectable ⟨0, name, 0, .wideVa⟩ "" = true := by
    rw [Relocation.isRedirectable, hname]
    rfl
  unfold PatchView.existing? at hexisting
  unfold PatchView.resolve
  rw [hredirectable, hexisting]
  change v.tables.definesFreshly name >>= _ = _
  refine bind_congr fun isFresh ↦ ?_
  cases isFresh <;> rfl

/-- Which references are redirected, and how, is decided by what the patch defines freshly. -/
theorem Respells.resolvesAlike_iff (h : v.Respells w) : v.ResolvesAlike w ↔ v.DefinesAlike w := by
  constructor
  · intro hresolves name hname hsome
    have hexisting := h.existing? name
    obtain ⟨e, he⟩ := Option.isSome_iff_exists.mp hsome
    rw [he] at hexisting
    obtain ⟨f, hf⟩ : ∃ f, w.existing? name = some f := by
      generalize w.existing? name = y at hexisting
      cases hexisting with
      | some _ => exact ⟨_, rfl⟩
    have hresolve := hresolves ⟨0, name, 0, .wideVa⟩ "" 0 []
    rw [resolve_bare hname he, resolve_bare hname hf] at hresolve
    rcases hw : w.tables.definesFreshly name with stop | isFresh <;>
      rcases hv : v.tables.definesFreshly name with stop' | isFresh' <;>
      rw [hv, hw] at hresolve
    · exact congrArg Except.error (Except.error.inj hresolve)
    · cases hresolve
    · cases hresolve
    · have hrecord := Except.ok.inj hresolve
      cases isFresh <;> cases isFresh' <;> first | rfl | cases hrecord
  · intro hdefines r source rva stripped
    have hexisting := h.existing? r.target
    have hfresh := hdefines r.target
    unfold PatchView.existing? at hexisting hfresh
    unfold PatchView.resolve
    cases hredirectable : r.isRedirectable source with
    | false => rfl
    | true =>
      have hname : Names.isRedirectable r.target = true := by
        unfold Relocation.isRedirectable at hredirectable
        simp only [Bool.and_eq_true] at hredirectable
        exact hredirectable.1.1.2
      generalize v.registry.findSymbol? (some v.token) r.target = x at hexisting hfresh ⊢
      generalize w.registry.findSymbol? (some w.token) r.target = y at hexisting ⊢
      cases hexisting with
      | none => rfl
      | some hfound =>
        dsimp only
        rw [hfresh hname rfl, hfound.token, hfound.rva]

/-- References that are resolved in the same way are collected in the same way. -/
theorem Respells.collect (h : v.Respells w) (hresolves : v.ResolvesAlike w) (phase : Phase)
    (object : ObjectTable) (stripped : List String) :
    w.collect phase object stripped = v.collect phase object stripped := by
  have hsymbol : w.collectSymbol phase object stripped = v.collectSymbol phase object stripped := by
    funext s
    unfold PatchView.collectSymbol
    rw [h.tables.symbols]
    simp only [h.tables.isContributedBy, hresolves _ s.name _ stripped]
  unfold PatchView.collect
  rw [hsymbol]

end PatchView

namespace Activation

variable {a b : Activation} {f g : FoundSymbol}

/-- What of a function's code is looked at in a process does not depend on spellings. -/
theorem optionsIn_of_respells {r s : Registry} (h : r.Respells s) (hfound : f.Respells g)
    (size : UInt32) (ips : List UInt64) : optionsIn s g size ips = optionsIn r f size ips := by
  unfold optionsIn
  simp only [h.mapping?, hfound.token, hfound.rva, hfound.image.size]

/-- Nor does what is looked at in all processes, or in the file where there is none. -/
theorem Respells.optionsEverywhere (h : a.Respells b) (hfound : f.Respells g) (size : UInt32)
    (ips : List (List UInt64)) :
    b.optionsEverywhere g size ips = a.optionsEverywhere f size ips := by
  unfold Activation.optionsEverywhere
  simp only [optionsIn_of_respells h.view.registry hfound, h.files, hfound.image.path, hfound.rva]

/-- The plan for a function, once it is known not to come from a library. -/
theorem Respells.planFunction (h : a.Respells b) {name : String}
    (hlibrary : (b.view.existing? name).map FoundSymbol.isFromLibrary
      = (a.view.existing? name).map FoundSymbol.isFromLibrary) (ips : List (List UInt64)) :
    b.planFunction ips name = a.planFunction ips name := by
  have hexisting := h.view.existing? name
  unfold PatchView.existing? at hexisting hlibrary
  unfold Activation.planFunction
  rw [h.view.tables.symbols]
  generalize a.view.registry.findSymbol? (some a.view.token) name = x at hexisting hlibrary ⊢
  generalize b.view.registry.findSymbol? (some b.view.token) name = y at hexisting hlibrary ⊢
  cases a.view.tables.symbols.find? name with
  | none => rfl
  | some own =>
    cases hexisting with
    | none => rfl
    | @some f g hfound =>
      dsimp only
      have hcontribution := hfound.image.tables.contributions.find f.rva
      rw [Option.map_some, Option.map_some, Option.some_inj] at hlibrary
      unfold FoundSymbol.isFromLibrary at hlibrary
      rw [hfound.rva] at hlibrary ⊢
      rw [hfound.token, hfound.image.tables.thunks]
      generalize f.image.tables.contributions.find f.rva = x at hcontribution hlibrary ⊢
      generalize g.image.tables.contributions.find f.rva = y at hcontribution hlibrary ⊢
      have hplan : Outcome.Related (fun c d ↦ Option.Rel Contribution.Respells c d ∧
          isFromLibrary g.image d = isFromLibrary f.image c) x y := by
        cases hcontribution with
        | ok hcd => exact .ok ⟨hcd, Except.ok.inj hlibrary⟩
        | error stop => exact .error stop
      refine (hplan.lift_bind_eq ?_).symm
      rintro c d ⟨hcd, hsame⟩
      rw [hsame]
      cases hcd with
      | none => simp only [h.optionsEverywhere hfound]
      | some hcd => simp only [h.optionsEverywhere hfound, restOf, hcd.rva, hcd.size]

/-- Every object file of the patch, and of every image, belongs to a unit of it under both spellings
or under neither. -/
structure KeepsUnits (a b : Activation) : Prop where
  patch : a.view.tables.KeepsUnits b.view.tables
  images : List.Forall₂ (fun i j ↦ i.tables.KeepsUnits j.tables) a.view.registry.images
    b.view.registry.images

/-- What a symbol came from, which references are redirected and how functions are is decided without
regard to how object files are spelled, but for one thing: whether an object file belongs to a unit.
References are redirected alike under two spellings exactly if the patch freshly defines the same
names under both, and a function is planned alike if its instance is taken to come from a library
under both or under neither. Both are so for spellings that keep every object file in its unit. -/
theorem decides_alike_but_for_units (h : a.Respells b) :
    (∀ rva object, b.view.tables.isContributedBy rva object
      = a.view.tables.isContributedBy rva object) ∧
    (a.view.ResolvesAlike b.view ↔ a.view.DefinesAlike b.view) ∧
    (a.view.DefinesAlike b.view → ∀ phase object stripped,
      b.view.collect phase object stripped = a.view.collect phase object stripped) ∧
    (∀ name, (b.view.existing? name).map FoundSymbol.isFromLibrary
        = (a.view.existing? name).map FoundSymbol.isFromLibrary →
      ∀ ips, b.planFunction ips name = a.planFunction ips name) ∧
    (a.KeepsUnits b → a.view.DefinesAlike b.view ∧
      ∀ name, (b.view.existing? name).map FoundSymbol.isFromLibrary
        = (a.view.existing? name).map FoundSymbol.isFromLibrary) := by
  refine ⟨h.view.tables.isContributedBy, h.view.resolvesAlike_iff,
    fun hdefines ↦ h.view.collect (h.view.resolvesAlike_iff.mpr hdefines),
    fun name hlibrary ↦ h.planFunction hlibrary,
    fun hunits ↦ ⟨fun name _ _ ↦ h.view.tables.definesFreshly hunits.patch name, fun name ↦ ?_⟩⟩
  have hexisting := h.view.registry.findSymbol?_and hunits.images (some a.view.token) name
  unfold PatchView.existing?
  rw [h.view.token]
  generalize a.view.registry.findSymbol? (some a.view.token) name = x at hexisting ⊢
  generalize b.view.registry.findSymbol? (some a.view.token) name = y at hexisting ⊢
  cases hexisting with
  | none => rfl
  | some hfound => exact congrArg some (hfound.1.isFromLibrary hfound.2)

namespace UpperCase

/-- Tables of an image with one function, whose unit's object file is `b.obj`. The contribution
spells that file as it likes. -/
def tables (rva : UInt32) (spelling : Path) : ImageTables where
  symbols := .ofList [("f", rva)]
  contributions := .ofList [(spelling, rva, 0x10)]
  compilands := CompilandTable.empty.add (.ofPaths ⟨"b.c"⟩ ⟨"b.obj"⟩)
  thunks := .empty
  sections := []

/-- A patch with a new version of the module's function. -/
def activation (spelling : Path) : Activation where
  files := .empty
  view := ⟨⟨[⟨⟨"app.dll"⟩, tables 0x10 spelling, 0x20, [⟨7, 0x140000000⟩]⟩,
    ⟨⟨"app.patch_0.dll"⟩, tables 0x100 spelling, 0x110, []⟩]⟩, ⟨1⟩, tables 0x100 spelling⟩
  image := ⟨⟨"app.patch_0.dll"⟩, #[]⟩

/-- The only process, whose code does nothing. -/
def staged : Staged :=
  .ofProcess ⟨(Target.ofPid 7).map 0x140000000 (Bytes.fill 0x20 0x90), .willing, none, 0x140000000,
    []⟩

/-- A reference of the patch to the function. -/
def reference : Relocation := ⟨0, "f", -4, .relative 0⟩

/-- Both spellings have one normalized form. -/
private theorem normalized_upperCase :
    (⟨"B.OBJ"⟩ : Path).normalized = (⟨"b.obj"⟩ : Path).normalized := by decide +kernel

private theorem respells_tables (rva : UInt32) :
    (tables rva ⟨"b.obj"⟩).Respells (tables rva ⟨"B.OBJ"⟩) where
  symbols := rfl
  contributions := .cons ⟨rfl, rfl, normalized_upperCase⟩ .nil
  compilands := rfl
  thunks := rfl
  sections := rfl

private theorem respells_activation : (activation ⟨"b.obj"⟩).Respells (activation ⟨"B.OBJ"⟩) where
  files := rfl
  view := ⟨.cons ⟨rfl, respells_tables _, rfl, rfl⟩ (.cons ⟨rfl, respells_tables _, rfl, rfl⟩ .nil),
    rfl, respells_tables _⟩
  image := rfl

/-- The new version is what the patch says it is under one spelling only. -/
private theorem resolve_reference :
    (activation ⟨"b.obj"⟩).view.resolve reference "g" 0x100 [] = .ok none ∧
    (activation ⟨"B.OBJ"⟩).view.resolve reference "g" 0x100 []
      = .ok (some ⟨.relative 0, 0x100, .module, 0x10, -4⟩) :=
  ⟨by decide +kernel, by decide +kernel⟩

end UpperCase

open UpperCase in
/-- Upper case makes an object file another one for the units of an image. -/
theorem upper_case_defines_otherwise :
    (activation ⟨"b.obj"⟩).Respells (activation ⟨"B.OBJ"⟩) ∧
    (∀ rva object, (activation ⟨"B.OBJ"⟩).view.tables.isContributedBy rva object
      = (activation ⟨"b.obj"⟩).view.tables.isContributedBy rva object) ∧
    ¬ (activation ⟨"b.obj"⟩).view.DefinesAlike (activation ⟨"B.OBJ"⟩).view ∧
    ¬ (activation ⟨"b.obj"⟩).KeepsUnits (activation ⟨"B.OBJ"⟩) := by
  obtain ⟨hcontributed, hresolves, -, -, hunits⟩ := decides_alike_but_for_units respells_activation
  have hdefines : ¬ (activation ⟨"b.obj"⟩).view.DefinesAlike (activation ⟨"B.OBJ"⟩).view := by
    intro hdefines
    have hsame := hresolves.mpr hdefines reference "g" 0x100 []
    rw [resolve_reference.1, resolve_reference.2] at hsame
    cases hsame
  exact ⟨respells_activation, hcontributed, hdefines, fun h ↦ hdefines (hunits h).1⟩

open UpperCase in
/-- Spelling an object file in upper case leads a reference back to the old version of a function,
and leaves the function itself to a library that there is not. -/
theorem upper_case_turns_reference_and_function_around :
    (activation ⟨"b.obj"⟩).Respells (activation ⟨"B.OBJ"⟩) ∧
    (activation ⟨"b.obj"⟩).view.resolve reference "g" 0x100 [] = .ok none ∧
    (activation ⟨"B.OBJ"⟩).view.resolve reference "g" 0x100 []
      = .ok (some ⟨.relative 0, 0x100, .module, 0x10, -4⟩) ∧
    (((activation ⟨"b.obj"⟩).planFunction [[]] "f").run [staged]).1
      = .ok (some ⟨"f", .module, 0x10, 0x100, .direct 5, []⟩) ∧
    (((activation ⟨"B.OBJ"⟩).planFunction [[]] "f").run [staged]).1 = .ok none :=
  ⟨respells_activation, resolve_reference.1, resolve_reference.2, by decide +kernel,
    by decide +kernel⟩

end Activation

end LivePatch
