import LivePatch.Proofs.Session.Growth
import Mathlib.Data.List.Chain
import Mathlib.Data.List.Perm.Subperm

/-!
# Chains of redirections

A patch redirects a function of the newest image before it to its own, or its copy of a library
function to the one there, never both. So the instances of a function, in the order of their images,
are connected one to the next, each pair in one direction only, and whoever follows redirections
never turns around: nobody comes by the same instance twice, or by more instances than there are
images.
-/

namespace LivePatch

open SymbolTable

/-- Where a function starts in an image. -/
structure Place where
  image : Token
  rva : UInt32
  deriving DecidableEq, Repr

/-- A redirection of one instance of a function to another. -/
structure Hop where
  name : String
  source : Place
  target : Place
  deriving DecidableEq, Repr

/-- The redirection of an existing instance to the one in a patch. -/
def FunctionRedirection.hop (r : FunctionRedirection) (patch : Token) : Hop :=
  ⟨r.name, ⟨r.existing, r.existingRva⟩, ⟨patch, r.patchRva⟩⟩

/-- The redirection of a patch's copy to the existing instance. -/
def LibraryRedirection.hop (r : LibraryRedirection) (patch : Token) : Hop :=
  ⟨r.name, ⟨patch, r.patchRva⟩, ⟨r.existing, r.existingRva⟩⟩

/-- All redirections of a patch. -/
def PatchRecord.hops (p : PatchRecord) : List Hop :=
  p.functions.map (·.hop p.token) ++ p.libraryFunctions.map (·.hop p.token)

/-- Steps of two kinds that cannot follow one another are all of one kind. -/
theorem isChain_or_isChain {α : Type} {R S : α → α → Prop} (hRS : ∀ x y z, R x y → ¬ S y z)
    (hSR : ∀ x y z, S x y → ¬ R y z) {walk : List α}
    (h : walk.IsChain fun x y ↦ R x y ∨ S x y) : walk.IsChain R ∨ walk.IsChain S := by
  induction walk with
  | nil => exact .inl .nil
  | cons x rest ih =>
    cases rest with
    | nil => exact .inl (.singleton x)
    | cons y rest =>
      obtain ⟨hxy, hrest⟩ := List.isChain_cons_cons.mp h
      cases rest with
      | nil => exact hxy.imp (fun h ↦ .cons_cons h (.singleton y)) fun h ↦ .cons_cons h (.singleton y)
      | cons z rest =>
        rcases ih hrest with hR | hS
        · have hyz := (List.isChain_cons_cons.mp hR).1
          exact .inl (.cons_cons (hxy.resolve_right fun h ↦ hSR _ _ _ h hyz) hR)
        · have hyz := (List.isChain_cons_cons.mp hS).1
          exact .inr (.cons_cons (hxy.resolve_left fun h ↦ hRS _ _ _ h hyz) hS)

namespace Chronicle

/-- All redirections of all patches. -/
def hops (c : Chronicle) : List Hop := c.patches.flatMap PatchRecord.hops

/-- Some patch redirects one instance of a function to another. -/
def Leads (c : Chronicle) (x y : Place) : Prop := ∃ h ∈ c.hops, h.source = x ∧ h.target = y

/-- No image has two of the functions that patches redirect at one address. -/
def KeepsApart (c : Chronicle) : Prop :=
  ∀ t ∈ c.symbols, ∀ g ∈ c.hops, ∀ h ∈ c.hops, ∀ rva,
    t.find? g.name = some rva → t.find? h.name = some rva → g.name = h.name

/-- Patches are in the order of their images, and each is connected with the newest images before
its own. -/
structure IsConnected (c : Chronicle) : Prop where
  length : c.images.length = c.patches.length + 1
  tokens : ∀ (i : Nat) (p : PatchRecord), c.patches[i]? = some p → p.token.index = i + 1
  connects : ∀ p ∈ c.patches, ∃ own, c.symbols[p.token.index]? = some own ∧
    p.Connects c.symbols own

variable {c : Chronicle}

/-- A module alone has no redirections. -/
theorem isConnected_load (image : RegisteredImage) : IsConnected ⟨[image], []⟩ :=
  ⟨rfl, fun i p h ↦ by simp at h, fun p h ↦ by simp at h⟩

/-- A patch that is added is connected, and stays so. -/
theorem IsConnected.grows {c' : Chronicle} (hc : c.IsConnected) (h : c.Grows c') :
    c'.IsConnected := by
  cases h with
  | stays => exact hc
  | @adds a objects start patch staged staged' image himages htables hnewest htoken hrun =>
    obtain ⟨hsame, hconnects⟩ := (Activation.triple_run_connects hnewest htoken objects).ok trivial hrun
    have hsymbols : a.view.registry.symbols = c.symbols ++ [image.tables.symbols] := by
      rw [Registry.symbols_eq_unplaced, himages, List.map_append]
      rfl
    have hindex : patch.token.index = c.symbols.length := by
      rw [← Registry.length_symbols, hsymbols, List.length_append, List.length_singleton] at hnewest
      rw [hsame, htoken]
      omega
    have hlength : c.symbols.length = c.patches.length + 1 :=
      (List.length_map _).trans hc.length
    have hnew : (⟨c.images ++ [image], c.patches ++ [patch]⟩ : Chronicle).symbols
        = c.symbols ++ [image.tables.symbols] := List.map_append ..
    refine ⟨by simp [hc.length], fun i p hp ↦ ?_, fun p hp ↦ ?_⟩
    · rw [List.getElem?_append] at hp
      split at hp
      · exact hc.tokens i p hp
      · have hlt := (List.getElem?_eq_some_iff.mp hp).1
        rw [List.length_singleton] at hlt
        obtain rfl : patch = p := by
          rw [show i - c.patches.length = 0 by omega] at hp
          exact Option.some.inj hp
        omega
    · rw [hnew]
      rcases List.mem_append.mp hp with hp | hp
      · obtain ⟨own, hown, hp⟩ := hc.connects p hp
        have hlt := (List.getElem?_eq_some_iff.mp hown).1
        exact ⟨own, by rw [List.getElem?_append_left hlt, hown], hp.append (Nat.le_of_lt hlt) _⟩
      · rw [List.mem_singleton.mp hp]
        refine ⟨image.tables.symbols, by rw [hindex]; exact List.getElem?_concat_length, ?_⟩
        rw [← hsymbols, htables]
        exact hconnects

/-- The two instances of a function that a redirection of a patch connects: its own, and the one in
the newest image before. -/
structure Ties (c : Chronicle) (p : PatchRecord) (name : String) (own older : Place) : Prop where
  patch : p ∈ c.patches
  image : own.image = p.token
  address : addressIn? c.symbols own.image.index name = some own.rva
  newest : IsNewestBefore c.symbols own.image.index name older.image.index older.rva

/-- A redirection of an existing function leads to a newer image. -/
def Rises (c : Chronicle) (x y : Place) : Prop :=
  ∃ p, ∃ r ∈ p.functions, r.hop p.token = ⟨r.name, x, y⟩ ∧ c.Ties p r.name y x

/-- A redirection of a copy of a library function leads to an older image. -/
def Falls (c : Chronicle) (x y : Place) : Prop :=
  ∃ p, ∃ r ∈ p.libraryFunctions, r.hop p.token = ⟨r.name, x, y⟩ ∧ c.Ties p r.name x y

/-- Every redirection leads to a newer image or to an older one. -/
theorem IsConnected.rises_or_falls (hc : c.IsConnected) {x y : Place} (h : c.Leads x y) :
    c.Rises x y ∨ c.Falls x y := by
  obtain ⟨hop, hmem, rfl, rfl⟩ := h
  obtain ⟨p, hp, hhop⟩ := List.mem_flatMap.mp hmem
  obtain ⟨own, hown, hconnects⟩ := hc.connects p hp
  have haddress : ∀ {name rva}, own.find? name = some rva →
      addressIn? c.symbols p.token.index name = some rva := by
    intro name rva h
    rw [addressIn?, hown]
    exact h
  rcases List.mem_append.mp hhop with hhop | hhop
  · obtain ⟨r, hr, rfl⟩ := List.mem_map.mp hhop
    obtain ⟨hrva, hnewest⟩ := hconnects.functions r hr
    exact .inl ⟨p, r, hr, rfl, hp, rfl, haddress hrva, hnewest⟩
  · obtain ⟨r, hr, rfl⟩ := List.mem_map.mp hhop
    obtain ⟨hrva, hnewest⟩ := hconnects.libraryFunctions r hr
    exact .inr ⟨p, r, hr, rfl, hp, rfl, haddress hrva, hnewest⟩

theorem Rises.lt {x y : Place} (h : c.Rises x y) : x.image.index < y.image.index := by
  obtain ⟨_, _, _, _, hties⟩ := h
  exact hties.newest.before

theorem Falls.lt {x y : Place} (h : c.Falls x y) : y.image.index < x.image.index := by
  obtain ⟨_, _, _, _, hties⟩ := h
  exact hties.newest.before

/-- A patch is known by its image. -/
theorem IsConnected.eq_of_token (hc : c.IsConnected) {p q : PatchRecord} (hp : p ∈ c.patches)
    (hq : q ∈ c.patches) (h : p.token.index = q.token.index) : p = q := by
  obtain ⟨i, hi⟩ := List.mem_iff_getElem?.mp hp
  obtain ⟨j, hj⟩ := List.mem_iff_getElem?.mp hq
  have hij : i = j := by
    have := hc.tokens i p hi
    have := hc.tokens j q hj
    omega
  subst hij
  exact Option.some.inj (hi.symm.trans hj)

/-- Redirected functions at one address are one function. -/
theorem KeepsApart.name_eq (hapart : c.KeepsApart) {g h : Hop} (hg : g ∈ c.hops) (hh : h ∈ c.hops)
    {i : Nat} {rva : UInt32} (hgrva : addressIn? c.symbols i g.name = some rva)
    (hhrva : addressIn? c.symbols i h.name = some rva) : g.name = h.name := by
  obtain ⟨t, ht, hgrva⟩ := Option.bind_eq_some_iff.mp hgrva
  rw [addressIn?, ht] at hhrva
  exact hapart t (List.mem_of_getElem? ht) g hg h hh rva hgrva hhrva

theorem mem_hops_of_function {p : PatchRecord} (hp : p ∈ c.patches) {r : FunctionRedirection}
    (hr : r ∈ p.functions) : r.hop p.token ∈ c.hops :=
  List.mem_flatMap.mpr ⟨p, hp, List.mem_append_left _ (List.mem_map.mpr ⟨r, hr, rfl⟩)⟩

theorem mem_hops_of_library {p : PatchRecord} (hp : p ∈ c.patches) {r : LibraryRedirection}
    (hr : r ∈ p.libraryFunctions) : r.hop p.token ∈ c.hops :=
  List.mem_flatMap.mpr ⟨p, hp, List.mem_append_right _ (List.mem_map.mpr ⟨r, hr, rfl⟩)⟩

/-- No patch redirects a function in both directions. -/
theorem IsConnected.not_both (hc : c.IsConnected) {p : PatchRecord} (hp : p ∈ c.patches)
    {r : FunctionRedirection} (hr : r ∈ p.functions) {l : LibraryRedirection}
    (hl : l ∈ p.libraryFunctions) : r.name ≠ l.name := by
  obtain ⟨_, _, hconnects⟩ := hc.connects p hp
  exact hconnects.apart r hr l hl

/-- What leads to a patch's instance of a function does not lead on to an older one: the patch would
have redirected the function in both directions. -/
theorem IsConnected.not_falls_of_rises (hc : c.IsConnected) (hapart : c.KeepsApart) (x y z : Place)
    (hup : c.Rises x y) : ¬ c.Falls y z := by
  rintro ⟨q, l, hl, -, hq⟩
  obtain ⟨p, r, hr, -, hp⟩ := hup
  obtain rfl : p = q := hc.eq_of_token hp.patch hq.patch (by rw [← hp.image, ← hq.image])
  exact hc.not_both hp.patch hr hl (hapart.name_eq (mem_hops_of_function hp.patch hr)
    (mem_hops_of_library hp.patch hl) hp.address hq.address)

/-- What leads back to an older instance of a function does not lead on to a newer one: that one
would be in the next image that has the function, which is where one came from. -/
theorem IsConnected.not_rises_of_falls (hc : c.IsConnected) (hapart : c.KeepsApart) (x y z : Place)
    (hdown : c.Falls x y) : ¬ c.Rises y z := by
  rintro ⟨q, r, hr, -, hq⟩
  obtain ⟨p, l, hl, -, hp⟩ := hdown
  have hname : r.name = l.name := hapart.name_eq (mem_hops_of_function hq.patch hr)
    (mem_hops_of_library hp.patch hl) hq.newest.found hp.newest.found
  have hnewest := hq.newest
  have haddress := hq.address
  rw [hname] at hnewest haddress
  have hindex := hp.newest.stop_unique hnewest (by simp [hp.address]) (by simp [haddress])
  obtain rfl : p = q := hc.eq_of_token hp.patch hq.patch (by rw [← hp.image, ← hq.image, hindex])
  exact hc.not_both hp.patch hr hl hname

/-- Redirections that are followed lead to newer images only, or to older ones only. -/
theorem IsConnected.pairwise (hc : c.IsConnected) (hapart : c.KeepsApart) {walk : List Place}
    (h : walk.IsChain c.Leads) :
    walk.Pairwise (fun x y ↦ x.image.index < y.image.index) ∨
      walk.Pairwise fun x y ↦ y.image.index < x.image.index := by
  have hsteps : walk.IsChain fun x y ↦ c.Rises x y ∨ c.Falls x y :=
    h.imp fun _ _ ↦ hc.rises_or_falls
  refine (isChain_or_isChain (hc.not_falls_of_rises hapart) (hc.not_rises_of_falls hapart)
    hsteps).imp (fun hup ↦ ?_) fun hdown ↦ ?_
  · have : IsTrans Place fun x y ↦ x.image.index < y.image.index := ⟨fun _ _ _ => Nat.lt_trans⟩
    exact List.isChain_iff_pairwise.mp (hup.imp fun _ _ h ↦ h.lt)
  · have : IsTrans Place fun x y ↦ y.image.index < x.image.index :=
      ⟨fun _ _ _ h h' => Nat.lt_trans h' h⟩
    exact List.isChain_iff_pairwise.mp (hdown.imp fun _ _ h ↦ h.lt)

/-- Both ends of a redirection lie in images of the session. -/
theorem IsConnected.lt_of_leads (hc : c.IsConnected) {x y : Place} (h : c.Leads x y) :
    x.image.index < c.images.length ∧ y.image.index < c.images.length := by
  have hlt : ∀ {p name own older}, c.Ties p name own older →
      own.image.index < c.images.length := by
    intro p name own older hties
    obtain ⟨t, ht, -⟩ := Option.bind_eq_some_iff.mp hties.address
    have := (List.getElem?_eq_some_iff.mp ht).1
    rwa [symbols, List.length_map] at this
  rcases hc.rises_or_falls h with hup | hdown
  · obtain ⟨_, _, _, _, hties⟩ := id hup
    exact ⟨Nat.lt_trans hup.lt (hlt hties), hlt hties⟩
  · obtain ⟨_, _, _, _, hties⟩ := id hdown
    exact ⟨hlt hties, Nat.lt_trans hdown.lt (hlt hties)⟩

/-- Whoever follows redirections comes by an image once at most. -/
theorem IsConnected.nodup (hc : c.IsConnected) (hapart : c.KeepsApart) {walk : List Place}
    (h : walk.IsChain c.Leads) : (walk.map fun x ↦ x.image.index).Nodup := by
  rw [List.Nodup, List.pairwise_map]
  rcases hc.pairwise hapart h with hup | hdown
  · exact hup.imp fun h ↦ Nat.ne_of_lt h
  · exact hdown.imp fun h ↦ Nat.ne_of_gt h

/-- Whoever follows redirections stays in the images of the session. -/
theorem IsConnected.lt_of_mem_walk (hc : c.IsConnected) {x y : Place} {rest : List Place}
    (h : (x :: y :: rest).IsChain c.Leads) :
    ∀ z ∈ x :: y :: rest, z.image.index < c.images.length := by
  induction rest generalizing x y with
  | nil =>
    have hxy := hc.lt_of_leads (List.isChain_cons_cons.mp h).1
    simp [hxy]
  | cons z rest ih =>
    obtain ⟨hxy, hrest⟩ := List.isChain_cons_cons.mp h
    exact List.forall_mem_cons.mpr ⟨(hc.lt_of_leads hxy).1, ih hrest⟩

theorem IsConnected.length_le (hc : c.IsConnected) (hapart : c.KeepsApart) {walk : List Place}
    (h : walk.IsChain c.Leads) : walk.length ≤ c.images.length := by
  rcases walk with _ | ⟨x, _ | ⟨y, rest⟩⟩
  · exact Nat.zero_le _
  · rw [hc.length]
    exact Nat.le_add_left _ _
  · have hsub : (x :: y :: rest).map (fun z ↦ z.image.index) ⊆ List.range c.images.length := by
      intro i hi
      obtain ⟨z, hz, rfl⟩ := List.mem_map.mp hi
      exact List.mem_range.mpr (hc.lt_of_mem_walk h z hz)
    simpa using ((hc.nodup hapart h).subperm hsub).length_le

/-- No redirections lead from an instance back to itself. -/
theorem IsConnected.not_transGen (hc : c.IsConnected) (hapart : c.KeepsApart) (x : Place) :
    ¬ Relation.TransGen c.Leads x x := by
  intro h
  obtain ⟨y, hxy, hyx⟩ := Relation.TransGen.head'_iff.mp h
  obtain ⟨rest, hchain, hlast⟩ := List.exists_isChain_cons_of_relationReflTransGen hyx
  have hnodup := (hc.nodup hapart (.cons_cons hxy hchain)).of_map
  refine (List.nodup_cons.mp hnodup).1 ?_
  rw [← hlast]
  exact List.getLast_mem _

end Chronicle

namespace LiveModule

theorem Arises.isConnected {m : LiveModule} (h : m.Arises) : m.chronicle.IsConnected :=
  h.chronicle_induction Chronicle.isConnected_load fun _ _ hc hgrows ↦ hc.grows hgrows

/-- Redirections never form a loop, whatever operations a session went through: as long as no image
has two redirected functions at one address, no instance of a function leads back to itself, and
whoever follows redirections comes by no instance twice and by no more instances than there are
images. -/
theorem redirections_never_form_a_loop {m : LiveModule} (h : m.Arises)
    (hapart : m.chronicle.KeepsApart) :
    (∀ x, ¬ Relation.TransGen m.chronicle.Leads x x) ∧
      ∀ walk : List Place, walk.IsChain m.chronicle.Leads →
        walk.Nodup ∧ walk.length ≤ m.registry.size := by
  refine ⟨h.isConnected.not_transGen hapart, fun walk hwalk ↦
    ⟨(h.isConnected.nodup hapart hwalk).of_map, ?_⟩⟩
  rw [← Registry.length_unplaced]
  exact h.isConnected.length_le hapart hwalk

/-! A session in which a patch redirects a function of the module, and the next patch has a copy of
that function from a static library. -/

namespace ThereAndBack

/-- An image without sections, with a function behind five bytes of padding. -/
def image : Bytes :=
  (([0x4d, 0x5a, 0, 0, 0x50, 0x45, 0, 0] : List UInt8) ++ List.replicate 16 0
    ++ [112, 0, 0, 0, 0x0b, 0x02] ++ List.replicate 22 0
    ++ [0, 0, 1, 0x40, 1, 0, 0, 0] ++ [4, 0, 0, 0] ++ List.replicate 20 0 ++ [0, 0x10, 0, 0]
    ++ [177, 0, 0, 0] ++ List.replicate 48 0
    ++ List.replicate 5 0xcc ++ [0x31, 0xc0, 0xff, 0xc0, 0xc3] ++ List.replicate 27 0xcc).toArray

/-- An object file that defines the function. -/
def object : Bytes :=
  (([0x64, 0x86, 1, 0, 0, 0, 0, 0, 60, 0, 0, 0, 1, 0, 0, 0, 0, 0, 0, 0] : List UInt8)
    ++ [0x2e, 0x74, 0x65, 0x78, 0x74, 0, 0, 0] ++ List.replicate 28 0 ++ [0x20, 0, 0, 0x60]
    ++ [0x66, 0, 0, 0, 0, 0, 0, 0, 0, 0, 0, 0, 1, 0, 0x20, 0, 2, 0] ++ [4, 0, 0, 0]).toArray

/-- The module, an object file that defines the function and one that does not. -/
def files : FileTree := { FileTree.empty with
  nodes := [(["m"], .file image (.written 0)), (["f"], .file object (.written 0)),
    (["o"], .file Relinked.object (.written 0))] }

/-- The images have the function at one address; the second patch took it from a library. -/
def provider : Provider where
  symbols path := .ok ⟨[("f", 145)], [], if path = ⟨"/m.patch_1.dll"⟩ then ["f"] else []⟩
  contributions path := .ok
    (if path = ⟨"/m.patch_1.dll"⟩ then .ofList [(⟨"/library"⟩, 145, 8)] else .empty)
  compilands _ := .ok .empty
  thunks _ := .ok .empty
  sections _ := .ok []
  linker _ := .ok Relinked.linker

/-- The files, and a linker that writes the patches one after another. -/
def workshop : Workshop :=
  ⟨files, .empty, fun _ t ↦ (.ok ⟨0, ""⟩, t.put
    [if (t.at? ["m.patch_0.dll"]).isSome then "m.patch_1.dll" else "m.patch_0.dll"]
    (.file image (.written 1))), []⟩

/-- The module when it was just loaded. -/
def started : LiveModule where
  settings := .default
  path := ⟨"/m"⟩
  linker := Relinked.linker
  weakSymbols := []
  provider := provider
  workshop := workshop
  registry := Registry.empty.insert ⟨"/m"⟩ ⟨⟨[("f", 145)], [], []⟩, .empty, .empty, .empty, []⟩ 0x1000
  compilands := CompilandTable.empty.timed files
  processes := []
  patches := []
  modified := ∅
  pending := ∅
  counter := 0

/-- The session behind a cycle that links the object file which defines the function. -/
def redirected : Outcome CycleOutcome × LiveModule := (updateWithObjects [⟨"/f"⟩]).run started

/-- The session behind another cycle that does not. -/
def led : Outcome CycleOutcome × LiveModule := (updateWithObjects [⟨"/o"⟩]).run redirected.2

/-- The function of an image. -/
def function (index : Nat) : Place := ⟨⟨index⟩, 145⟩

/-- What the image and the cycles come to. Both cycles succeed, and the module's function and the
second patch's both lead to the first patch's. -/
class Evaluation : Prop where
  size : (⟨⟨"/m"⟩, image⟩ : Image).size = .ok 0x1000
  hops : redirected.1 = .ok .success ∧ led.1 = .ok .success ∧ led.2.chronicle.hops =
    [⟨"f", function 0, function 1⟩, ⟨"f", function 2, function 1⟩]

instance evaluation : Evaluation where
  size := by decide +kernel
  hops := by decide +kernel

theorem load_image : Image.load files ⟨"/m"⟩ = .ok ⟨⟨"/m"⟩, image⟩ :=
  Image.load_of_size rfl evaluation.size

theorem load_started : load ⟨"/m"⟩ .default provider workshop = .ok started :=
  load_eq_ok_iff.mpr ⟨_, _, _, _, _, rfl, rfl, load_image, evaluation.size, rfl, rfl⟩

theorem arises_led : led.2.Arises := by
  have hsuccess : ∀ (m : LiveModule) (objects : List Path), m.Arises →
      ((updateWithObjects objects).run m).1 = .ok .success →
      ((updateWithObjects objects).run m).2.Arises := fun _ _ hm houtcome ↦
    .operation hm (.updateWithObjects _) (r := .ok .success) (Prod.ext houtcome rfl)
      fun h ↦ by cases h
  exact hsuccess _ _ (hsuccess _ _ (.load _ _ _ _ load_started) evaluation.hops.1) evaluation.hops.2.1

end ThereAndBack

/-- Redirections in both directions form no loop. -/
theorem redirections_there_and_back_form_no_loop :
    ThereAndBack.led.2.Arises ∧ ThereAndBack.led.2.chronicle.KeepsApart ∧
    ThereAndBack.led.2.chronicle.Leads (ThereAndBack.function 0) (ThereAndBack.function 1) ∧
    ThereAndBack.led.2.chronicle.Leads (ThereAndBack.function 2) (ThereAndBack.function 1) ∧
    (∀ x, ¬ Relation.TransGen ThereAndBack.led.2.chronicle.Leads x x) ∧
    ∀ walk : List Place, walk.IsChain ThereAndBack.led.2.chronicle.Leads →
      walk.Nodup ∧ walk.length ≤ ThereAndBack.led.2.registry.size := by
  have hapart : ThereAndBack.led.2.chronicle.KeepsApart := by
    intro t _ g hg h hh rva _ _
    rw [ThereAndBack.evaluation.hops.2.2] at hg hh
    have hname : ∀ h ∈ [(⟨"f", ThereAndBack.function 0, ThereAndBack.function 1⟩ : Hop),
        ⟨"f", ThereAndBack.function 2, ThereAndBack.function 1⟩], h.name = "f" := by simp
    rw [hname g hg, hname h hh]
  have hleads : ∀ h ∈ ThereAndBack.led.2.chronicle.hops,
      ThereAndBack.led.2.chronicle.Leads h.source h.target := fun h hh ↦ ⟨h, hh, rfl, rfl⟩
  rw [ThereAndBack.evaluation.hops.2.2] at hleads
  exact ⟨ThereAndBack.arises_led, hapart, hleads _ (List.mem_cons_self ..),
    hleads _ (List.mem_cons_of_mem _ (List.mem_cons_self ..)),
    redirections_never_form_a_loop ThereAndBack.arises_led hapart⟩

end LiveModule
end LivePatch
