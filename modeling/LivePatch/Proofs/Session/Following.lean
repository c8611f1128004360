import LivePatch.Proofs.Session.Chains
import LivePatch.Proofs.Session.Serving

/-!
# Old code leads to the newest code

A patch redirects a function of the newest image before it alone. Older instances lead on to that
one, so that whoever follows the jumps from any of them comes to the newest instance, as long as no
patch in between left the function as it was. Behind such a gap the old code keeps running.
-/

namespace LivePatch

namespace Memory

/-- The code at an address jumps to a target, at once or by way of the jump in front of it. -/
def Jumps (m : Memory) (address target : UInt64) : Prop :=
  m.JumpsTo address target ∨
    m.StepsBack address ∧ m.JumpsTo (address - UInt64.ofNat X86.jumpSize) target

/-- Whoever follows jumps from one address comes to another. -/
def Reaches (m : Memory) : UInt64 → UInt64 → Prop := Relation.ReflTransGen m.Jumps

variable {m : Memory} {address target : UInt64}

/-- What is read from one address begins with the same byte. -/
theorem u8At?_of_read {code code' : Bytes} {len len' : Nat} (h : m.read address len = .ok code)
    (h' : m.read address len' = .ok code') (hlen : 0 < len) (hlen' : 0 < len') :
    code.u8At? 0 = code'.u8At? 0 := by
  obtain ⟨r, start, hwindow, rfl⟩ := read_eq_ok_iff.mp h
  obtain ⟨r', start', hwindow', rfl⟩ := read_eq_ok_iff.mp h'
  obtain ⟨hc, hstart, -, hle⟩ := window_eq_ok_iff.mp hwindow
  obtain ⟨hc', hstart', -, hle'⟩ := window_eq_ok_iff.mp hwindow'
  cases hc.symm.trans hc'
  obtain rfl : start = start' := hstart.trans hstart'.symm
  simp [Bytes.u8At?, hlen, hlen', hle, hle']

/-- Code that begins with neither jump leads nowhere. -/
theorem not_jumps_of_read {code : Bytes} {len : Nat} (h : m.read address len = .ok code)
    (hlen : 0 < len) (hlong : code.u8At? 0 ≠ some 0xe9) (hshort : code.u8At? 0 ≠ some 0xeb)
    (target : UInt64) : ¬ m.Jumps address target := by
  rintro (⟨code', hread, hfirst, -⟩ | ⟨hback, -⟩)
  · exact hlong ((u8At?_of_read h hread hlen (by decide)).trans hfirst)
  · have hread : m.read address X86.jumpToPadding.size = .ok X86.jumpToPadding := stepsBack_iff.mp hback
    exact hshort (u8At?_of_read h hread hlen (by decide))

end Memory

namespace LiveModule

open SymbolTable

variable {pid : UInt32} {m : LiveModule} {installed : List PatchRecord}

/-- Every patch behind an image that has a function redirects the instance before its own. It does so
in the process, and no other redirection has any of the bytes at that instance's start. -/
def IsUnbroken (m : LiveModule) (pid : UInt32) (installed : List PatchRecord) (name : String)
    (i : Nat) : Prop :=
  ∀ j, i < j → addressIn? m.registry.symbols j name ≠ none →
    ∃ q ∈ installed, q.token.index = j ∧
      ∃ r ∈ q.functions, r.name = name ∧ q.IsUnshared m.registry pid installed r

theorem chronicle_symbols (m : LiveModule) : m.chronicle.symbols = m.registry.symbols :=
  (Registry.symbols_eq_unplaced m.registry).symm

/-- What a redirection that a process has connects: the newest instance before, and the patch's. -/
theorem Serves.connects (h : m.Serves pid installed) {q : PatchRecord} (hq : q ∈ installed)
    {r : FunctionRedirection} (hr : r ∈ q.functions) :
    addressIn? m.registry.symbols q.token.index r.name = some r.patchRva ∧
      IsNewestBefore m.registry.symbols q.token.index r.name r.existing.index r.existingRva := by
  obtain ⟨p, hp, hpart⟩ := Pointwise.exists_right h.hasInPlace.parts hq
  obtain ⟨own, hown, hconnects⟩ := h.arises.isConnected.connects p hp
  rw [chronicle_symbols] at hown hconnects
  obtain ⟨hrva, hnewest⟩ := hconnects.functions r (hpart.functions hr)
  rw [hpart.token]
  refine ⟨?_, hnewest⟩
  rw [addressIn?, hown]
  exact hrva

/-- A redirection that a process has leads from the instance before to the patch's. -/
theorem Serves.jumps (h : m.Serves pid installed) {p : AttachedProcess}
    (hp : m.process? pid = some p) {q : PatchRecord} (hq : q ∈ installed) {r : FunctionRedirection}
    (hr : r ∈ q.functions) (hunshared : q.IsUnshared m.registry pid installed r)
    {existing image : Mapping} (hexisting : m.registry.mapping? pid r.existing = some existing)
    (himage : m.registry.mapping? pid q.token = some image) :
    ∃ start target, existing.address r.existingRva = .ok start ∧
      image.address r.patchRva = .ok target ∧ p.target.memory.Jumps start target := by
  have hroomy : r.technique.IsRoomy := by
    obtain ⟨a, ha, hpart⟩ := Pointwise.exists_right h.hasInPlace.parts hq
    exact h.arises.isRoomy a ha r (hpart.functions hr)
  obtain ⟨starts, hstarts, hfronts⟩ := h.hasInPlace.inPlace p hp q hq r hr image himage hunshared
  obtain ⟨start, target, hstart, htarget, hleads⟩ :=
    FunctionRedirection.leads_of_hasFronts hroomy hexisting hstarts hfronts
  refine ⟨start, target, hstart, htarget, ?_⟩
  split at hleads
  · exact .inl hleads
  · exact .inr hleads

/-- The instance of a function in an image starts at an address in a process. -/
def StartsAt (m : LiveModule) (pid : UInt32) (name : String) (i : Nat) (address : UInt64) : Prop :=
  ∃ rva image, addressIn? m.registry.symbols i name = some rva ∧
    m.registry.mapping? pid ⟨i⟩ = some image ∧ image.address rva = .ok address

/-- There is one address where an instance of a function starts in a process. -/
theorem StartsAt.unique {name : String} {i : Nat} {address address' : UInt64}
    (h : m.StartsAt pid name i address) (h' : m.StartsAt pid name i address') :
    address = address' := by
  obtain ⟨rva, image, hrva, himage, haddress⟩ := h
  obtain ⟨rva', image', hrva', himage', haddress'⟩ := h'
  cases hrva.symm.trans hrva'
  cases himage.symm.trans himage'
  exact Except.ok.inj (haddress.symm.trans haddress')

/-- All images of a session are mapped in a process. -/
def MapsAll (m : LiveModule) (pid : UInt32) : Prop :=
  ∀ token : Token, token.index < m.registry.size → (m.registry.mapping? pid token).isSome = true

/-- From an older instance, jumps lead to each newer one, if no patch behind the older one left the
function as it was. -/
theorem Serves.reaches (h : m.Serves pid installed) {p : AttachedProcess}
    (hp : m.process? pid = some p) (hall : m.MapsAll pid) {name : String} {i : Nat}
    (hunbroken : m.IsUnbroken pid installed name i)
    (hi : addressIn? m.registry.symbols i name ≠ none) {n : Nat} (hin : i < n)
    (hn : addressIn? m.registry.symbols n name ≠ none) :
    ∃ source target, m.StartsAt pid name i source ∧ m.StartsAt pid name n target ∧
      p.target.memory.Reaches source target := by
  induction n using Nat.strong_induction_on with
  | _ n ih =>
    obtain ⟨q, hq, rfl, r, hr, rfl, hunshared⟩ := hunbroken n hin hn
    obtain ⟨hown, hnewest⟩ := h.connects hq hr
    have hsize : q.token.index < m.registry.size := by
      obtain ⟨t, ht, -⟩ := Option.bind_eq_some_iff.mp hown
      rw [← Registry.length_symbols]
      exact (List.getElem?_eq_some_iff.mp ht).1
    obtain ⟨image, himage⟩ := Option.isSome_iff_exists.mp (hall q.token hsize)
    obtain ⟨existing, hexisting⟩ := Option.isSome_iff_exists.mp
      (hall r.existing (Nat.lt_trans hnewest.before hsize))
    obtain ⟨start, target, hstart, htarget, hjumps⟩ :=
      h.jumps hp hq hr hunshared hexisting himage
    have hold : m.StartsAt pid r.name r.existing.index start :=
      ⟨_, existing, hnewest.found, hexisting, hstart⟩
    have hnew : m.StartsAt pid r.name q.token.index target := ⟨_, image, hown, himage, htarget⟩
    -- the instance before is the one that the jumps start from, or a newer one
    have hle : i ≤ r.existing.index := by
      by_contra hlt
      exact hi (hnewest.newest i (Nat.lt_of_not_le hlt) hin)
    rcases Nat.eq_or_lt_of_le hle with heq | hlt
    · exact ⟨start, target, heq ▸ hold, hnew, .single hjumps⟩
    · obtain ⟨source, start', hsource, hstart', hreaches⟩ :=
        ih r.existing.index hnewest.before hlt (by rw [hnewest.found]; exact nofun)
      cases hold.unique hstart'
      exact ⟨source, target, hsource, hnew, hreaches.tail hjumps⟩

/-- No redirection of a function leads on from the newest patch that redirects it. -/
theorem Arises.source_ne_of_last (h : m.Arises) {patch : PatchRecord}
    (hpatch : m.patches.getLast? = some patch) {r : FunctionRedirection} (hr : r ∈ patch.functions) :
    ∀ hop ∈ m.chronicle.hops, hop.name = r.name → hop.source.image ≠ patch.token := by
  have hmem : patch ∈ m.chronicle.patches := List.mem_of_getLast? hpatch
  intro hop hhop hname heq
  obtain ⟨q, hq, hhop⟩ := List.mem_flatMap.mp hhop
  rcases List.mem_append.mp hhop with hhop | hhop
  · obtain ⟨r', hr', rfl⟩ := List.mem_map.mp hhop
    have hback := (h.isInStep.refersBack q hq).functions r' hr'
    have hle : q.token.index ≤ patch.token.index := by
      obtain ⟨front, hfront⟩ := List.getLast?_eq_some_iff.mp hpatch
      have hq : q ∈ front ++ [patch] := hfront ▸ hq
      rcases List.mem_append.mp hq with hq | hq
      · exact Nat.le_of_lt (h.isInStep.older hfront q hq).2
      · rw [List.mem_singleton.mp hq]
    have hindex : r'.existing.index = patch.token.index := congrArg Token.index heq
    omega
  · obtain ⟨l, hl, rfl⟩ := List.mem_map.mp hhop
    obtain rfl : q = patch := h.isConnected.eq_of_token hq hmem (congrArg Token.index heq)
    exact h.isConnected.not_both hmem hr hl hname.symm

/-- Old code leads to the newest code: in a process that a session serves and that has all its images,
whoever follows the jumps from a function in an older image comes to the function in the newest patch,
if that redirects it, and if every patch between the two that has the function redirected it as well,
in that process too, with jumps that share their bytes with no other redirection. There the jumps end:
no redirection of the function leads on. -/
theorem old_code_leads_to_newest_code (h : m.Serves pid installed) {p : AttachedProcess}
    (hp : m.process? pid = some p) (hall : m.MapsAll pid) {patch : PatchRecord}
    (hpatch : m.patches.getLast? = some patch) {r : FunctionRedirection} (hr : r ∈ patch.functions)
    {i : Nat} (holder : i < patch.token.index)
    (hi : addressIn? m.registry.symbols i r.name ≠ none)
    (hunbroken : m.IsUnbroken pid installed r.name i) :
    (∃ source target, m.StartsAt pid r.name i source ∧
      m.StartsAt pid r.name patch.token.index target ∧ p.target.memory.Reaches source target) ∧
    ∀ hop ∈ m.chronicle.hops, hop.name = r.name → hop.source.image ≠ patch.token := by
  have hmem : patch ∈ m.chronicle.patches := List.mem_of_getLast? hpatch
  obtain ⟨own, hown, hconnects⟩ := h.arises.isConnected.connects patch hmem
  have hn : addressIn? m.registry.symbols patch.token.index r.name ≠ none := by
    rw [chronicle_symbols] at hown
    rw [addressIn?, hown, Option.bind_some, (hconnects.functions r hr).1]
    exact Option.some_ne_none _
  exact ⟨h.reaches hp hall hunbroken hi holder hn, h.arises.source_ne_of_last hpatch hr⟩

deriving instance DecidableEq for PathMap, CompilandTable, ContributionTable, ThunkTable, SymbolTable,
  ImageTables, RegisteredImage, Registry

namespace Followed

/-- An image without sections, with two functions, the second also at an address of its own behind
five bytes of padding. -/
def image (base : UInt8) : Bytes :=
  (([0x4d, 0x5a, 0, 0, 0x50, 0x45, 0, 0] : List UInt8) ++ List.replicate 16 0
    ++ [112, 0, 0, 0, 0x0b, 0x02] ++ List.replicate 22 0
    ++ [0, 0, base, 0x40, 1, 0, 0, 0] ++ [4, 0, 0, 0] ++ List.replicate 20 0 ++ [0, 0x10, 0, 0]
    ++ [188, 0, 0, 0] ++ List.replicate 48 0
    ++ List.replicate 5 0xcc ++ [0x31, 0xc0, 0xc3, 0xff, 0xc0, 0xc3]
    ++ List.replicate 5 0xcc ++ [0xff, 0xc0, 0xc3] ++ List.replicate 29 0xcc).toArray

/-- An object file that defines both functions. -/
def object : Bytes :=
  (([0x64, 0x86, 1, 0, 0, 0, 0, 0, 60, 0, 0, 0, 2, 0, 0, 0, 0, 0, 0, 0] : List UInt8)
    ++ [0x2e, 0x74, 0x65, 0x78, 0x74, 0, 0, 0] ++ List.replicate 28 0 ++ [0x20, 0, 0, 0x60]
    ++ [0x66, 0, 0, 0, 0, 0, 0, 0, 0, 0, 0, 0, 1, 0, 0x20, 0, 2, 0]
    ++ [0x67, 0, 0, 0, 0, 0, 0, 0, 0, 0, 0, 0, 1, 0, 0x20, 0, 2, 0] ++ [4, 0, 0, 0]).toArray

/-- The module and the object file. -/
def files : FileTree := { FileTree.empty with
  nodes := [(["m"], .file (image 1) (.written 0)), (["o"], .file object (.written 0))] }

/-- In the module, nothing separates the second function from the first. -/
def tables (path : Path) : ImageTables :=
  ⟨⟨[("f", 145), ("g", if path = ⟨"/m"⟩ then 148 else 156)], [], []⟩, .empty, .empty, .empty, []⟩

/-- Tables with the functions alone. -/
def provider : Provider where
  symbols path := .ok (tables path).symbols
  contributions _ := .ok .empty
  compilands _ := .ok .empty
  thunks _ := .ok .empty
  sections _ := .ok []
  linker _ := .ok Relinked.linker

/-- The files, and a linker that writes a patch. -/
def workshop (name : String) (base : UInt8) : Workshop :=
  ⟨files, .empty, fun _ t ↦ (.ok ⟨0, ""⟩, t.put [name] (.file (image base) (.written 1))), []⟩

/-- A process with the module. -/
def process : AttachedProcess where
  target := (Target.ofPid 7).map 0x140000000 (image 1)
  agent := .willing
  commandThread := none
  moduleBase := 0x140000000
  redirected := []

/-- The module when it was just loaded. -/
def started : LiveModule where
  settings := .default
  path := ⟨"/m"⟩
  linker := Relinked.linker
  weakSymbols := []
  provider := provider
  workshop := workshop "m.patch_0.dll" 1
  registry := Registry.empty.insert ⟨"/m"⟩ (tables ⟨"/m"⟩) 0x1000
  compilands := CompilandTable.empty.timed files
  processes := []
  patches := []
  modified := ∅
  pending := ∅
  counter := 0

/-- The module with the process. -/
def attached : LiveModule := ((attach process).run started).2

/-- The session behind a cycle. -/
def once : Outcome CycleOutcome × LiveModule := (updateWithObjects [⟨"/o"⟩]).run attached

/-- An image of the session, mapped in the process. -/
def registered (path : Path) (base : UInt64) : RegisteredImage := ⟨path, tables path, 0x1000, [⟨7, base⟩]⟩

/-- The module and the first patch. -/
def images : List RegisteredImage :=
  [registered ⟨"/m"⟩ 0x140000000, registered ⟨"/m.patch_0.dll"⟩ 0x140010000]

/-- How the first function of the image before a patch leads to the one of the patch. -/
def first (existing : Nat) : FunctionRedirection := ⟨"f", ⟨existing⟩, 145, 145, .indirection, []⟩

/-- How the second function of the image before a patch leads to the one of the patch. -/
def second (existing : Nat) : FunctionRedirection := ⟨"g", ⟨existing⟩, 156, 156, .indirection, []⟩

/-- The first patch leaves the second function as it was. -/
def firstPatch : PatchRecord :=
  { PatchRecord.bare ⟨"/m.patch_0.dll"⟩ ⟨1⟩ 0x1000 none with functions := [first 0] }

/-- The second patch does not. -/
def secondPatch : PatchRecord :=
  { PatchRecord.bare ⟨"/m.patch_1.dll"⟩ ⟨2⟩ 0x1000 none with functions := [first 1, second 1] }

/-- The process with the first patch. -/
def served : AttachedProcess where
  target := ((Target.ofPid 7).map 0x140000000
    ((image 1).overwrite 140 #[0xe9, 0, 0, 1, 0, 0xeb, 0xf9])).map 0x140010000 (image 1)
  agent := .willing
  commandThread := none
  moduleBase := 0x140000000
  redirected := [0x140000091]

/-- The session behind the cycle, with files and a process that are known. -/
def between : LiveModule :=
  { started with
    registry := ⟨images⟩
    patches := [firstPatch]
    counter := 1
    processes := [served]
    workshop := workshop "m.patch_1.dll" 2 }

/-- The session behind another cycle. -/
def twice : Outcome CycleOutcome × LiveModule := (updateWithObjects [⟨"/o"⟩]).run between

/-- What the image and the cycles evaluate to. The first cycle redirects one function. The second
redirects both, and leaves the second function of the module alone. -/
class Evaluation : Prop where
  size : (⟨⟨"/m"⟩, image 1⟩ : Image).size = .ok 0x1000
  once : once.1 = .ok .success ∧ once.2.registry = ⟨images⟩ ∧ once.2.patches = [firstPatch] ∧
    once.2.processes.map AttachedProcess.pid = [7]
  twice : twice.1 = .ok .success ∧
    twice.2.registry = ⟨images ++ [registered ⟨"/m.patch_1.dll"⟩ 0x140020000]⟩ ∧
    twice.2.patches = [firstPatch, secondPatch] ∧
    twice.2.processes.map (fun p ↦ (p.pid, p.target.memory.read 0x140000094 5)) =
      [(7, .ok #[0xff, 0xc0, 0xc3, 0xcc, 0xcc])]
  roomOnce : ∀ p ∈ attached.processes, p.HasRoomFor ⟨images⟩ attached.registry.next
  roomTwice : ∀ p ∈ between.processes, p.HasRoomFor
    ⟨images ++ [registered ⟨"/m.patch_1.dll"⟩ 0x140020000]⟩ between.registry.next
  fronts : ∀ patch ∈ [firstPatch], ∀ r ∈ patch.functions, ∀ image,
    Registry.mapping? ⟨images⟩ 7 patch.token = some image →
    ∀ starts, r.startsIn ⟨images⟩ 7 image = .ok starts → served.target.memory.HasFronts starts
  unshared : ∀ q ∈ [firstPatch, secondPatch], ∀ r ∈ q.functions,
    q.IsUnshared ⟨images ++ [registered ⟨"/m.patch_1.dll"⟩ 0x140020000]⟩ 7
      [firstPatch, secondPatch] r

instance evaluation : Evaluation where
  size := by decide +kernel
  once := by decide +kernel
  twice := by decide +kernel
  roomOnce := by decide +kernel
  roomTwice := by decide +kernel
  fronts := by decide +kernel
  unshared := by decide +kernel

theorem load_image : Image.load files ⟨"/m"⟩ = .ok ⟨⟨"/m"⟩, image 1⟩ :=
  Image.load_of_size rfl evaluation.size

theorem load_started :
    load ⟨"/m"⟩ .default provider (workshop "m.patch_0.dll" 1) = .ok started :=
  load_eq_ok_iff.mpr ⟨_, _, _, _, _, rfl, rfl, load_image, evaluation.size, rfl, rfl⟩

theorem serves_once : once.2.Serves 7 [firstPatch] := by
  obtain ⟨hsuccess, hregistry, hpatches, -⟩ := evaluation.once
  have hattached : attached.Arises :=
    .operation (.load _ _ _ _ load_started) (.attach process) (r := .ok ()) rfl nofun
  have hrun : (updateWithObjects [⟨"/o"⟩]).run attached = (.ok .success, once.2) := by
    rw [← hsuccess]
    exact (Prod.eta _).symm
  refine .cycle (.start hattached rfl) (.updateWithObjects _) hrun hpatches ?_
  rw [hregistry]
  exact evaluation.roomOnce

theorem passes_between : Passes 7 [firstPatch] once.2 between where
  arises := .surroundings serves_once.arises evaluation.once.2.1.symm evaluation.once.2.2.1.symm
    evaluation.once.2.2.2.symm
  patches := evaluation.once.2.2.1.symm
  mapped token := by rw [evaluation.once.2.1]; rfl
  jumps q hq := by
    obtain ⟨p, hp⟩ : ∃ p, once.2.process? 7 = some p := by
      obtain ⟨p, hp, hpid⟩ := List.mem_map.mp (evaluation.once.2.2.2 ▸ List.mem_singleton_self 7 :
        7 ∈ once.2.processes.map AttachedProcess.pid)
      exact ⟨p, hpid ▸ process?_of_mem serves_once.arises.reachable.isConsistent hp⟩
    obtain rfl : served = q := Option.some.inj hq
    refine ⟨p, hp, ?_⟩
    rw [evaluation.once.2.1]
    exact fun patch hpatch r hr image himage starts hstarts _ ↦
      evaluation.fronts patch hpatch r hr image himage starts hstarts

theorem serves_twice : twice.2.Serves 7 [firstPatch, secondPatch] := by
  obtain ⟨hsuccess, hregistry, hpatches, -⟩ := evaluation.twice
  have hrun : (updateWithObjects [⟨"/o"⟩]).run between = (.ok .success, twice.2) := by
    rw [← hsuccess]
    exact (Prod.eta _).symm
  refine .cycle (.passes serves_once passes_between) (.updateWithObjects _) hrun hpatches ?_
  rw [hregistry]
  exact evaluation.roomTwice

theorem mapsAll_twice : twice.2.MapsAll 7 := by
  unfold MapsAll
  rw [evaluation.twice.2.1]
  rintro ⟨index⟩ hindex
  match index, hindex with
  | 0, _ | 1, _ | 2, _ => rfl

/-- The process, and what is at the start of the module's second function. -/
theorem exists_process : ∃ p, twice.2.process? 7 = some p ∧
    p.target.memory.read 0x140000094 5 = .ok #[0xff, 0xc0, 0xc3, 0xcc, 0xcc] := by
  obtain ⟨p, hp, heq⟩ := List.mem_map.mp (evaluation.twice.2.2.2 ▸ List.mem_singleton_self _ :
    (7, .ok #[0xff, 0xc0, 0xc3, 0xcc, 0xcc]) ∈ twice.2.processes.map
      fun p ↦ (p.pid, p.target.memory.read 0x140000094 5))
  obtain ⟨hpid, hread⟩ := Prod.mk.inj heq
  exact ⟨p, hpid ▸ process?_of_mem serves_twice.arises.reachable.isConsistent hp, hread⟩

theorem isUnshared_twice : ∀ q ∈ [firstPatch, secondPatch], ∀ r ∈ q.functions,
    q.IsUnshared twice.2.registry 7 [firstPatch, secondPatch] r := by
  rw [evaluation.twice.2.1]
  exact evaluation.unshared

theorem isUnbroken_twice : twice.2.IsUnbroken 7 [firstPatch, secondPatch] "f" 0 := by
  intro j hj hfound
  rw [evaluation.twice.2.1] at hfound
  rcases j with _ | _ | _ | j
  · exact absurd hj (Nat.lt_irrefl 0)
  · exact ⟨firstPatch, by decide, rfl, first 0, by decide, rfl,
      isUnshared_twice _ (by decide) _ (by decide)⟩
  · exact ⟨secondPatch, by decide, rfl, first 1, by decide, rfl,
      isUnshared_twice _ (by decide) _ (by decide)⟩
  · exact absurd rfl hfound

end Followed

/-- Two cycles, each of which redirected the first function, lead from the module's to the newest. -/
theorem module_leads_to_newest_code :
    ∃ p, Followed.twice.2.process? 7 = some p ∧
      ((∃ source target, Followed.twice.2.StartsAt 7 "f" 0 source ∧
        Followed.twice.2.StartsAt 7 "f" 2 target ∧ p.target.memory.Reaches source target) ∧
      ∀ hop ∈ Followed.twice.2.chronicle.hops, hop.name = "f" → hop.source.image ≠ ⟨2⟩) := by
  obtain ⟨p, hp, -⟩ := Followed.exists_process
  have hlast : Followed.twice.2.patches.getLast? = some Followed.secondPatch := by
    rw [Followed.evaluation.twice.2.2.1]
    rfl
  have hold : addressIn? Followed.twice.2.registry.symbols 0 "f" ≠ none := by
    rw [Followed.evaluation.twice.2.1]
    exact nofun
  have hr : Followed.first 1 ∈ Followed.secondPatch.functions := by decide
  exact ⟨p, hp, old_code_leads_to_newest_code Followed.serves_twice hp Followed.mapsAll_twice hlast hr
    (by decide) hold Followed.isUnbroken_twice⟩

/-- A cycle that left a function of the module as it was is in the way: the next cycle redirects the
first patch's instance alone, and nobody comes to the newest one from the module's. -/
theorem module_stays_behind_a_gap :
    ¬ ∀ (pid : UInt32) (installed : List PatchRecord) (m : LiveModule) (p : AttachedProcess)
        (patch : PatchRecord) (r : FunctionRedirection) (i : Nat),
      m.Serves pid installed → m.process? pid = some p → m.MapsAll pid →
      m.patches.getLast? = some patch → r ∈ patch.functions → i < patch.token.index →
      addressIn? m.registry.symbols i r.name ≠ none →
      (∀ q ∈ installed, ∀ r' ∈ q.functions, r'.name = r.name →
        q.IsUnshared m.registry pid installed r') →
      ∃ source target, m.StartsAt pid r.name i source ∧
        m.StartsAt pid r.name patch.token.index target ∧ p.target.memory.Reaches source target := by
  intro hreached
  obtain ⟨p, hp, hread⟩ := Followed.exists_process
  have hlast : Followed.twice.2.patches.getLast? = some Followed.secondPatch := by
    rw [Followed.evaluation.twice.2.2.1]
    rfl
  have hdefined : addressIn? Followed.twice.2.registry.symbols 0 "g" ≠ none := by
    rw [Followed.evaluation.twice.2.1]
    exact nofun
  have hr : Followed.second 1 ∈ Followed.secondPatch.functions := by decide
  obtain ⟨source, target, hsource, htarget, hreaches⟩ :=
    hreached 7 _ _ p _ _ 0 Followed.serves_twice hp Followed.mapsAll_twice hlast hr (by decide) hdefined
      fun q hq r' hr' _ ↦ Followed.isUnshared_twice q hq r' hr'
  have hold : Followed.twice.2.StartsAt 7 "g" 0 0x140000094 := by
    unfold StartsAt
    rw [Followed.evaluation.twice.2.1]
    exact ⟨148, ⟨0x140000000, 0x1000⟩, by decide +kernel, rfl, rfl⟩
  have hnew : Followed.twice.2.StartsAt 7 "g" 2 0x14002009c := by
    unfold StartsAt
    rw [Followed.evaluation.twice.2.1]
    exact ⟨156, ⟨0x140020000, 0x1000⟩, by decide +kernel, rfl, rfl⟩
  obtain rfl := hsource.unique hold
  obtain rfl := htarget.unique hnew
  rcases hreaches.cases_head with heq | ⟨_, hjumps, -⟩
  · exact absurd heq (by decide)
  · exact Memory.not_jumps_of_read hread (by decide) (by decide) (by decide) _ hjumps

end LiveModule
end LivePatch
