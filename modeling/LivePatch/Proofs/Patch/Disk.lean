import LivePatch.Patch.Plan
import LivePatch.Proofs.Images.Layout
import LivePatch.Proofs.Memory.Access
import LivePatch.Proofs.Patch.Loading
import LivePatch.Proofs.Patch.Undoing
import LivePatch.Proofs.Redirect.Technique

/-!
# Planning without a process

Where no process has an image, its functions are looked at in its file. That shows the code of a
function only when the whole window that is looked at lies in one piece in the file; a function near
the end of its section fails the activation, although it can be planned wherever the image is mapped.
-/

namespace LivePatch

namespace X86

/-- Covering code never leaves the range of addresses when the code does not. -/
theorem coverFrom_ne_fault {address : UInt64} {wanted fuel done : Nat} {code : List UInt8}
    (h : address.toNat + (done + code.length) < 0x10000000000000000) :
    coverFrom address wanted fuel done code ≠ .error .fault := by
  induction fuel generalizing done code with
  | zero => exact fun heq ↦ by cases heq
  | succ fuel ih =>
    unfold coverFrom
    split
    · exact fun heq ↦ by cases heq
    · split
      · have hdone : (UInt64.ofNat done).toNat = done :=
          UInt64.toNat_ofNat_of_lt' (by change done < 0x10000000000000000; omega)
        have hadd : Word.add64? address (UInt64.ofNat done)
            = some (address + UInt64.ofNat done) := by
          rw [Word.add64?, hdone, if_pos (by omega)]
        rw [hadd]
        exact fun heq ↦ by cases heq
      · split
        · exact fun heq ↦ by cases heq
        · next n hn =>
          have := le_of_instructionLength? hn
          exact ih (by rw [List.length_drop]; omega)

theorem covered_ne_fault {code : Bytes} {address : UInt64} (wanted : Nat)
    (h : address.toNat + code.size < 0x10000000000000000) :
    covered code address wanted ≠ .error .fault :=
  coverFrom_ne_fault (by rw [Array.length_toList]; omega)

end X86

namespace FunctionSite

variable {s : FunctionSite}

/-- Code inside the range of addresses can be looked at. -/
theorem covered?_eq_ok (wanted : Nat) (h : s.start.toNat + s.code.size < 0x10000000000000000) :
    ∃ covered, s.covered? wanted = .ok covered := by
  have hfault := X86.covered_ne_fault wanted h
  unfold covered?
  rcases hcovered : X86.covered s.code s.start wanted with (e | _) | covered
  · exact ⟨none, rfl⟩
  · exact (hfault hcovered).elim
  · exact ⟨some covered, rfl⟩

/-- Where there is no redirection yet, the code is as it was compiled. -/
theorem evaluate_of_not_isRedirected (hstart : s.isRedirected = false) (ips : List UInt64) :
    s.evaluate ips = (if X86.jumpSize ≤ s.size.toNat then do
        match ← s.covered? X86.jumpSize with
        | none => pure .nothing
        | some covered =>
          let direct ← s.directJump ips covered
          let indirection ← s.allowsIndirection ips
          pure ⟨direct, indirection⟩
      else do
        let indirection ← s.allowsIndirection ips
        pure ⟨none, indirection⟩) := by
  rw [evaluate, hstart, Bool.false_and]
  rfl

/-- What is found at the start of a function that nobody runs and that was not redirected. Only
whether an indirection is an option depends on the bytes in front of it. -/
theorem evaluate_eq_ok (hstart : s.isRedirected = false)
    (h : s.start.toNat + s.code.size < 0x10000000000000000) :
    ∃ o, s.evaluate [] = .ok o ∧
      evaluate { s with preceding := none } [] = .ok { o with indirection := false } := by
  have hnobody : ∀ start len, isInside [] start len = .ok false := fun _ _ ↦ rfl
  obtain ⟨first, hfirst⟩ := covered?_eq_ok 1 h
  obtain ⟨covered, hcovered⟩ := covered?_eq_ok X86.jumpSize h
  have hindirection : ∃ b, s.allowsIndirection [] = .ok b := by
    unfold allowsIndirection
    rw [hfirst]
    simp only [bind, Except.bind, hnobody]
    split <;> exact ⟨_, rfl⟩
  have hwithout : allowsIndirection { s with preceding := none } [] = .ok false := by
    unfold allowsIndirection
    rw [show covered? { s with preceding := none } 1 = .ok first from hfirst]
    simp [bind, Except.bind, hasPadding, hstart, pure, Except.pure]
  have hdirect : ∀ c, ∃ d, s.directJump [] c = .ok d ∧
      directJump { s with preceding := none } [] c = .ok d := by
    intro c
    unfold directJump
    split <;> exact ⟨_, rfl, rfl⟩
  obtain ⟨b, hb⟩ := hindirection
  have hsecond : covered? { s with preceding := none } X86.jumpSize = .ok covered := hcovered
  rw [evaluate_of_not_isRedirected hstart, evaluate_of_not_isRedirected (by exact hstart)]
  dsimp only
  split
  · cases covered with
    | none => exact ⟨.nothing, Outcome.bind_eq_ok_iff.mpr ⟨none, hcovered, rfl⟩,
        Outcome.bind_eq_ok_iff.mpr ⟨none, hsecond, rfl⟩⟩
    | some c =>
      obtain ⟨d, hd, hd'⟩ := hdirect c
      exact ⟨⟨d, b⟩,
        Outcome.bind_eq_ok_iff.mpr ⟨some c, hcovered, Outcome.bind_eq_ok_iff.mpr
          ⟨d, hd, Outcome.bind_eq_ok_iff.mpr ⟨b, hb, rfl⟩⟩⟩,
        Outcome.bind_eq_ok_iff.mpr ⟨some c, hsecond, Outcome.bind_eq_ok_iff.mpr
          ⟨d, hd', Outcome.bind_eq_ok_iff.mpr ⟨false, hwithout, rfl⟩⟩⟩⟩
  · exact ⟨⟨none, b⟩, Outcome.bind_eq_ok_iff.mpr ⟨b, hb, rfl⟩,
      Outcome.bind_eq_ok_iff.mpr ⟨false, hwithout, rfl⟩⟩

end FunctionSite

open ImageFormat

/-- A process in which an image is mapped at its base and nothing else happened: nothing runs in it,
nothing was redirected, and it refuses nothing. -/
structure AttachedProcess.IsPristine (p : AttachedProcess) (h : Headers) (data : Bytes) : Prop where
  memory : p.target.memory = Memory.empty.map h.base (h.layout data)
  threads : p.target.threads = []
  redirected : p.redirected = []
  refuses : ∀ c n, p.target.gate.refuses c n = false

namespace Memory

/-- What is read from the only region of a memory. -/
theorem read_map_empty {base address : UInt64} {bytes : Bytes} {offset len : Nat}
    (haddress : address.toNat = base.toNat + offset) (h : offset + len ≤ bytes.size)
    (hfits : bytes.size < 0x10000000000000000) :
    (empty.map base bytes).read address len = .ok (bytes.extract offset (offset + len)) := by
  have hle : base ≤ address := UInt64.le_iff_toNat_le.mpr (by omega)
  have hsub : (address - base).toNat = offset := by
    rw [UInt64.toNat_sub_of_le _ _ hle]
    omega
  have hcandidate : (empty.map base bytes).candidate? address = some ⟨base, bytes⟩ := by
    simp [candidate?, map, empty, hle]
  exact read_eq_ok_iff.mpr ⟨⟨base, bytes⟩, offset,
    window_eq_ok_iff.mpr ⟨hcandidate, hsub.symm, by omega, h⟩, rfl⟩

end Memory

namespace Activation

variable {h : Headers} {data : Bytes}

/-- A target that shows an image and refuses nothing. -/
def Shows (h : Headers) (data : Bytes) (t : Target) : Prop :=
  t.memory = Memory.empty.map h.base (h.layout data) ∧ ∀ c n, t.gate.refuses c n = false

/-- The address of a byte of an image that fits behind its base. -/
theorem address_eq_ok (hfits : h.base.toNat + h.imageSize.toNat < 0x10000000000000000)
    {rva : UInt32} (hrva : rva < h.imageSize) :
    Mapping.address ⟨h.base, h.imageSize⟩ rva = .ok (h.base + rva.toUInt64) := by
  have hlt : rva.toNat < h.imageSize.toNat := UInt32.lt_iff_toNat_lt.mp hrva
  have hsum : h.base.toNat + rva.toUInt64.toNat < 0x10000000000000000 := by
    rw [UInt32.toNat_toUInt64]
    omega
  rw [Mapping.address, if_pos hrva, Word.add64?, if_pos hsum]
  rfl

/-- Bytes of the image are read as they are mapped. -/
theorem triple_read_shown (hfits : h.base.toNat + h.imageSize.toNat < 0x10000000000000000)
    {rva : UInt32} {len : Nat} (hrva : rva < h.imageSize)
    (hin : rva.toNat + len ≤ h.imageSize.toNat) :
    Triple (Shows h data) (Mapping.read ⟨h.base, h.imageSize⟩ rva len)
      (fun bytes t ↦ bytes = (h.layout data).extract rva.toNat (rva.toNat + len) ∧ Shows h data t)
      fun _ ↦ False := by
  have hlt : rva.toNat < h.imageSize.toNat := UInt32.lt_iff_toNat_lt.mp hrva
  have hword : rva.toUInt64.toNat = rva.toNat := UInt32.toNat_toUInt64 rva
  have haddress := address_eq_ok hfits hrva
  have hcheck : Mapping.check ⟨h.base, h.imageSize⟩ rva len = .ok () := by
    rw [Mapping.check, if_pos hin]
  refine Triple.bind_ok hcheck (Triple.bind_ok haddress (Triple.inContext fun t ht ↦ ?_))
  rw [Target.run_readMemory, ht.2]
  have hread : t.memory.read (h.base + rva.toUInt64) len
      = .ok ((h.layout data).extract rva.toNat (rva.toNat + len)) := by
    rw [ht.1]
    refine Memory.read_map_empty ?_ (by rw [Headers.size_layout]; exact hin)
      (by rw [Headers.size_layout]; omega)
    rw [UInt64.toNat_add, hword, Nat.mod_eq_of_lt (by omega)]
  rw [if_neg (by simp), hread]
  exact ⟨rfl, ht.1, ht.2⟩

/-- The bytes that are looked at around a function, where the image is mapped. -/
structure ShownSite (h : Headers) (data : Bytes) (rva : UInt32) (site : Option Bytes × Bytes) :
    Prop where
  code : site.2 = (h.layout data).extract rva.toNat
    (rva.toNat + min (Word.monus32 h.imageSize rva).toNat inspectedBytes)
  preceding : site.1 = if X86.jumpSize ≤ rva.toNat then
    some ((h.layout data).extract (rva - UInt32.ofNat X86.jumpSize).toNat
      ((rva - UInt32.ofNat X86.jumpSize).toNat + X86.jumpSize)) else none

/-- Bytes that are looked at behind the start of a function inside an image. -/
theorem inspected_le {size rva : UInt32} (h : rva < size) :
    0 < min (Word.monus32 size rva).toNat inspectedBytes ∧
      rva.toNat + min (Word.monus32 size rva).toNat inspectedBytes ≤ size.toNat := by
  have hlt : rva.toNat < size.toNat := UInt32.lt_iff_toNat_lt.mp h
  have hmonus : (Word.monus32 size rva).toNat = size.toNat - rva.toNat := by
    rw [Word.monus32, if_pos (UInt32.le_of_lt h), UInt32.toNat_sub_of_le _ _ (UInt32.le_of_lt h)]
  rw [hmonus, inspectedBytes]
  omega

/-- The bytes in front of a function. -/
theorem toNat_sub_jumpSize {rva : UInt32} (h : X86.jumpSize ≤ rva.toNat) :
    (rva - UInt32.ofNat X86.jumpSize).toNat = rva.toNat - X86.jumpSize :=
  UInt32.toNat_sub_of_le _ _ (UInt32.le_iff_toNat_le.mpr h)

/-- Looking at a function of a mapped image shows the bytes of the image. -/
theorem triple_readSite_shown (hfits : h.base.toNat + h.imageSize.toNat < 0x10000000000000000)
    {rva : UInt32} (hrva : rva < h.imageSize) :
    Triple (Shows h data) (readSite ⟨h.base, h.imageSize⟩ rva h.imageSize)
      (fun site _ ↦ ShownSite h data rva site) fun _ ↦ False := by
  obtain ⟨hpos, hin⟩ := inspected_le hrva
  have hlt : rva.toNat < h.imageSize.toNat := UInt32.lt_iff_toNat_lt.mp hrva
  unfold readSite
  dsimp only
  rw [if_neg (by omega)]
  refine (triple_read_shown hfits hrva hin).bind fun code ↦ ?_
  split
  · next hjump =>
    have hfront := toNat_sub_jumpSize hjump
    have hinFront : (rva - UInt32.ofNat X86.jumpSize).toNat + X86.jumpSize
        ≤ h.imageSize.toNat := by omega
    have hbefore : rva - UInt32.ofNat X86.jumpSize < h.imageSize :=
      UInt32.lt_iff_toNat_lt.mpr (by rw [hfront]; omega)
    intro t ht
    refine (triple_read_shown hfits hbefore hinFront).bind (fun preceding ↦ ?_) t ht.2
    refine Triple.pure fun _ hpreceding ↦ ⟨ht.1, ?_⟩
    rw [if_pos hjump, hpreceding.1]
  · next hjump =>
    refine Triple.pure fun _ hcode ↦ ⟨hcode.1, ?_⟩
    rw [if_neg hjump]

/-- The site of a function in a process where nothing was redirected. -/
def siteAt (h : Headers) (rva size : UInt32) (site : Option Bytes × Bytes) : FunctionSite :=
  ⟨h.base + rva.toUInt64, size, site.1, site.2, false⟩

/-- A function that is shown is inside the range of addresses. -/
theorem ShownSite.fits {rva : UInt32} {site : Option Bytes × Bytes}
    (hsite : ShownSite h data rva site)
    (hfits : h.base.toNat + h.imageSize.toNat < 0x10000000000000000) (hrva : rva < h.imageSize)
    (size : UInt32) :
    (siteAt h rva size site).start.toNat + (siteAt h rva size site).code.size
      < 0x10000000000000000 := by
  obtain ⟨-, hin⟩ := inspected_le hrva
  have hlt : rva.toNat < h.imageSize.toNat := UInt32.lt_iff_toNat_lt.mp hrva
  change (h.base + rva.toUInt64).toNat + site.2.size < _
  rw [hsite.code, Array.size_extract, Headers.size_layout, UInt64.toNat_add,
    UInt32.toNat_toUInt64, Nat.mod_eq_of_lt (by omega)]
  omega

/-- The techniques for a function in a pristine process are found by what its image shows. -/
theorem triple_optionsIn_pristine
    (hfits : h.base.toNat + h.imageSize.toNat < 0x10000000000000000) {registry : Registry}
    {existing : FoundSymbol} {p : AttachedProcess} (hp : p.IsPristine h data)
    (hsize : existing.image.size = h.imageSize) (hrva : existing.rva < h.imageSize)
    (hmapping : registry.mapping? p.pid existing.token = some ⟨h.base, h.imageSize⟩)
    (size : UInt32) :
    Triple (· = Staged.ofProcess p) (optionsIn registry existing size [])
      (fun result _ ↦ ∃ site options, ShownSite h data existing.rva site ∧
        (siteAt h existing.rva size site).evaluate [] = .ok options ∧ result = some options)
      fun _ ↦ False := by
  refine Triple.bind_get fun s hs ↦ ?_
  subst hs
  dsimp only
  rw [show registry.mapping? (Staged.ofProcess p).process.pid existing.token
    = some ⟨h.base, h.imageSize⟩ from hmapping, hsize]
  dsimp only
  have hread : Triple (· = Staged.ofProcess p)
      (Staged.onTarget (readSite ⟨h.base, h.imageSize⟩ existing.rva h.imageSize))
      (fun site _ ↦ ShownSite h data existing.rva site) fun _ ↦ False :=
    (Staged.triple_onTarget (triple_readSite_shown hfits hrva)).mono
      (fun _ hs ↦ hs ▸ ⟨hp.memory, hp.refuses⟩) (fun _ _ hsite ↦ hsite) fun _ h ↦ h
  refine hread.bind fun site ↦ Triple.of_fact fun hsite ↦ ?_
  have haddress : Mapping.address ⟨h.base, h.imageSize⟩ existing.rva
      = .ok (h.base + existing.rva.toUInt64) := address_eq_ok hfits hrva
  obtain ⟨options, hoptions, -⟩ := FunctionSite.evaluate_eq_ok
    (s := siteAt h existing.rva size site) rfl (hsite.fits hfits hrva size)
  have hstart : (Staged.ofProcess p).process.isRedirected (h.base + existing.rva.toUInt64)
      = false := by
    change p.redirected.contains _ = false
    rw [hp.redirected]
    rfl
  refine Triple.bind_ok haddress ?_
  rw [hstart]
  exact Triple.bind_ok hoptions (Triple.pure fun _ _ ↦ ⟨site, options, hsite, hoptions, rfl⟩)

section OnDisk

variable {files : FileTree} {path : Path} {i : Image} {rva size : UInt32}

/-- The window of code that is looked at behind the start of a function lies in one piece in the
file. -/
def HasCodeInFile (h : Headers) (data : Bytes) (rva : UInt32) : Prop :=
  h.HasInFile data rva (min (Word.monus32 h.imageSize rva).toNat inspectedBytes)

/-- The bytes in front of a function that a jump would take lie in one piece in the file. -/
def HasFrontInFile (h : Headers) (data : Bytes) (rva : UInt32) : Prop :=
  h.HasInFile data (rva - UInt32.ofNat X86.jumpSize) X86.jumpSize

/-- The bytes in front of a function, as far as its file has them. -/
def frontInFile (i : Image) (rva : UInt32) : Outcome (Option Bytes) :=
  if X86.jumpSize ≤ rva.toNat then
    tolerated (i.read (rva - UInt32.ofNat X86.jumpSize) X86.jumpSize)
  else pure none

/-- Planning from the file looks at the code first and then at the bytes in front of it. -/
theorem optionsOnDisk_eq (hload : Image.load files path = .ok i) (hheaders : i.headers = .ok h)
    (hfits : h.base.toNat + h.imageSize.toNat < 0x10000000000000000) (hrva : rva < h.imageSize)
    (size : UInt32) :
    optionsOnDisk files path rva size = (do
      let code ← i.read rva (min (Word.monus32 h.imageSize rva).toNat inspectedBytes)
      let preceding ← frontInFile i rva
      FunctionSite.evaluate (siteAt h rva size (preceding, code)) []) := by
  have hbase : i.base = .ok h.base := by rw [Image.base, hheaders]; rfl
  have hsize : i.size = .ok h.imageSize := by rw [Image.size, hheaders]; rfl
  have hlt : rva.toNat < h.imageSize.toNat := UInt32.lt_iff_toNat_lt.mp hrva
  have hstart : Word.add64? h.base rva.toUInt64 = some (h.base + rva.toUInt64) := by
    rw [Word.add64?, UInt32.toNat_toUInt64, if_pos (by omega)]
  unfold optionsOnDisk frontInFile
  rw [hload]
  simp only [bind, Except.bind, hbase, hsize, hstart, orFault]
  by_cases hjump : X86.jumpSize ≤ rva.toNat
  · simp only [if_pos hjump]
    rfl
  · simp only [if_neg hjump]
    rfl

/-- Planning from the file fails where the code of a function does not lie in one piece in it. -/
theorem optionsOnDisk_eq_error (hload : Image.load files path = .ok i)
    (hheaders : i.headers = .ok h) (hapart : h.IsApart)
    (hfits : h.base.toNat + h.imageSize.toNat < 0x10000000000000000) (hrva : rva < h.imageSize)
    (size : UInt32) (hcode : ¬ HasCodeInFile h i.data rva) :
    ∃ e, optionsOnDisk files path rva size = .error (.error e) := by
  obtain ⟨hpos, hin⟩ := inspected_le hrva
  obtain ⟨e, hread⟩ := Image.read_eq_error hheaders hapart hpos hin hcode
  rw [optionsOnDisk_eq hload hheaders hfits hrva, hread]
  exact ⟨e, rfl⟩

/-- Where the code of a function lies in one piece in the file, planning finds the techniques for
it, but for an indirection where the bytes in front of it do not. -/
theorem optionsOnDisk_eq_ok (hload : Image.load files path = .ok i)
    (hheaders : i.headers = .ok h) (hapart : h.IsApart)
    (hfits : h.base.toNat + h.imageSize.toNat < 0x10000000000000000) (hrva : rva < h.imageSize)
    {size : UInt32} {site : Option Bytes × Bytes} (hsite : ShownSite h i.data rva site)
    {o : TechniqueOptions} (ho : (siteAt h rva size site).evaluate [] = .ok o)
    (hcode : HasCodeInFile h i.data rva) :
    ((X86.jumpSize ≤ rva.toNat → HasFrontInFile h i.data rva) ∧
        optionsOnDisk files path rva size = .ok o) ∨
      (¬ (X86.jumpSize ≤ rva.toNat → HasFrontInFile h i.data rva) ∧
        optionsOnDisk files path rva size = .ok { o with indirection := false }) := by
  obtain ⟨hpos, hin⟩ := inspected_le hrva
  have hread : i.read rva (min (Word.monus32 h.imageSize rva).toNat inspectedBytes) = .ok site.2 :=
    (Image.read_eq_ok_iff_hasInFile hheaders hapart hpos hin).mpr ⟨hcode, hsite.code⟩
  have hplan : ∀ {preceding}, frontInFile i rva = .ok preceding →
      optionsOnDisk files path rva size
        = FunctionSite.evaluate (siteAt h rva size (preceding, site.2)) [] := by
    intro preceding hfront
    rw [optionsOnDisk_eq hload hheaders hfits hrva, hread, hfront]
    rfl
  have hpreceding := hsite.preceding
  by_cases hjump : X86.jumpSize ≤ rva.toNat
  · rw [if_pos hjump] at hpreceding
    have hfive : 0 < X86.jumpSize := by decide
    have hinFront : (rva - UInt32.ofNat X86.jumpSize).toNat + X86.jumpSize
        ≤ h.imageSize.toNat := by
      rw [toNat_sub_jumpSize hjump]
      have : rva.toNat < h.imageSize.toNat := UInt32.lt_iff_toNat_lt.mp hrva
      omega
    by_cases hfront : HasFrontInFile h i.data rva
    · have hshown : frontInFile i rva = .ok site.1 := by
        rw [frontInFile, if_pos hjump, (Image.read_eq_ok_iff_hasInFile hheaders hapart hfive
          hinFront).mpr ⟨hfront, rfl⟩, hpreceding]
        rfl
      exact .inl ⟨fun _ ↦ hfront, (hplan hshown).trans ho⟩
    · obtain ⟨e, hreadFront⟩ := Image.read_eq_error hheaders hapart hfive hinFront hfront
      have hhidden : frontInFile i rva = .ok none := by
        rw [frontInFile, if_pos hjump, hreadFront]
        rfl
      obtain ⟨o', ho', hwithout⟩ := FunctionSite.evaluate_eq_ok
        (s := siteAt h rva size site) rfl (hsite.fits hfits hrva size)
      obtain rfl : o = o' := Except.ok.inj (ho.symm.trans ho')
      exact .inr ⟨fun hall ↦ hfront (hall hjump), (hplan hhidden).trans hwithout⟩
  · rw [if_neg hjump] at hpreceding
    have hnone : frontInFile i rva = .ok site.1 := by
      rw [frontInFile, if_neg hjump, hpreceding]
      rfl
    exact .inl ⟨fun hle ↦ (hjump hle).elim, (hplan hnone).trans ho⟩

end OnDisk

/-- Where there are no processes, the techniques for a function are found by the image's file, and
planning stops short where that does. -/
theorem optionsEverywhere_of_nobody (a : Activation) (existing : FoundSymbol) (size : UInt32)
    (ips : List (List UInt64)) :
    ((a.optionsEverywhere existing size ips).run []).1
      = (optionsOnDisk a.files existing.image.path existing.rva size).map fun o ↦ some [o] := by
  unfold optionsEverywhere
  cases optionsOnDisk a.files existing.image.path existing.rva size with
  | error _ => rfl
  | ok _ => rfl

/-- Planning from an image's file agrees with planning in a pristine process that has the image
mapped, which always comes to a result, if and only if the code that is looked at lies in one piece
in the file, and so do the bytes in front of the function unless they do not allow an indirection.
Where the code does not, planning without processes stops short. -/
theorem planning_from_disk_agrees_iff {files : FileTree} {existing : FoundSymbol} {i : Image}
    {h : Headers} (hload : Image.load files existing.image.path = .ok i)
    (hheaders : i.headers = .ok h) (hapart : h.IsApart)
    (hfits : h.base.toNat + h.imageSize.toNat < 0x10000000000000000)
    (hsize : existing.image.size = h.imageSize) (hrva : existing.rva < h.imageSize)
    {registry : Registry} {p : AttachedProcess} (hp : p.IsPristine h i.data)
    (hmapping : registry.mapping? p.pid existing.token = some ⟨h.base, h.imageSize⟩)
    (size : UInt32) :
    ∃ o, ((optionsIn registry existing size []).run (Staged.ofProcess p)).1 = .ok (some o) ∧
      (optionsOnDisk files existing.image.path existing.rva size = .ok o ↔
        HasCodeInFile h i.data existing.rva ∧
        (o.indirection = true → X86.jumpSize ≤ existing.rva.toNat →
          HasFrontInFile h i.data existing.rva)) ∧
      (¬ HasCodeInFile h i.data existing.rva → ∃ e, ∀ (view : PatchView) (patch : Image)
        (ips : List (List UInt64)),
        ((optionsEverywhere ⟨files, view, patch⟩ existing size ips).run []).1
          = .error (.error e)) := by
  have hrun := triple_optionsIn_pristine hfits hp hsize hrva hmapping size _ rfl
  rcases hr : (optionsIn registry existing size []).run (Staged.ofProcess p) with ⟨_ | result, s⟩
  · rw [hr] at hrun
    exact hrun.elim
  · rw [hr] at hrun
    obtain ⟨site, o, hsite, ho, rfl⟩ := hrun
    have herror := optionsOnDisk_eq_error hload hheaders hapart hfits hrva size
    refine ⟨o, rfl, ?_, fun hcode ↦ ?_⟩
    · by_cases hcode : HasCodeInFile h i.data existing.rva
      · rcases optionsOnDisk_eq_ok hload hheaders hapart hfits hrva hsite ho hcode with
          ⟨hfront, hdisk⟩ | ⟨hfront, hdisk⟩
        · exact iff_of_true hdisk ⟨hcode, fun _ ↦ hfront⟩
        · rw [hdisk, Except.ok.injEq]
          constructor
          · intro heq
            refine ⟨hcode, fun hindirection ↦ ?_⟩
            rw [← heq] at hindirection
            cases hindirection
          · rintro ⟨-, hall⟩
            cases hindirection : o.indirection with
            | true => exact (hfront (hall hindirection)).elim
            | false => rw [← hindirection]
      · obtain ⟨e, hdisk⟩ := herror hcode
        refine iff_of_false (fun heq ↦ ?_) fun hall ↦ hcode hall.1
        rw [hdisk] at heq
        cases heq
    · obtain ⟨e, hdisk⟩ := herror hcode
      refine ⟨e, fun view patch ips ↦ ?_⟩
      rw [optionsEverywhere_of_nobody, hdisk]
      rfl

namespace OneSection

/-- An image whose only section has 48 bytes of code, in which a function with padding in front of it
lies at the start and another one 24 bytes before the end. -/
def bytes : Bytes :=
  (([0x4d, 0x5a, 0, 0, 0x50, 0x45, 0, 0, 0, 0, 1, 0] : List UInt8) ++ List.replicate 12 0
    ++ [112, 0, 0, 0, 0x0b, 0x02] ++ List.replicate 22 0
    ++ [0, 0, 1, 0x40, 1, 0, 0, 0] ++ [4, 0, 0, 0] ++ List.replicate 20 0 ++ [0, 2, 0, 0]
    ++ [180, 0, 0, 0] ++ List.replicate 48 0
    ++ [0x2e, 0x74, 0x65, 0x78, 0x74, 0, 0, 0, 48, 0, 0, 0, 0, 1, 0, 0, 48, 0, 0, 0, 180, 0, 0, 0]
    ++ List.replicate 12 0 ++ [0x20, 0, 0, 0x60]
    ++ List.replicate 5 0xcc ++ [0x31, 0xc0, 0xff, 0xc0, 0xc3] ++ List.replicate 14 0xcc
    ++ [0x31, 0xc0, 0xff, 0xc0, 0xc3] ++ List.replicate 19 0xcc).toArray

/-- The image in its file. -/
def image : Image := ⟨⟨"/m"⟩, bytes⟩

/-- The file of the image. -/
def files : FileTree := { FileTree.empty with nodes := [(["m"], .file bytes (.written 0))] }

theorem isSome_headers : (Headers.read? .wide bytes).isSome = true := by decide +kernel

/-- The headers of the image. -/
def headers : Headers := (Headers.read? .wide bytes).get isSome_headers

theorem headers_image : image.headers = .ok headers := by
  change orFail .malformed (Headers.read? .wide bytes) = _
  rw [← Option.some_get isSome_headers]
  rfl

theorem load_image : Image.load files ⟨"/m"⟩ = .ok image :=
  Image.load_of_read rfl (Option.some_get isSome_headers).symm

/-- What the headers say. -/
theorem headers_say : headers.base = 0x140010000 ∧ headers.imageSize = 0x200 ∧
    headers.headersSize = 180 ∧ headers.sections.map (fun s ↦
      (s.virtualAddress, s.virtualSize, s.rawSize, s.rawPointer)) = [(0x100, 48, 48, 180)] ∧
    bytes.size = 228 := by
  decide +kernel

theorem isApart_headers : headers.IsApart := by
  obtain ⟨s, hs, -⟩ := List.map_eq_singleton_iff.mp headers_say.2.2.2.1
  rw [Headers.IsApart, hs]
  exact List.pairwise_singleton ..

/-- A process that has the image mapped. -/
def process : AttachedProcess where
  target := { Target.ofPid 7 with memory := Memory.empty.map headers.base (headers.layout bytes) }
  agent := .willing
  commandThread := none
  moduleBase := 0x140010000
  redirected := []

theorem isPristine_process : process.IsPristine headers bytes := ⟨rfl, rfl, rfl, fun _ _ ↦ rfl⟩

/-- The image in a session. -/
def registered : RegisteredImage := ⟨⟨"/m"⟩, .empty, 0x200, [⟨7, 0x140010000⟩]⟩

/-- The only image of a session. -/
def registry : Registry := ⟨[registered]⟩

/-- A function of the image. -/
def function (rva : UInt32) : FoundSymbol := ⟨⟨0⟩, rva, registered⟩

theorem mapping_registry :
    registry.mapping? process.pid ⟨0⟩ = some ⟨headers.base, headers.imageSize⟩ := by
  rw [headers_say.1, headers_say.2.1]
  rfl

theorem fits_headers : headers.base.toNat + headers.imageSize.toNat < 0x10000000000000000 := by
  rw [headers_say.1, headers_say.2.1]
  decide

/-- Where the section is in the file. -/
theorem section_hasInFile {rva : UInt32} {len : Nat} (h : 0x100 ≤ rva ∧ rva.toNat + len ≤ 0x130) :
    headers.HasInFile bytes rva len := by
  obtain ⟨-, -, hheaders, hsection, hbytes⟩ := headers_say
  obtain ⟨s, hs, hfields⟩ := List.map_eq_singleton_iff.mp hsection
  obtain ⟨haddress, hsize, hraw, hpointer⟩ : s.virtualAddress = 0x100 ∧ s.virtualSize = 48 ∧
    s.rawSize = 48 ∧ s.rawPointer = 180 := by simpa using hfields
  have hstart : 0x100 ≤ rva.toNat := UInt32.le_iff_toNat_le.mp h.1
  have hbase : s.virtualAddress.toNat = 0x100 := by rw [haddress]; rfl
  have hmemory : s.virtualSize.toNat = 48 := by rw [hsize]; rfl
  refine .body s (by rw [hs]; exact List.mem_singleton_self _) ?_ (by rw [haddress]; exact h.1)
    ?_ ?_ ?_
  all_goals omega

end OneSection

open OneSection

/-- The function at the start of the section is planned from the file as in the process. -/
theorem planning_from_disk_agrees_at_the_start :
    process.IsPristine headers bytes ∧ HasCodeInFile headers bytes (function 0x105).rva ∧
    ∃ o, ((optionsIn registry (function 0x105) 43 []).run (Staged.ofProcess process)).1
        = .ok (some o) ∧
      optionsOnDisk OneSection.files ⟨"/m"⟩ 0x105 43 = .ok o := by
  have hcode : HasCodeInFile headers bytes 0x105 := section_hasInFile (by rw [headers_say.2.1]; decide)
  have hfront : HasFrontInFile headers bytes 0x105 := section_hasInFile (by decide)
  have hload : Image.load OneSection.files (function 0x105).image.path = .ok OneSection.image :=
    load_image
  obtain ⟨o, ho, hagrees, -⟩ := planning_from_disk_agrees_iff hload headers_image isApart_headers
    fits_headers headers_say.2.1.symm (by rw [headers_say.2.1]; decide) isPristine_process
    mapping_registry 43
  exact ⟨isPristine_process, hcode, o, ho, hagrees.mpr ⟨hcode, fun _ _ ↦ hfront⟩⟩

/-- The function near the end of the section can be redirected in the process, but planning it from
the file fails. -/
theorem planning_from_disk_fails_near_the_end :
    process.IsPristine headers bytes ∧
    ((optionsIn registry (function 0x118) 24 []).run (Staged.ofProcess process)).1
      = .ok (some ⟨some 5, true⟩) ∧
    (optionsOnDisk OneSection.files ⟨"/m"⟩ 0x118 24).toOption = none := by
  exact ⟨isPristine_process, by decide +kernel, by decide +kernel⟩

end Activation
end LivePatch
