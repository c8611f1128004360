import LivePatch.Proofs.Objects.Symbols
import Mathlib.Data.List.Induction

/-!
# How relocations are recorded

Reading an object file loses no relocation. One that leads somewhere is listed under the symbol whose
bytes it changes, once, or its destination is pinned. A destination that is given as a place in a
section is found again at the same distance from the symbol that starts last before it.
-/

namespace LivePatch

namespace Coff.File

/-- Symbols are listed by growing indices. -/
theorem pairwise_symbolsFrom (f : File) (fuel start : Nat) :
    (∀ entry ∈ f.symbolsFrom fuel start, start ≤ entry.1) ∧
      (f.symbolsFrom fuel start).Pairwise fun a b ↦ a.1 < b.1 := by
  induction fuel generalizing start with
  | zero => exact ⟨fun _ h ↦ (by cases h), .nil⟩
  | succ fuel ih =>
    unfold symbolsFrom
    cases f.record? start with
    | none => exact ⟨fun _ h ↦ (by cases h), .nil⟩
    | some r =>
      obtain ⟨hle, hpairwise⟩ := ih (start + 1 + r.auxCount)
      refine ⟨fun entry hmem ↦ ?_, .cons (fun entry hmem ↦ ?_) hpairwise⟩
      · rcases List.mem_cons.mp hmem with rfl | hmem
        · exact Nat.le_refl _
        · have := hle entry hmem
          omega
      · have := hle entry hmem
        dsimp only
        omega

/-- Symbols of one index are one symbol. -/
theorem eq_of_index {f : File} {index : Nat} {r r' : SymbolRecord} (h : (index, r) ∈ f.symbols)
    (h' : (index, r') ∈ f.symbols) : r = r' := by
  have hrecord := record?_of_mem_symbolsFrom h
  exact Option.some.inj (hrecord.symm.trans (record?_of_mem_symbolsFrom h'))

end Coff.File

namespace Bytes

/-- The signed number that bytes stand for, least significant byte first: the last one carries the
sign. -/
def signedNumber : List UInt8 → Int
  | [] => 0
  | [b] => b.toInt8.toInt
  | b :: rest => b.toNat + 256 * signedNumber rest

/-- Bytes stand for the same number with and without a sign, unless the sign is set. -/
theorem signedNumber_eq (b : UInt8) (rest : List UInt8) {half : Nat}
    (hhalf : 2 * half = Nat.pow 256 (rest.length + 1)) : signedNumber (b :: rest)
      = if number (b :: rest) < half then (number (b :: rest) : Int)
        else number (b :: rest) - 2 * half := by
  induction rest generalizing b half with
  | nil =>
    obtain rfl : half = 128 := by
      rw [List.length_nil, Nat.zero_add, Nat.pow_eq, Nat.pow_one] at hhalf
      omega
    have hsigned : b.toInt8.toInt = if 2 * b.toNat < 256 then (b.toNat : Int) else b.toNat - 256 :=
      BitVec.toInt_eq_toNat_cond b.toBitVec
    rw [signedNumber, hsigned, number, number]
    split <;> split <;> omega
  | cons c rest ih =>
    -- the half of a power of 256 is 256 times the half of the one before
    rw [List.length_cons, Nat.pow_eq, Nat.pow_succ] at hhalf
    obtain ⟨half', hhalf'⟩ : ∃ half', 2 * half' = Nat.pow 256 (rest.length + 1) := by
      rw [Nat.pow_eq, Nat.pow_succ]
      exact ⟨256 ^ rest.length * 128, by omega⟩
    have hrest := ih c hhalf'
    rw [Nat.pow_eq] at hhalf'
    have hb := b.toNat_lt
    have hnumber : number (b :: c :: rest) = b.toNat + 256 * number (c :: rest) := rfl
    rw [signedNumber, hrest, hnumber]
    · split <;> split <;> omega
    · exact List.cons_ne_nil c rest

end Bytes

namespace ObjectTable

open Coff (File)

/-- A relocation in a section. -/
structure Site where
  number : Nat
  /-- Data of the section. -/
  bytes : Bytes
  raw : Coff.RawRelocation

/-- The relocations in a section, none if it holds directives or is for debuggers. -/
def sitesIn (f : File) (h : Coff.SectionHeader) (number : Nat) : List Site :=
  if f.sectionName h = directiveSection ∨ Coff.isDebugSection h.characteristics then []
  else match f.sectionData? h with
    | none => []
    | some bytes => (f.relocations h).map fun raw ↦ ⟨number, bytes, raw⟩

/-- The relocations outside the sections of directives and those for debuggers. -/
def sites (f : File) : List Site :=
  (f.sections.zipIdx 1).flatMap fun (h, number) ↦ sitesIn f h number

/-- The number in the field of a relocation, zero when the field is not inside the section. -/
def Site.implicit (site : Site) : Int64 :=
  match RelocationKind.ofNumber? site.raw.typ with
  | none => 0
  | some kind =>
    match site.bytes.slice? site.raw.rva.toNat kind.size with
    | none => 0
    | some field => Int64.ofInt (Bytes.signedNumber field.toList)

/-- Reading an implicit addend takes the number in the bytes of the field. -/
theorem implicitAddend_eq (data : Bytes) (offset : Nat) (kind : RelocationKind) :
    implicitAddend data offset kind.size = match data.slice? offset kind.size with
      | none => 0
      | some field => Int64.ofInt (Bytes.signedNumber field.toList) := by
  have hsize : kind.size = 4 ∨ kind.size = 8 := by
    cases kind <;> simp [RelocationKind.size]
  unfold implicitAddend Bytes.u32At? Bytes.u64At? Bytes.numberAt?
  cases hfield : data.slice? offset kind.size with
  | none => rcases hsize with h | h <;> rw [h] at hfield ⊢ <;> simp [hfield]
  | some field =>
    have hlength : field.toList.length = kind.size := Bytes.size_of_slice? hfield
    have hlt := Bytes.number_lt field.toList
    rw [hlength] at hlt
    have hsigned : ∀ half, 2 * half = Nat.pow 256 kind.size → Bytes.signedNumber field.toList
        = if Bytes.number field.toList < half then (Bytes.number field.toList : Int)
          else Bytes.number field.toList - 2 * half := by
      intro half hhalf
      obtain ⟨b, rest, hcons⟩ : ∃ b rest, field.toList = b :: rest :=
        List.exists_cons_of_length_pos (by omega)
      rw [hcons] at hlength ⊢
      rw [← hlength] at hhalf
      exact Bytes.signedNumber_eq b rest hhalf
    rcases hsize with h | h
    · rw [h] at hfield hlt hsigned ⊢
      rw [if_pos rfl, hfield]
      dsimp only [Option.map_some, Word.signed32]
      rw [hsigned 0x80000000 (by decide), UInt32.toNat_ofNat_of_lt' (Nat.lt_of_lt_of_eq hlt (by decide))]
      rfl
    · rw [h] at hfield hlt hsigned ⊢
      rw [if_neg (by decide), if_pos rfl, hfield]
      dsimp only [Option.map_some, Word.signed64]
      rw [hsigned 0x8000000000000000 (by decide),
        UInt64.toNat_ofNat_of_lt' (Nat.lt_of_lt_of_eq hlt (by decide))]
      rfl

/-- A symbol starts last at or before an offset of a section. Of several that start there it is the
last one listed. -/
def StartsLast (symbols : List ObjectSymbol) (number : Nat) (offset : UInt32) (s : ObjectSymbol) :
    Prop :=
  s.place = some number ∧ s.offset ≤ offset ∧ ∃ before after, symbols = before ++ s :: after ∧
    (∀ s' ∈ before, s'.place = some number → s'.offset ≤ offset → s'.offset ≤ s.offset) ∧
    ∀ s' ∈ after, s'.place = some number → s'.offset ≤ offset → s'.offset < s.offset

/-- Where a relocation leads, and at which distance: to a listed symbol, or to the symbol that
starts last at or before the place that its field names in a section. -/
inductive LeadsTo (f : File) (symbols : List ObjectSymbol) (site : Site) : String → Int64 → Prop
  | symbol {s : ObjectSymbol} (hs : s ∈ symbols) (hindex : s.index = site.raw.symbol) :
    LeadsTo f symbols site s.name site.implicit
  | inSection {r : Coff.SymbolRecord} {number : Nat} {s : ObjectSymbol} {addend : Int64}
    (hr : (site.raw.symbol, r) ∈ f.symbols) (hkind : r.kind = .section)
    (hplace : r.place = .inSection number)
    (hs : StartsLast symbols number (clamped site.implicit) s)
    (haddend : s.offset.toNat + addend.toInt = site.implicit.toInt) :
    LeadsTo f symbols site s.name addend

/-- The target of a relocation is listed, or it is a section in which a listed symbol starts at or
before the place that the field names. -/
def Site.HasTarget (f : File) (symbols : List ObjectSymbol) (site : Site) : Prop :=
  (∃ s ∈ symbols, s.index = site.raw.symbol) ∨
    ∃ entry ∈ f.symbols, entry.1 = site.raw.symbol ∧ entry.2.kind = .section ∧
      ∃ s ∈ symbols, s.place.map .inSection = some entry.2.place ∧ s.offset ≤ clamped site.implicit

instance (f : File) (symbols : List ObjectSymbol) (site : Site) :
    Decidable (site.HasTarget f symbols) := inferInstanceAs (Decidable (_ ∨ _))

/-- A relocation relocates something and has a target. -/
def Site.IsConsidered (f : File) (symbols : List ObjectSymbol) (site : Site) : Prop :=
  site.raw.typ ≠ RelocationKind.absoluteNumber ∧ site.HasTarget f symbols

instance (f : File) (symbols : List ObjectSymbol) (site : Site) :
    Decidable (site.IsConsidered f symbols) := inferInstanceAs (Decidable (_ ∧ _))

/-- A relocation can be computed anew, and a listed symbol of its section starts at or before its
field. -/
def Site.IsOwned (symbols : List ObjectSymbol) (site : Site) : Prop :=
  (∃ kind ∈ RelocationKind.ofNumber? site.raw.typ, kind.isPatchable = true) ∧
    ∃ s ∈ symbols, s.place = some site.number ∧ s.offset ≤ site.raw.rva

instance (symbols : List ObjectSymbol) (site : Site) : Decidable (site.IsOwned symbols) :=
  inferInstanceAs (Decidable (_ ∧ _))

/-- What is listed of a relocation, and under which symbol: the one that starts last at or before
its field. -/
structure RecordedAs (f : File) (symbols : List ObjectSymbol) (site : Site)
    (entry : ObjectSymbol × Relocation) : Prop where
  owner : StartsLast symbols site.number site.raw.rva entry.1
  offset : entry.1.offset.toNat + entry.2.offset.toNat = site.raw.rva.toNat
  kind : RelocationKind.ofNumber? site.raw.typ = some entry.2.kind
  leads : LeadsTo f symbols site entry.2.target entry.2.addend

/-- The references that an object file's symbols own. -/
def recorded (t : ObjectTable) : List (ObjectSymbol × Relocation) :=
  t.symbols.flatMap fun s ↦ s.relocations.map (s, ·)

variable {symbols : List ObjectSymbol} {number : Nat} {offset : UInt32} {s : ObjectSymbol}

/-! ### Symbols before an offset -/

theorem StartsLast.mem (h : StartsLast symbols number offset s) : s ∈ symbols := by
  obtain ⟨-, -, before, after, rfl, -⟩ := h
  simp

/-- No listed symbol of the section starts behind the last one and at or before the offset. -/
theorem StartsLast.le (h : StartsLast symbols number offset s) {s' : ObjectSymbol}
    (hs' : s' ∈ symbols) (hplace : s'.place = some number) (hle : s'.offset ≤ offset) :
    s'.offset ≤ s.offset := by
  obtain ⟨-, -, before, after, rfl, hbefore, hafter⟩ := h
  rcases List.mem_append.mp hs' with hs' | hs'
  · exact hbefore s' hs' hplace hle
  · rcases List.mem_cons.mp hs' with rfl | hs'
    · exact UInt32.le_refl _
    · exact UInt32.le_of_lt (hafter s' hs' hplace hle)

theorem symbolBefore?_concat (symbols : List ObjectSymbol) (x : ObjectSymbol) :
    symbolBefore? (symbols ++ [x]) number offset =
      if x.place = some number ∧ x.offset ≤ offset then
        match symbolBefore? symbols number offset with
        | some b => if b.offset ≤ x.offset then some x else some b
        | none => some x
      else symbolBefore? symbols number offset := by
  rw [symbolBefore?, List.foldl_concat]
  rfl

/-- The search for the last symbol at or before an offset finds it, if there is any. -/
theorem symbolBefore?_spec (symbols : List ObjectSymbol) (number : Nat) (offset : UInt32) :
    (symbolBefore? symbols number offset = none ∧
      ∀ s ∈ symbols, s.place = some number → ¬s.offset ≤ offset) ∨
    ∃ s, symbolBefore? symbols number offset = some s ∧ StartsLast symbols number offset s := by
  induction symbols using List.reverseRecOn with
  | nil => exact .inl ⟨rfl, fun _ h ↦ (by cases h)⟩
  | append_singleton symbols x ih =>
    rw [symbolBefore?_concat]
    by_cases hx : x.place = some number ∧ x.offset ≤ offset
    · rw [if_pos hx]
      right
      rcases ih with ⟨hnone, hfar⟩ | ⟨b, hb, hplace, hle, before, after, hsplit, hbefore, hafter⟩
      · rw [hnone]
        refine ⟨x, rfl, hx.1, hx.2, symbols, [], rfl, fun s hs hplace hle ↦ ?_, fun _ h ↦ by cases h⟩
        exact absurd hle (hfar s hs hplace)
      · rw [hb]
        dsimp only
        have hfound : StartsLast symbols number offset b :=
          ⟨hplace, hle, before, after, hsplit, hbefore, hafter⟩
        by_cases hlater : b.offset ≤ x.offset
        · rw [if_pos hlater]
          exact ⟨x, rfl, hx.1, hx.2, symbols, [], rfl,
            fun s hs hplace hle ↦ UInt32.le_trans (hfound.le hs hplace hle) hlater,
            fun _ h ↦ by cases h⟩
        · rw [if_neg hlater]
          refine ⟨b, rfl, hplace, hle, before, after ++ [x], by simp [hsplit], hbefore,
            fun s hs hplace hle ↦ ?_⟩
          rcases List.mem_append.mp hs with hs | hs
          · exact hafter s hs hplace hle
          · rw [List.mem_singleton.mp hs]
            exact UInt32.not_le.mp hlater
    · rw [if_neg hx]
      rcases ih with ⟨hnone, hfar⟩ | ⟨b, hb, hplace, hle, before, after, hsplit, hbefore, hafter⟩
      · refine .inl ⟨hnone, fun s hs hplace hle ↦ ?_⟩
        rcases List.mem_append.mp hs with hs | hs
        · exact hfar s hs hplace hle
        · rw [List.mem_singleton.mp hs] at hplace hle
          exact hx ⟨hplace, hle⟩
      · refine .inr ⟨b, hb, hplace, hle, before, after ++ [x], by simp [hsplit], hbefore,
          fun s hs hplace hle ↦ ?_⟩
        rcases List.mem_append.mp hs with hs | hs
        · exact hafter s hs hplace hle
        · rw [List.mem_singleton.mp hs] at hplace hle
          exact absurd ⟨hplace, hle⟩ hx

/-- There is one last symbol at most. -/
theorem StartsLast.unique {s' : ObjectSymbol} (h : StartsLast symbols number offset s)
    (h' : StartsLast symbols number offset s') : s = s' := by
  have hle := h'.le h.mem h.1 h.2.1
  have hle' := h.le h'.mem h'.1 h'.2.1
  obtain ⟨hplace, hin, before, after, hsplit, -, hafter⟩ := h
  obtain ⟨hplace', hin', before', after', hsplit', -, hafter'⟩ := h'
  -- Neither is listed behind the other, since it would start before it.
  rcases List.append_eq_append_iff.mp (hsplit.symm.trans hsplit') with
    ⟨between, -, htail⟩ | ⟨between, -, htail⟩
  · cases between with
    | nil => exact (List.cons.inj htail).1
    | cons _ between =>
      have hmem : s' ∈ after := by
        rw [(List.cons.inj htail).2]
        simp
      exact absurd hle (UInt32.not_le.mpr (hafter s' hmem hplace' hin'))
  · cases between with
    | nil => exact (List.cons.inj htail).1.symm
    | cons _ between =>
      have hmem : s ∈ after' := by
        rw [(List.cons.inj htail).2]
        simp
      exact absurd hle' (UInt32.not_le.mpr (hafter' s hmem hplace hin))

theorem symbolBefore?_eq_some_iff :
    symbolBefore? symbols number offset = some s ↔ StartsLast symbols number offset s := by
  rcases symbolBefore?_spec symbols number offset with ⟨hnone, hfar⟩ | ⟨s', hs', hlast⟩
  · rw [hnone]
    exact ⟨fun h ↦ (by cases h), fun h ↦ absurd h.2.1 (hfar s h.mem h.1)⟩
  · rw [hs']
    refine ⟨fun h ↦ ?_, fun h ↦ congrArg some (hlast.unique h)⟩
    cases h
    exact hlast

theorem isSome_symbolBefore?_iff : (symbolBefore? symbols number offset).isSome = true ↔
    ∃ s ∈ symbols, s.place = some number ∧ s.offset ≤ offset := by
  rcases symbolBefore?_spec symbols number offset with ⟨hnone, hfar⟩ | ⟨s, hs, hlast⟩
  · rw [hnone]
    exact ⟨fun h ↦ (by cases h), fun ⟨s, hs, hplace, hle⟩ ↦ absurd hle (hfar s hs hplace)⟩
  · rw [hs]
    exact ⟨fun _ ↦ ⟨s, hlast.mem, hlast.1, hlast.2.1⟩, fun _ ↦ rfl⟩

/-! ### Destinations -/

/-- Listed symbols are told apart by their indices, none of them stands for a section, and sections
are looked up by the symbols that do. -/
structure Lists (f : File) (symbols : List ObjectSymbol) (sectionSymbols : List (Nat × Nat)) :
    Prop where
  nodup : (symbols.map ObjectSymbol.index).Nodup
  plain : ∀ s ∈ symbols, ∀ r, (s.index, r) ∈ f.symbols → r.kind ≠ .section
  lookup : ∀ index number, sectionSymbols.lookup index = some number ↔
    ∃ r, (index, r) ∈ f.symbols ∧ r.kind = .section ∧ r.place = .inSection number

variable {f : File} {sectionSymbols : List (Nat × Nat)} {site : Site}

theorem Lists.eq_of_index (h : Lists f symbols sectionSymbols) {s' : ObjectSymbol}
    (hs : s ∈ symbols) (hs' : s' ∈ symbols) (heq : s.index = s'.index) : s = s' :=
  List.inj_on_of_nodup_map h.nodup hs hs' heq

/-- Distances from a symbol make up for its offset. -/
theorem distance_eq_ok {a d : Int64} {offset : UInt32} (h : distance a offset = .ok d) :
    offset.toNat + d.toInt = a.toInt := by
  have hlt := a.toInt_lt
  have hge := a.le_toInt
  unfold distance at h
  dsimp only at h
  split at h
  · cases h
    rw [Int64.toInt_ofInt_of_le (by omega) (by omega)]
    omega
  · cases h

/-- A relocation leads to one place at most. -/
theorem Lists.leadsTo_unique (h : Lists f symbols sectionSymbols) {name name' : String}
    {addend addend' : Int64} (hl : LeadsTo f symbols site name addend)
    (hl' : LeadsTo f symbols site name' addend') : name = name' ∧ addend = addend' := by
  cases hl with
  | symbol hs hindex =>
    cases hl' with
    | symbol hs' hindex' =>
      cases h.eq_of_index hs hs' (hindex.trans hindex'.symm)
      exact ⟨rfl, rfl⟩
    | inSection hr hkind => exact absurd hkind (h.plain _ hs _ (hindex ▸ hr))
  | inSection hr hkind hplace hs haddend =>
    cases hl' with
    | symbol hs' hindex' => exact absurd hkind (h.plain _ hs' _ (hindex' ▸ hr))
    | inSection hr' hkind' hplace' hs' haddend' =>
      cases Coff.File.eq_of_index hr hr'
      cases hplace.symm.trans hplace'
      cases hs.unique hs'
      exact ⟨rfl, Int64.toInt_inj.mp (by omega)⟩

/-- Where a relocation leads is found out, if it leads anywhere. -/
theorem Lists.destination?_spec (h : Lists f symbols sectionSymbols) {d : Option (String × Int64)}
    (hd : destination? symbols sectionSymbols site.raw.symbol site.implicit = .ok d) :
    (d = none ∧ ¬site.HasTarget f symbols) ∨ ∃ name addend, d = some (name, addend) ∧
      site.HasTarget f symbols ∧ LeadsTo f symbols site name addend := by
  unfold destination? at hd
  cases hlookup : sectionSymbols.lookup site.raw.symbol with
  | some number =>
    obtain ⟨r, hr, hkind, hplace⟩ := (h.lookup _ _).mp hlookup
    rw [hlookup] at hd
    dsimp only at hd
    rcases symbolBefore?_spec symbols number (clamped site.implicit) with
      ⟨hnone, hfar⟩ | ⟨s, hs, hlast⟩
    · rw [hnone] at hd
      cases hd
      refine .inl ⟨rfl, ?_⟩
      rintro (⟨s, hs, hindex⟩ | ⟨⟨_, r'⟩, hr', rfl, -, s, hs, hin, hle⟩)
      · exact h.plain s hs r (hindex ▸ hr) hkind
      · cases Coff.File.eq_of_index hr hr'
        obtain ⟨number', hnumber, hsame⟩ := Option.map_eq_some_iff.mp hin
        cases hsame.trans hplace
        exact hfar s hs hnumber hle
    · rw [hs] at hd
      obtain ⟨addend, haddend, hd⟩ := Outcome.bind_eq_ok_iff.mp hd
      cases hd
      refine .inr ⟨_, _, rfl, .inr ⟨_, hr, rfl, hkind, s, hlast.mem, ?_, hlast.2.1⟩,
        .inSection hr hkind hplace hlast (distance_eq_ok haddend)⟩
      rw [hlast.1, hplace]
      rfl
  | none =>
    have hsection : ∀ r number, (site.raw.symbol, r) ∈ f.symbols → r.kind = .section →
        r.place ≠ .inSection number := by
      intro r number hr hkind hplace
      rw [(h.lookup _ _).mpr ⟨r, hr, hkind, hplace⟩] at hlookup
      cases hlookup
    rw [hlookup] at hd
    dsimp only at hd
    cases hfound : symbols.find? (fun s ↦ s.index == site.raw.symbol) with
    | some s =>
      rw [hfound] at hd
      cases hd
      have hmem := List.mem_of_find?_eq_some hfound
      have hindex : s.index = site.raw.symbol := by simpa using List.find?_some hfound
      exact .inr ⟨_, _, rfl, .inl ⟨s, hmem, hindex⟩, .symbol hmem hindex⟩
    | none =>
      rw [hfound] at hd
      cases hd
      refine .inl ⟨rfl, ?_⟩
      rintro (⟨s, hs, hindex⟩ | ⟨⟨_, r⟩, hr, rfl, hkind, s, -, hin, -⟩)
      · exact absurd (beq_iff_eq.mpr hindex) (List.find?_eq_none.mp hfound s hs)
      · obtain ⟨number, -, hsame⟩ := Option.map_eq_some_iff.mp hin
        exact hsection r number hr hkind hsame.symm

/-! ### References -/

/-- Only the type for no relocation has no kind. -/
theorem ofNumber?_eq_none_iff {typ : UInt16} :
    RelocationKind.ofNumber? typ = none ↔ typ = RelocationKind.absoluteNumber := by
  unfold RelocationKind.ofNumber?
  split
  · next h => exact ⟨fun _ ↦ h, fun _ ↦ rfl⟩
  · next h =>
    refine ⟨fun hnone ↦ absurd hnone ?_, fun heq ↦ absurd heq h⟩
    repeat' split
    all_goals exact Option.some_ne_none _

/-- What becomes of a relocation. -/
theorem Lists.reference?_spec (h : Lists f symbols sectionSymbols) {o : Option Reference}
    (ho : reference? symbols sectionSymbols site.number site.bytes site.raw = .ok o) :
    (o = none ∧ ¬site.IsConsidered f symbols) ∨
      (∃ s r, o = some (.owned s.index r) ∧ s ∈ symbols ∧ site.IsConsidered f symbols ∧
        site.IsOwned symbols ∧ RecordedAs f symbols site (s, r)) ∨
      ∃ name addend, o = some (.fixed name) ∧ site.IsConsidered f symbols ∧
        ¬site.IsOwned symbols ∧ LeadsTo f symbols site name addend := by
  unfold reference? at ho
  cases hkind : RelocationKind.ofNumber? site.raw.typ with
  | none =>
    rw [hkind] at ho
    cases ho
    exact .inl ⟨rfl, fun hconsidered ↦ hconsidered.1 (ofNumber?_eq_none_iff.mp hkind)⟩
  | some kind =>
    have hrelocates : site.raw.typ ≠ RelocationKind.absoluteNumber := by
      rw [ne_eq, ← ofNumber?_eq_none_iff, hkind]
      exact Option.some_ne_none kind
    have himplicit : implicitAddend site.bytes site.raw.rva.toNat kind.size = site.implicit := by
      rw [Site.implicit, hkind, implicitAddend_eq]
    have howned : site.IsOwned symbols ↔ kind.isPatchable = true ∧
        (symbolBefore? symbols site.number site.raw.rva).isSome = true := by
      rw [Site.IsOwned, isSome_symbolBefore?_iff, hkind]
      simp
    rw [hkind] at ho
    dsimp only at ho
    rw [himplicit] at ho
    obtain ⟨d, hd, ho⟩ := Outcome.bind_eq_ok_iff.mp ho
    rcases h.destination?_spec hd with ⟨rfl, hnowhere⟩ | ⟨target, addend, rfl, htarget, hleads⟩
    · cases ho
      exact .inl ⟨rfl, fun hconsidered ↦ hnowhere hconsidered.2⟩
    · right
      dsimp only at ho
      cases hbefore : symbolBefore? symbols site.number site.raw.rva with
      | none =>
        rw [hbefore] at ho howned
        cases ho
        exact .inr ⟨target, addend, rfl, ⟨hrelocates, htarget⟩, by simp [howned], hleads⟩
      | some s =>
        have hlast := symbolBefore?_eq_some_iff.mp hbefore
        rw [hbefore] at ho howned
        dsimp only at ho
        split at ho
        · next hpatchable =>
          cases ho
          refine .inl ⟨s, _, rfl, hlast.mem, ⟨hrelocates, htarget⟩, howned.mpr ⟨hpatchable, rfl⟩,
            hlast, ?_, hkind, hleads⟩
          rw [UInt32.toNat_sub_of_le _ _ hlast.2.1]
          have := UInt32.le_iff_toNat_le.mp hlast.2.1
          dsimp only
          omega
        · next hfixed =>
          cases ho
          exact .inr ⟨target, addend, rfl, ⟨hrelocates, htarget⟩,
            fun hown ↦ hfixed (howned.mp hown).1, hleads⟩

/-! ### What is listed -/

/-- What a record says of the section that it stands for. -/
theorem entry_eq_sectionSymbol_iff {unique : UInt32} {index index' number : Nat}
    {r : Coff.SymbolRecord} {o : Option Entry} (h : entry? f unique index r = .ok o) :
    o = some (.sectionSymbol index' number) ↔
      index' = index ∧ r.kind = .section ∧ r.place = .inSection number := by
  obtain ⟨name, -, h⟩ := Outcome.bind_eq_ok_iff.mp h
  cases hplace : r.place with
  | nowhere =>
    simp only [hplace] at h
    cases h
    simp
  | outside =>
    simp only [hplace] at h
    split at h
    · cases h
      simp
    · cases h
      simp
    · cases h
      simp
    · obtain ⟨offset, -, h⟩ := Outcome.bind_eq_ok_iff.mp h
      cases h
      simp
  | inSection number' =>
    simp only [hplace] at h
    split at h
    · next hkind =>
      cases h
      simp [hkind, eq_comm]
    · next hkind =>
      cases h
      simp [hkind]
    · next hkind =>
      cases h
      simp [hkind]
    · next hkind _ _ =>
      obtain ⟨offset, -, h⟩ := Outcome.bind_eq_ok_iff.mp h
      cases h
      simp only [Option.some.injEq, reduceCtorEq, false_iff]
      exact fun hall ↦ hkind hall.2.1

variable {path : Path} {data : Bytes} {p : Parts}

/-- The symbols that stand for sections are those of such records. -/
theorem Parts.mem_sectionSymbols_iff (h : Parts.read path data = .ok p) {index number : Nat} :
    (index, number) ∈ p.sectionSymbols ↔
      ∃ r, (index, r) ∈ p.file.symbols ∧ r.kind = .section ∧ r.place = .inSection number := by
  obtain ⟨f, -, h⟩ := Outcome.bind_eq_ok_iff.mp h
  obtain ⟨entries, hentries, h⟩ := Outcome.bind_eq_ok_iff.mp h
  obtain ⟨yields, -, h⟩ := Outcome.bind_eq_ok_iff.mp h
  cases h
  rw [List.mem_filterMap]
  constructor
  · rintro ⟨entry, hentry, hsymbol⟩
    split at hsymbol
    · cases hsymbol
    · cases hsymbol
      obtain ⟨o, ho, heq⟩ := List.mem_filterMap.mp hentry
      obtain ⟨⟨index', r⟩, hr, hentry⟩ := (Outcome.mem_mapM_iff hentries).mp ho
      obtain ⟨rfl, hkind, hplace⟩ := (entry_eq_sectionSymbol_iff hentry).mp heq
      exact ⟨r, hr, hkind, hplace⟩
  · rintro ⟨r, hr, hkind, hplace⟩
    obtain ⟨o, ho, hentry⟩ := Pointwise.exists_right (Outcome.forall₂_of_mapM hentries) hr
    have heq := (entry_eq_sectionSymbol_iff hentry).mpr ⟨rfl, hkind, hplace⟩
    exact ⟨_, List.mem_filterMap.mpr ⟨o, ho, heq⟩, rfl⟩

/-- Symbols are listed in the order of their records. -/
theorem Parts.pairwise_symbols (h : Parts.read path data = .ok p) :
    p.symbols.Pairwise fun s s' ↦ s.index < s'.index := by
  obtain ⟨f, -, h⟩ := Outcome.bind_eq_ok_iff.mp h
  obtain ⟨entries, hentries, h⟩ := Outcome.bind_eq_ok_iff.mp h
  obtain ⟨yields, -, h⟩ := Outcome.bind_eq_ok_iff.mp h
  cases h
  have hpairwise : entries.Pairwise fun o o' ↦ ∀ s s', o = some (.symbol s) →
      o' = some (.symbol s') → s.index < s'.index := by
    refine Pointwise.pairwise (Outcome.forall₂_of_mapM hentries)
      (f.pairwise_symbolsFrom f.symbolCount 0).2 ?_
    rintro ⟨index, r⟩ ⟨index', r'⟩ o o' ho ho' hlt s s' rfl rfl
    rw [(tells_of_entry ho).1, (tells_of_entry ho').1]
    exact hlt
  rw [List.filterMap_filterMap, List.pairwise_filterMap]
  refine hpairwise.imp fun {o o'} hlt s hs s' hs' ↦ ?_
  rcases o with _ | _ | _ <;> cases hs
  rcases o' with _ | _ | _ <;> cases hs'
  exact hlt s s' rfl rfl

/-- What is read of an object file's symbols. -/
theorem Parts.lists (h : Parts.read path data = .ok p) :
    Lists p.file p.symbols p.sectionSymbols := by
  refine ⟨?_, fun s hs r hr ↦ ?_, fun index number ↦ ?_⟩
  · refine List.pairwise_map.mpr ((pairwise_symbols h).imp ?_)
    exact fun hlt ↦ Nat.ne_of_lt hlt
  · obtain ⟨index, r', hr', hentry⟩ := (Parts.mem_symbols_iff h).mp hs
    obtain rfl : s.index = index := (tells_of_entry hentry).1
    cases Coff.File.eq_of_index hr hr'
    exact (eq_of_entry hentry).1
  · rw [← Parts.mem_sectionSymbols_iff h]
    constructor
    · intro hlookup
      obtain ⟨before, after, hsplit, -⟩ := List.lookup_eq_some_iff.mp hlookup
      rw [hsplit]
      simp
    · intro hmem
      cases hlookup : p.sectionSymbols.lookup index with
      | none => exact absurd (List.lookup_eq_none_iff.mp hlookup _ hmem) (by simp)
      | some number' =>
        obtain ⟨before, after, hsplit, -⟩ := List.lookup_eq_some_iff.mp hlookup
        have hmem' : (index, number') ∈ p.sectionSymbols := by
          rw [hsplit]
          simp
        obtain ⟨r, hr, -, hplace⟩ := (Parts.mem_sectionSymbols_iff h).mp hmem
        obtain ⟨r', hr', -, hplace'⟩ := (Parts.mem_sectionSymbols_iff h).mp hmem'
        cases Coff.File.eq_of_index hr hr'
        cases hplace.symm.trans hplace'
        rfl

/-! ### Symbols with their references -/

/-- A symbol with those of the references that it owns. -/
def owning (references : List Reference) (s : ObjectSymbol) : ObjectSymbol :=
  { s with relocations := references.filterMap fun
      | .owned owner r => if owner = s.index then some r else none
      | .fixed _ => none }

theorem withReferences_eq (symbols : List ObjectSymbol) (references : List Reference) :
    withReferences symbols references = symbols.map (owning references) := rfl

theorem symbolBefore?_withReferences (symbols : List ObjectSymbol) (references : List Reference) :
    symbolBefore? (withReferences symbols references) number offset
      = (symbolBefore? symbols number offset).map (owning references) := by
  rw [withReferences_eq]
  induction symbols using List.reverseRecOn with
  | nil => rfl
  | append_singleton symbols x ih =>
    have hsame : (owning references x).place = x.place ∧ (owning references x).offset = x.offset :=
      ⟨rfl, rfl⟩
    rw [List.map_append, List.map_singleton, symbolBefore?_concat, symbolBefore?_concat, ih,
      hsame.1, hsame.2]
    split
    · cases symbolBefore? symbols number offset with
      | none => rfl
      | some b =>
        exact (apply_ite (Option.map (owning references)) (b.offset ≤ x.offset) (some x) (some b)).symm
    · rfl

theorem find?_withReferences (symbols : List ObjectSymbol) (references : List Reference)
    (index : Nat) :
    ((withReferences symbols references).find? fun s ↦ s.index == index).map ObjectSymbol.name
      = (symbols.find? fun s ↦ s.index == index).map ObjectSymbol.name := by
  rw [withReferences, List.find?_map, Option.map_map]
  rfl

/-- References are found the same way when others are listed already. -/
theorem reference?_withReferences (references : List Reference) (bytes : Bytes)
    (raw : Coff.RawRelocation) :
    reference? (withReferences symbols references) sectionSymbols number bytes raw
      = reference? symbols sectionSymbols number bytes raw := by
  have hdestination : ∀ implicit,
      destination? (withReferences symbols references) sectionSymbols raw.symbol implicit
        = destination? symbols sectionSymbols raw.symbol implicit := by
    intro implicit
    have hfind := find?_withReferences symbols references raw.symbol
    unfold destination?
    split
    · rw [symbolBefore?_withReferences]
      cases symbolBefore? symbols _ _ <;> rfl
    · cases hfound : symbols.find? (fun s ↦ s.index == raw.symbol) with
      | none =>
        rw [hfound, Option.map_none, Option.map_eq_none_iff] at hfind
        rw [hfind]
      | some s =>
        rw [hfound, Option.map_some] at hfind
        obtain ⟨s', hs', hname⟩ := Option.map_eq_some_iff.mp hfind
        rw [hs']
        dsimp only
        rw [hname]
  unfold reference?
  cases RelocationKind.ofNumber? raw.typ with
  | none => rfl
  | some kind =>
    dsimp only
    rw [hdestination, symbolBefore?_withReferences]
    congr 1
    funext d
    cases symbolBefore? symbols number raw.rva <;> rfl

/-- What is read of an object file's symbols, in its tables. -/
theorem Lists.withReferences (h : Lists f symbols sectionSymbols) (references : List Reference) :
    Lists f (withReferences symbols references) sectionSymbols := by
  refine ⟨?_, fun s hs r hr ↦ ?_, h.lookup⟩
  · rw [ObjectTable.withReferences, List.map_map]
    exact h.nodup
  · obtain ⟨bare, hbare, rfl⟩ := List.mem_map.mp hs
    exact h.plain bare hbare r hr

/-! ### From relocations to references -/

/-- The relocations of a section are looked at one by one. -/
theorem exists_outcomes_of_yield {h : Coff.SectionHeader} {y : SectionYield}
    (hy : sectionYield f symbols sectionSymbols number h = .ok y) : ∃ outcomes,
    List.Forall₂ (fun site o ↦
      reference? symbols sectionSymbols site.number site.bytes site.raw = .ok o)
      (sitesIn f h number) outcomes ∧ y.references = outcomes.filterMap id := by
  unfold sectionYield at hy
  unfold sitesIn
  split at hy
  · next hname =>
    obtain ⟨bytes, -, hy⟩ := Outcome.bind_eq_ok_iff.mp hy
    cases hy
    rw [if_pos (.inl hname)]
    exact ⟨[], .nil, rfl⟩
  · next hname =>
    split at hy
    · next hdebug =>
      cases hy
      rw [if_pos (.inr hdebug)]
      exact ⟨[], .nil, rfl⟩
    · next hdebug =>
      obtain ⟨bytes, hbytes, hy⟩ := Outcome.bind_eq_ok_iff.mp hy
      obtain ⟨found, hfound, hy⟩ := Outcome.bind_eq_ok_iff.mp hy
      cases hy
      rw [if_neg (by tauto), Outcome.orFail_eq_ok_iff.mp hbytes]
      exact ⟨found, List.forall₂_map_left_iff.mpr (Outcome.forall₂_of_mapM hfound), rfl⟩

/-- The relocations of sections are looked at section by section. -/
theorem exists_outcomes_of_yields {sections : List (Coff.SectionHeader × Nat)}
    {yields : List SectionYield} (hyields : List.Forall₂ (fun numbered y ↦
      sectionYield f symbols sectionSymbols numbered.2 numbered.1 = .ok y) sections yields) :
    ∃ outcomes, List.Forall₂ (fun site o ↦
      reference? symbols sectionSymbols site.number site.bytes site.raw = .ok o)
      (sections.flatMap fun (h, number) ↦ sitesIn f h number) outcomes ∧
      yields.flatMap SectionYield.references = outcomes.filterMap id := by
  induction hyields with
  | nil => exact ⟨[], .nil, rfl⟩
  | cons hyield _ ih =>
    obtain ⟨first, hfirst, hreferences⟩ := exists_outcomes_of_yield hyield
    obtain ⟨rest, hrest, hothers⟩ := ih
    refine ⟨first ++ rest, List.rel_append hfirst hrest, ?_⟩
    rw [List.flatMap_cons, hreferences, hothers, List.filterMap_append]

/-- Every relocation is looked at once, in order. -/
theorem Parts.exists_outcomes (h : Parts.read path data = .ok p) : ∃ outcomes,
    List.Forall₂ (fun site o ↦ reference? p.symbols p.sectionSymbols site.number site.bytes site.raw
      = .ok o) (sites p.file) outcomes ∧ p.references = outcomes.filterMap id := by
  obtain ⟨f, -, h⟩ := Outcome.bind_eq_ok_iff.mp h
  obtain ⟨entries, -, h⟩ := Outcome.bind_eq_ok_iff.mp h
  obtain ⟨yields, hyields, h⟩ := Outcome.bind_eq_ok_iff.mp h
  cases h
  exact exists_outcomes_of_yields (Outcome.forall₂_of_mapM hyields)

/-- Items that have an owner are those of the owners, one after the other. -/
theorem perm_flatMap_filter {α β κ : Type} [DecidableEq κ] {key : α → κ} {owners : List α}
    {items : List (α × β)} (hnodup : (owners.map key).Nodup)
    (hitems : ∀ item ∈ items, item.1 ∈ owners) :
    (owners.flatMap fun a ↦ items.filter fun item ↦ key item.1 = key a).Perm items := by
  induction owners generalizing items with
  | nil =>
    cases items with
    | nil => exact .nil
    | cons item _ => exact absurd (hitems item List.mem_cons_self) List.not_mem_nil
  | cons a owners ih =>
    obtain ⟨hfresh, hnodup⟩ := List.nodup_cons.mp hnodup
    have hrest : owners.flatMap (fun b ↦ items.filter fun item ↦ key item.1 = key b)
        = owners.flatMap fun b ↦ (items.filter fun item ↦ key item.1 ≠ key a).filter
            fun item ↦ key item.1 = key b := by
      refine List.flatMap_congr fun b hb ↦ ?_
      rw [List.filter_filter]
      refine List.filter_congr fun item _ ↦ ?_
      have hne : key b ≠ key a := fun heq ↦ hfresh (heq ▸ List.mem_map_of_mem hb)
      by_cases hkey : key item.1 = key b
      · simp [hkey, hne]
      · simp [hkey]
    have howned : ∀ item ∈ items.filter (fun item ↦ key item.1 ≠ key a), item.1 ∈ owners := by
      intro item hitem
      obtain ⟨hitem, hkey⟩ := List.mem_filter.mp hitem
      rcases List.mem_cons.mp (hitems item hitem) with heq | hmem
      · exact absurd (congrArg key heq) (by simpa using hkey)
      · exact hmem
    rw [List.flatMap_cons, hrest]
    refine (List.Perm.append_left _ (ih hnodup howned)).trans ?_
    simpa using List.filter_append_perm (fun item ↦ decide (key item.1 = key a)) items

/-- The owner of a reference and what is listed under it. -/
def Reference.owned? : Reference → Option (Nat × Relocation)
  | .owned owner r => some (owner, r)
  | .fixed _ => none

/-- Relocations that symbols own become the references that are listed, one by one. -/
theorem Lists.exists_items (h : Lists f symbols sectionSymbols) {sites : List Site}
    {outcomes : List (Option Reference)} (houtcomes : List.Forall₂ (fun site o ↦
      reference? symbols sectionSymbols site.number site.bytes site.raw = .ok o) sites outcomes) :
    ∃ items, List.Forall₂ (RecordedAs f symbols)
        (sites.filter fun site ↦ site.IsConsidered f symbols ∧ site.IsOwned symbols) items ∧
      (∀ item ∈ items, item.1 ∈ symbols) ∧
      (outcomes.filterMap id).filterMap Reference.owned?
        = items.map fun item ↦ (item.1.index, item.2) := by
  induction houtcomes with
  | nil => exact ⟨[], .nil, fun _ h ↦ (by cases h), rfl⟩
  | @cons site o sites outcomes ho _ ih =>
    obtain ⟨items, hitems, hlisted, howned⟩ := ih
    rcases h.reference?_spec ho with ⟨rfl, hnot⟩ | ⟨s, r, rfl, hs, hconsidered, hown, hrecorded⟩ |
      ⟨name, addend, rfl, -, hnot, -⟩
    · refine ⟨items, ?_, hlisted, howned⟩
      rw [List.filter_cons_of_neg (by simp [hnot])]
      exact hitems
    · refine ⟨(s, r) :: items, ?_, List.forall_mem_cons.mpr ⟨hs, hlisted⟩, ?_⟩
      · rw [List.filter_cons_of_pos (by simp [hconsidered, hown])]
        exact .cons hrecorded hitems
      · rw [List.map_cons, ← howned]
        rfl
    · refine ⟨items, ?_, hlisted, howned⟩
      rw [List.filter_cons_of_neg (by simp [hnot])]
      exact hitems

/-- Under a symbol the items that it owns are listed. -/
theorem relocations_owning {references : List Reference} {items : List (ObjectSymbol × Relocation)}
    (h : references.filterMap Reference.owned? = items.map fun item ↦ (item.1.index, item.2))
    (s : ObjectSymbol) : (owning references s).relocations
      = (items.filter fun item ↦ item.1.index = s.index).map Prod.snd := by
  have hsplit : (owning references s).relocations
      = (references.filterMap Reference.owned?).filterMap fun owned ↦
          if owned.1 = s.index then some owned.2 else none := by
    rw [List.filterMap_filterMap]
    refine List.filterMap_congr fun reference _ ↦ ?_
    cases reference <;> rfl
  rw [hsplit, h, List.filterMap_map]
  clear h hsplit
  induction items with
  | nil => rfl
  | cons item items ih =>
    by_cases howner : item.1.index = s.index
    · simp [howner, ← ih]
    · simp [howner, ← ih]

/-- Entries that are listed under symbols are the items that the symbols own. -/
theorem Lists.perm_recorded {t : ObjectTable} (h : Lists f t.symbols sectionSymbols)
    {references : List Reference} (ht : t.symbols = symbols.map (owning references))
    {items : List (ObjectSymbol × Relocation)} (hlisted : ∀ item ∈ items, item.1 ∈ t.symbols)
    (howned : references.filterMap Reference.owned?
      = items.map fun item ↦ (item.1.index, item.2)) : items.Perm t.recorded := by
  have hgroups : t.recorded
      = t.symbols.flatMap fun s ↦ items.filter fun item ↦ item.1.index = s.index := by
    refine List.flatMap_congr fun s hs ↦ ?_
    obtain ⟨bare, -, rfl⟩ := List.mem_map.mp (ht ▸ hs)
    rw [show _ = _ from relocations_owning howned bare, List.map_map]
    refine (List.map_congr_left fun item hitem ↦ ?_).trans (List.map_id _)
    obtain ⟨hitem, hindex⟩ := List.mem_filter.mp hitem
    exact Prod.ext (h.eq_of_index (hlisted item hitem) hs (of_decide_eq_true hindex)).symm rfl
  rw [hgroups]
  exact (perm_flatMap_filter h.nodup hlisted).symm

variable {t : ObjectTable}

/-- No relocation is lost when an object file is read. Those that lead somewhere, can be computed
anew and have a listed symbol at or before their field are listed one by one under the last such
symbol; the destinations of all others that lead somewhere are exactly those that are pinned. -/
theorem no_relocation_is_lost (h : parse path data = .ok t) : ∃ f, File.parse? data = some f ∧
    (∃ entries, entries.Perm t.recorded ∧ List.Forall₂ (RecordedAs f t.symbols)
      ((sites f).filter fun site ↦ site.IsConsidered f t.symbols ∧ site.IsOwned t.symbols)
      entries) ∧
    ∀ name, name ∈ t.unpatchable ↔ ∃ site ∈ sites f, site.IsConsidered f t.symbols ∧
      ¬site.IsOwned t.symbols ∧ ∃ addend, LeadsTo f t.symbols site name addend := by
  rw [Parts.parse_eq] at h
  obtain ⟨p, hp, h⟩ := Outcome.bind_eq_ok_iff.mp h
  cases h
  have hlists : Lists p.file (p.table path).symbols p.sectionSymbols :=
    (Parts.lists hp).withReferences p.references
  obtain ⟨outcomes, houtcomes, hreferences⟩ := Parts.exists_outcomes hp
  have houtcomes : List.Forall₂ (fun site o ↦ reference? (p.table path).symbols p.sectionSymbols
      site.number site.bytes site.raw = .ok o) (sites p.file) outcomes :=
    houtcomes.imp fun site o ho ↦ (reference?_withReferences ..).trans ho
  have hfile : File.parse? data = some p.file := by
    obtain ⟨f, hf, hp⟩ := Outcome.bind_eq_ok_iff.mp hp
    obtain ⟨entries, -, hp⟩ := Outcome.bind_eq_ok_iff.mp hp
    obtain ⟨yields, -, hp⟩ := Outcome.bind_eq_ok_iff.mp hp
    cases hp
    exact Outcome.orFail_eq_ok_iff.mp hf
  refine ⟨p.file, hfile, ?_, fun name ↦ ?_⟩
  · obtain ⟨items, hitems, hlisted, howned⟩ := hlists.exists_items houtcomes
    rw [← hreferences] at howned
    exact ⟨items, hlists.perm_recorded rfl hlisted howned, hitems⟩
  · rw [← List.contains_iff_mem, ← isUnpatchable, Parts.isUnpatchable_iff, hreferences,
      List.mem_filterMap]
    simp only [id, exists_eq_right]
    constructor
    · intro hmem
      obtain ⟨site, hsite, ho⟩ := Pointwise.exists_left houtcomes hmem
      rcases hlists.reference?_spec ho with ⟨heq, -⟩ | ⟨s, r, heq, -⟩ |
        ⟨name', addend, heq, hconsidered, hnot, hleads⟩
      · cases heq
      · cases heq
      · cases heq
        exact ⟨site, hsite, hconsidered, hnot, addend, hleads⟩
    · rintro ⟨site, hsite, hconsidered, hnot, addend, hleads⟩
      obtain ⟨o, hmem, ho⟩ := Pointwise.exists_right houtcomes hsite
      rcases hlists.reference?_spec ho with ⟨-, hnowhere⟩ | ⟨s, r, -, -, -, hown, -⟩ |
        ⟨name', addend', rfl, -, -, hleads'⟩
      · exact absurd hconsidered hnowhere
      · exact absurd hown hnot
      · rwa [(hlists.leadsTo_unique hleads hleads').1]

/-! A function that refers to a variable by its place in the data section, and to another one by its
offset from the start of the section. -/

namespace Placed

/-- The object file. -/
def file : Bytes :=
  -- Headers, code, relocations and data; then the symbol of the data section with its definition,
  -- `F`, `x`, `y` and an empty string table.
  ([0x64, 0x86, 0x02, 0x00, 0x00, 0x00, 0x00, 0x00, 0x8c, 0x00, 0x00, 0x00, 0x05, 0x00, 0x00,
    0x00, 0x00, 0x00, 0x00, 0x00]
  ++ [0x2e, 0x74, 0x65, 0x78, 0x74, 0x00, 0x00, 0x00, 0x00, 0x00, 0x00, 0x00, 0x00, 0x00, 0x00,
    0x00, 0x0c, 0x00, 0x00, 0x00, 0x64, 0x00, 0x00, 0x00, 0x70, 0x00, 0x00, 0x00, 0x00, 0x00,
    0x00, 0x00, 0x02, 0x00, 0x00, 0x00, 0x20, 0x00, 0x50, 0x60]
  ++ [0x2e, 0x64, 0x61, 0x74, 0x61, 0x00, 0x00, 0x00, 0x00, 0x00, 0x00, 0x00, 0x00, 0x00, 0x00,
    0x00, 0x08, 0x00, 0x00, 0x00, 0x84, 0x00, 0x00, 0x00, 0x00, 0x00, 0x00, 0x00, 0x00, 0x00,
    0x00, 0x00, 0x00, 0x00, 0x00, 0x00, 0x40, 0x00, 0x30, 0xc0]
  ++ [0x48, 0x8d, 0x05, 0x06, 0x00, 0x00, 0x00, 0xc3, 0x00, 0x00, 0x00, 0x00]
  ++ [0x03, 0x00, 0x00, 0x00, 0x00, 0x00, 0x00, 0x00, 0x04, 0x00, 0x08, 0x00, 0x00, 0x00, 0x03,
    0x00, 0x00, 0x00, 0x0b, 0x00]
  ++ [0x00, 0x00, 0x00, 0x00, 0x00, 0x00, 0x00, 0x00]
  ++ [0x2e, 0x64, 0x61, 0x74, 0x61, 0x00, 0x00, 0x00, 0x00, 0x00, 0x00, 0x00, 0x02, 0x00, 0x00,
    0x00, 0x03, 0x01]
  ++ [0x08, 0x00, 0x00, 0x00, 0x00, 0x00, 0x00, 0x00, 0x00, 0x00, 0x00, 0x00, 0x02, 0x00, 0x00,
    0x00, 0x00, 0x00]
  ++ [0x46, 0x00, 0x00, 0x00, 0x00, 0x00, 0x00, 0x00, 0x00, 0x00, 0x00, 0x00, 0x01, 0x00, 0x20,
    0x00, 0x02, 0x00]
  ++ [0x78, 0x00, 0x00, 0x00, 0x00, 0x00, 0x00, 0x00, 0x00, 0x00, 0x00, 0x00, 0x02, 0x00, 0x00,
    0x00, 0x02, 0x00]
  ++ [0x79, 0x00, 0x00, 0x00, 0x00, 0x00, 0x00, 0x00, 0x04, 0x00, 0x00, 0x00, 0x02, 0x00, 0x00,
    0x00, 0x02, 0x00]
  ++ [0x04, 0x00, 0x00, 0x00] : List UInt8).toArray

/-- The tables of the file: `y` starts last before the place that the first reference names. -/
def table : ObjectTable where
  path := ⟨"/p.obj"⟩
  unique := Fingerprint.ofPath ⟨"/p.obj"⟩
  symbols := [⟨2, "F", some 1, 0, true, true, false, false, [⟨3, "y", 2, .relative 0⟩]⟩,
    ⟨3, "x", some 2, 0, false, true, false, false, []⟩,
    ⟨4, "y", some 2, 4, false, true, false, false, []⟩]
  directives := []
  unpatchable := ["x"]

end Placed

/-- Of two relocations one is recorded and the destination of the other one is pinned. -/
theorem placed_relocations_are_recorded :
    parse ⟨"/p.obj"⟩ Placed.file = .ok Placed.table ∧
    ∃ f, File.parse? Placed.file = some f ∧ (sites f).length = 2 ∧
      (∃ entries, entries.Perm Placed.table.recorded ∧
        List.Forall₂ (RecordedAs f Placed.table.symbols)
          ((sites f).filter fun site ↦ site.IsConsidered f Placed.table.symbols ∧
            site.IsOwned Placed.table.symbols) entries) ∧
      ∃ site ∈ sites f, site.IsConsidered f Placed.table.symbols ∧
        ¬site.IsOwned Placed.table.symbols ∧
        ∃ addend, LeadsTo f Placed.table.symbols site "x" addend := by
  have hparse : parse ⟨"/p.obj"⟩ Placed.file = .ok Placed.table := by decide +kernel
  obtain ⟨f, hf, hentries, hpinned⟩ := no_relocation_is_lost hparse
  have hsites : (File.parse? Placed.file).map (fun f ↦ (sites f).length) = some 2 := by
    decide +kernel
  rw [hf, Option.map_some, Option.some.injEq] at hsites
  exact ⟨hparse, f, hf, hsites, hentries, (hpinned "x").mp (by decide)⟩

end ObjectTable
end LivePatch
