import LivePatch.Proofs.Coff.Directives
import LivePatch.Proofs.Coff.Edits

/-!
# Accesses of malformed object files

Everything in an object file is untrusted: the places that it names may lie anywhere, and its counts
may be any. Here the work on a file is written down once more with all of its accesses: a place that
is computed has to fit a machine word, a difference must not fall below zero, and no part of the
file is taken from behind its end. The two come to the same, and no access fails but one: the
relocations of a section may be asked for when their table starts behind the end of the file, but to
set the type of one of them the table is taken from the file whether it starts inside or not.
-/

namespace LivePatch

/-- A result with all accesses is the one without them, and none of them fails. -/
structure Outcome.IsSafe {α : Type} (r checked : Outcome α) : Prop where
  same : checked = r
  returns : r ≠ .error .fault

namespace Outcome.IsSafe

variable {α β : Type} {r checked : Outcome α}

theorem ok (a : α) : IsSafe (.ok a) (.ok a) := ⟨rfl, nofun⟩

theorem fail (c : Cause) : IsSafe (fail c : Outcome α) (LivePatch.fail c) := ⟨rfl, nofun⟩

theorem orFail (c : Cause) (x : Option α) : IsSafe (orFail c x) (LivePatch.orFail c x) :=
  ⟨rfl, orFail_ne_fault⟩

theorem bind (h : IsSafe r checked) {f g : α → Outcome β}
    (hf : ∀ a, r = .ok a → IsSafe (f a) (g a)) :
    IsSafe (r >>= f) (checked >>= g) := by
  refine ⟨?_, bind_ne_fault h.returns fun a ha ↦ (hf a ha).returns⟩
  rw [h.same]
  cases r with
  | error stop => rfl
  | ok a => exact (hf a rfl).same

theorem mapM {f g : α → Outcome β} {items : List α} (h : ∀ a ∈ items, IsSafe (f a) (g a)) :
    IsSafe (items.mapM f) (items.mapM g) := by
  induction items with
  | nil => exact ok []
  | cons a items ih =>
    rw [List.mapM_cons, List.mapM_cons]
    exact (h a List.mem_cons_self).bind fun b _ ↦
      (ih fun a ha ↦ h a (List.mem_cons_of_mem _ ha)).bind fun bs _ ↦ ok _

end Outcome.IsSafe

namespace Coff.Editor

open Bytes Text

/-- A place or an index that was computed, which has to fit a machine word. -/
def place (n : Nat) : Outcome Nat := if n < 0x10000000000000000 then .ok n else .error .fault

/-- A difference, which must not fall below zero. -/
def difference (a b : Nat) : Outcome Nat := if b ≤ a then .ok (a - b) else .error .fault

/-- Taking the part of a file from a place on, which must not lie behind the end. -/
def taken (e : Editor) (offset : Nat) : Outcome Unit :=
  if offset ≤ e.data.size then .ok () else .error .fault

/-! ### Work with all its accesses -/

namespace Checked

def header (e : Editor) (number : Nat) : Outcome SectionHeader :=
  if number = 0 ∨ e.sectionCount < number then fail (.sectionOutOfRange number)
  else do
    let offset ← place (e.sectionsAt + (number - 1) * sectionHeaderSize)
    e.taken offset
    orFail .truncatedSectionHeader (SectionHeader.read? e.data offset)

def record (e : Editor) (index : Nat) : Outcome SymbolRecord :=
  if e.symbolCount ≤ index then fail (.symbolOutOfRange index)
  else do
    let offset ← place (e.symbolsAt + index * symbolSize)
    e.taken offset
    orFail .truncatedSymbols (SymbolRecord.read? e.data offset)

def stringAt (e : Editor) (offset : Nat) : Outcome String := do
  let start ← place (e.stringsAt + offset)
  pure (String.ofList (Utf8.lossy (beforeNul (e.data.suffix start).toList)))

def symbolName (e : Editor) (r : SymbolRecord) : Outcome String :=
  if r.name.take 4 = [0, 0, 0, 0] then stringAt e (number (r.name.drop 4))
  else pure (String.ofList (shortName r.name))

def sectionName (e : Editor) (h : SectionHeader) : Outcome String :=
  let name := shortName h.name
  match name with
  | '/' :: digits =>
    match decimal? digits with
    | some offset => stringAt e offset
    | none => pure (String.ofList name)
  | _ => pure (String.ofList name)

/-- Symbols are listed up to the end of the table: running out of fuel would be a fault. -/
def symbolsFrom (e : Editor) : Nat → Nat → Outcome (List EditorSymbol)
  | 0, index => if e.symbolCount ≤ index then .ok [] else .error .fault
  | fuel + 1, index =>
    if e.symbolCount ≤ index then .ok []
    else do
      let r ← record e index
      let name ← symbolName e r
      let next ← place (index + 1 + r.auxCount)
      let rest ← symbolsFrom e fuel next
      pure ({ e.symbolOf index r with name := name } :: rest)

def symbols (e : Editor) : Outcome (List EditorSymbol) := symbolsFrom e e.symbolCount 0

def definitions (e : Editor) (symbols : List EditorSymbol) : Outcome (List (Nat × Comdat)) :=
  (symbols.filter fun s ↦ s.isSectionDefinition && 0 < s.sectionNumber).mapM fun s ↦ do
    let offset ← place (e.symbolsAt + (s.index + 1) * symbolSize)
    e.taken offset
    let d ← orFail .truncatedSectionDefinition (SectionDefinition.read? e.data offset)
    pure (s.sectionNumber.toNat, ⟨d.selection, d.associated⟩)

def sectionOf (e : Editor) (definitions : List (Nat × Comdat)) (number : Nat) :
    Outcome EditorSection := do
  let h ← header e number
  let comdat :=
    if hasFlag h.characteristics flagComdat then definitions.reverse.lookup number else none
  let name ← sectionName e h
  pure ⟨number, name, h.characteristics, comdat⟩

def sections (e : Editor) : Outcome (List EditorSection) := do
  let symbols ← symbols e
  let definitions ← definitions e symbols
  ((List.range e.sectionCount).map (· + 1)).mapM (sectionOf e definitions)

def relocationTable (e : Editor) (number : Nat) : Outcome (Nat × Nat) := do
  let h ← header e number
  if hasFlag h.characteristics flagOverflow then
    let first ← orFail .truncatedRelocations (RawRelocation.read? e.data h.relocationPointer)
    let offset ← place (h.relocationPointer + relocationSize)
    pure (offset, first.rva.toNat - 1)
  else pure (h.relocationPointer, h.relocationCount)

/-- The table of relocations is only asked for: what lies behind the end is no part of the file. -/
def relocations (e : Editor) (number : Nat) : Outcome (List RawRelocation) := do
  let (offset, count) ← relocationTable e number
  if count = 0 then pure []
  else orFail (.truncatedRelocationsOf number) (relocationsAt? e.data offset count)

def put (offset : Nat) (bytes : Bytes) : EditM Unit := do
  let e ← get
  let stop ← place (offset + bytes.size)
  e.taken stop
  Editor.put offset bytes

def setRelocationType (number relocation : Nat) (typ : UInt16) : EditM Unit := do
  let e ← get
  let (offset, count) ← relocationTable e number
  e.taken offset
  if e.data.size < offset + count * relocationSize then fail (.truncatedRelocationsOf number)
  else if count ≤ relocation then fail .relocationOutOfRange
  else put (offset + relocation * relocationSize + 8) (ofU16 typ)

def removeSymbol (index : Nat) : EditM Unit := do
  let e ← get
  let _ ← record e index
  put (e.recordAt index) (removedRecord e.strategy)

def clearDefinition (index : Nat) : EditM Unit := do
  let e ← get
  if e.symbolCount ≤ index then fail (.auxiliaryOutOfRange index)
  else
    let offset ← place (e.symbolsAt + index * symbolSize)
    e.taken offset
    let _ ← orFail .truncatedSymbols (SymbolRecord.read? e.data offset)
    put offset (fill 8 0)

def removeSection (number : Nat) : EditM Unit := do
  let e ← get
  let _ ← header e number
  let offset ← e.headerAt number
  put offset removedSectionName
  put (offset + 16) (fill 20 0)
  put (offset + 36) (ofU32 (flagRemove ||| flagDiscardable))
  let symbols ← symbols (← get)
  let definitions := symbols.filter fun s ↦
    s.isSectionDefinition && s.sectionNumber == (number : Int)
  definitions.forM fun s ↦ do
    let index ← place (s.index + 1)
    clearDefinition index

def filterDirectives (keep : String → Bool) : EditM Filtered := do
  let e ← get
  let sections ← sections e
  match sections.find? fun s ↦ s.name == ".drectve" with
  | none => pure ⟨[], 0⟩
  | some s =>
    let h ← header e s.number
    let stop ← place (h.rawPointer + h.rawSize)
    let raw ← orFail .directivesOutOfBounds (e.data.slice? h.rawPointer (stop - h.rawPointer))
    match Utf8.strict? raw.toList with
    | none => pure ⟨[], 0⟩
    | some text =>
      let body := (splitMarks text).2
      let marksSize ← difference (Utf8.size (String.ofList text)) (Utf8.size (String.ofList body))
      let tokens := (tokensFrom false [] body).map String.ofList
      let kept := tokens.filter keep
      let removed ← difference tokens.length kept.length
      if removed = 0 then pure ⟨tokens, 0⟩
      else
        let joined := Utf8.encode (join " " kept)
        let room ← difference h.rawSize marksSize
        put (h.rawPointer + marksSize) (joined.resize room 0x20)
        pure ⟨tokens, removed⟩

end Checked

/-! ### What files can name -/

theorem numberAt?_lt {b : Bytes} {offset width n : Nat} (h : b.numberAt? offset width = some n) :
    n < 256 ^ width := by
  obtain ⟨part, hpart, rfl⟩ := Option.map_eq_some_iff.mp h
  have hlt := number_lt part.toList
  rwa [Array.length_toList, size_of_slice? hpart] at hlt

/-- The places that the header of a section names. -/
theorem bounds_of_header {b : Bytes} {offset : Nat} {h : SectionHeader}
    (hread : SectionHeader.read? b offset = some h) :
    h.name.length = 8 ∧ h.rawSize < 0x100000000 ∧ h.rawPointer < 0x100000000 ∧
      h.relocationPointer < 0x100000000 ∧ h.relocationCount < 0x10000 := by
  obtain ⟨r, -, hread⟩ := Option.bind_eq_some_iff.mp hread
  obtain ⟨name, hname, hread⟩ := Option.bind_eq_some_iff.mp hread
  obtain ⟨_, -, hread⟩ := Option.bind_eq_some_iff.mp hread
  obtain ⟨_, -, hread⟩ := Option.bind_eq_some_iff.mp hread
  obtain ⟨_, hsize, hread⟩ := Option.bind_eq_some_iff.mp hread
  obtain ⟨_, hraw, hread⟩ := Option.bind_eq_some_iff.mp hread
  obtain ⟨_, hrelocations, hread⟩ := Option.bind_eq_some_iff.mp hread
  obtain ⟨_, hcount, hread⟩ := Option.bind_eq_some_iff.mp hread
  obtain ⟨_, -, hread⟩ := Option.bind_eq_some_iff.mp hread
  cases hread
  exact ⟨by rw [Array.length_toList, size_of_slice? hname], numberAt?_lt hsize, numberAt?_lt hraw,
    numberAt?_lt hrelocations, numberAt?_lt hcount⟩

/-- What the record of a symbol holds. -/
theorem bounds_of_record {b : Bytes} {offset : Nat} {r : SymbolRecord}
    (hread : SymbolRecord.read? b offset = some r) :
    r.name.length = 8 ∧ r.auxCount < 0x100 := by
  obtain ⟨_, -, hread⟩ := Option.bind_eq_some_iff.mp hread
  obtain ⟨name, hname, hread⟩ := Option.bind_eq_some_iff.mp hread
  obtain ⟨_, -, hread⟩ := Option.bind_eq_some_iff.mp hread
  obtain ⟨_, -, hread⟩ := Option.bind_eq_some_iff.mp hread
  obtain ⟨_, -, hread⟩ := Option.bind_eq_some_iff.mp hread
  obtain ⟨_, -, hread⟩ := Option.bind_eq_some_iff.mp hread
  obtain ⟨_, haux, hread⟩ := Option.bind_eq_some_iff.mp hread
  cases hread
  exact ⟨by rw [Array.length_toList, size_of_slice? hname], numberAt?_lt haux⟩

/-- Octets stand for as many characters at most. -/
theorem length_decode_le (p : Option Utf8.Pending) (octets : List UInt8) :
    (Utf8.decode p octets).length ≤ octets.length + if p.isSome then 1 else 0 := by
  induction octets generalizing p with
  | nil => cases p <;> simp [Utf8.decode]
  | cons b rest ih =>
    have hnone := ih none
    have hsome := fun q ↦ ih (some q)
    simp only [Option.isSome_none, Option.isSome_some, Bool.false_eq_true, if_false, if_true]
      at hnone hsome
    cases p with
    | none =>
      rw [Utf8.decode]
      cases Utf8.start b with
      | whole c => simpa using hnone
      | more q => simpa using hsome q
      | broken => simpa using hnone
    | some p =>
      rw [Utf8.decode]
      split
      · dsimp only
        split
        · simp only [List.length_cons, Option.isSome_some, if_true]
          omega
        · have := hsome ⟨p.code * 64 + (b.toNat - 0x80), p.owed - 1, 0x80, 0xbf⟩
          simp only [List.length_cons, Option.isSome_some, if_true]
          omega
      · cases Utf8.start b with
        | whole c => simpa using hnone
        | more q => simpa using hsome q
        | broken =>
          simp only [List.length_cons, Option.isSome_some, if_true]
          omega

theorem length_shortName_le (name : List UInt8) : (shortName name).length ≤ name.length := by
  rw [shortName, Utf8.lossy, List.length_map]
  have hdecoded := length_decode_le none (beforeNul name)
  have hfront : (beforeNul name).length ≤ name.length := (List.takeWhile_prefix _).length_le
  simp only [Option.isSome_none, Bool.false_eq_true, if_false] at hdecoded
  omega

/-- Digits stand for a number with no more of them. -/
theorem decimal?_lt {text : List Char} {n : Nat} (h : decimal? text = some n) :
    n < 10 ^ text.length := by
  have hdigits : ∀ (digits : List Char) (n : Nat), (∀ c ∈ digits, c.isDigit = true) →
      digits.foldl (fun n c ↦ n * 10 + (c.toNat - '0'.toNat)) n < (n + 1) * 10 ^ digits.length := by
    intro digits
    induction digits with
    | nil => intro n _; simp
    | cons c rest ih =>
      intro n hall
      have hc : c.toNat - '0'.toNat ≤ 9 := by
        have hc := hall c List.mem_cons_self
        simp only [Char.isDigit, Bool.and_eq_true, decide_eq_true_eq] at hc
        have hlast : c.val.toNat ≤ 57 := UInt32.le_iff_toNat_le.mp hc.2
        change c.val.toNat - 48 ≤ 9
        omega
      have := ih (n * 10 + (c.toNat - '0'.toNat)) fun d hd ↦ hall d (List.mem_cons_of_mem _ hd)
      rw [List.foldl_cons, List.length_cons, Nat.pow_succ']
      refine Nat.lt_of_lt_of_le this ?_
      rw [← Nat.mul_assoc]
      exact Nat.mul_le_mul_right _ (by omega)
  unfold decimal? at h
  have hlength : (if text.head? = some '+' then text.tail else text).length ≤ text.length := by
    split
    · rw [List.length_tail]
      omega
    · exact Nat.le_refl _
  generalize (if text.head? = some '+' then text.tail else text) = digits at h hlength
  dsimp only at h
  split at h
  · cases h
  · next hvalid =>
    cases h
    simp only [Bool.or_eq_true, Bool.not_eq_true', not_or, Bool.not_eq_false, List.all_eq_true]
      at hvalid
    have hlt := hdigits digits 0 hvalid.2
    rw [Nat.zero_add, Nat.one_mul] at hlt
    exact Nat.lt_of_lt_of_le hlt (Nat.pow_le_pow_right (by decide) hlength)

/-- A file whose tables lie inside, at places that a header can name. -/
structure IsSound (e : Editor) : Prop extends Fits e where
  sectionsAt_lt : e.sectionsAt < 0x20000
  sectionCount_lt : e.sectionCount < 0x10000
  symbolsAt_lt : e.symbolsAt < 0x100000000
  symbolCount_lt : e.symbolCount < 0x100000000

theorem isSound_of_parse {data : Bytes} {strategy : RemovalStrategy} {e : Editor}
    (hparse : parse data strategy = .ok e) : e.IsSound := by
  have hfits := fits_of_parse hparse
  obtain ⟨header, hheader, hparse⟩ := Outcome.bind_eq_ok_iff.mp hparse
  have hread := Outcome.orFail_eq_ok_iff.mp hheader
  obtain ⟨_, -, hread⟩ := Option.bind_eq_some_iff.mp hread
  obtain ⟨_, -, hread⟩ := Option.bind_eq_some_iff.mp hread
  obtain ⟨_, hsections, hread⟩ := Option.bind_eq_some_iff.mp hread
  obtain ⟨_, hsymbolsAt, hread⟩ := Option.bind_eq_some_iff.mp hread
  obtain ⟨_, hsymbols, hread⟩ := Option.bind_eq_some_iff.mp hread
  obtain ⟨_, hoptional, hread⟩ := Option.bind_eq_some_iff.mp hread
  cases hread
  have hsections := numberAt?_lt hsections
  have hsymbolsAt := numberAt?_lt hsymbolsAt
  have hsymbols := numberAt?_lt hsymbols
  have hoptional := numberAt?_lt hoptional
  dsimp only at hparse
  split at hparse
  · cases hparse
  · split at hparse
    · cases hparse
    · cases hparse
      refine ⟨hfits, ?_, hsections, hsymbolsAt, hsymbols⟩
      unfold headerSize
      dsimp only
      omega

theorem IsSound.withData {e : Editor} (h : e.IsSound) {data : Bytes}
    (hsize : data.size = e.data.size) : (e.withData data).IsSound :=
  ⟨⟨h.header, hsize ▸ h.headers, h.symbols, hsize ▸ h.strings⟩, h.sectionsAt_lt, h.sectionCount_lt,
    h.symbolsAt_lt, h.symbolCount_lt⟩

/-! ### Reading -/

theorem place_eq {n : Nat} (h : n < 0x10000000000000000) : place n = .ok n := if_pos h

theorem taken_eq {e : Editor} {offset : Nat} (h : offset ≤ e.data.size) : e.taken offset = .ok () :=
  if_pos h

section Reading

variable {e : Editor} (hs : e.IsSound)
include hs

theorem IsSound.stringsAt_lt : e.stringsAt < 0x2000000000 := by
  have hsymbols := hs.symbols
  have hat := hs.symbolsAt_lt
  have hcount := hs.symbolCount_lt
  unfold symbolSize at hsymbols
  omega

theorem safe_header (number : Nat) : (e.header number).IsSafe (Checked.header e number) := by
  unfold header Checked.header headerAt
  split
  · exact .fail _
  · next hrange =>
    have hheaders := hs.headers
    have hle : (number - 1) * sectionHeaderSize ≤ e.sectionCount * sectionHeaderSize :=
      Nat.mul_le_mul_right _ (by omega)
    have hcount := hs.sectionCount_lt
    have hat := hs.sectionsAt_lt
    rw [place_eq (by unfold sectionHeaderSize at *; omega)]
    change (orFail _ _).IsSafe (e.taken _ >>= fun _ ↦ _)
    rw [taken_eq (by omega)]
    exact .orFail _ _

theorem safe_record (index : Nat) : (e.record index).IsSafe (Checked.record e index) := by
  unfold record Checked.record
  split
  · exact .fail _
  · next hindex =>
    have hinside := hs.recordAt_le (Nat.lt_of_not_le hindex)
    have hstrings := hs.stringsAt_lt
    have hlt := hs.symbols
    unfold recordAt at *
    have hle : index * symbolSize ≤ e.symbolCount * symbolSize := Nat.mul_le_mul_right _ (by omega)
    rw [place_eq (by omega)]
    change (orFail _ _).IsSafe (e.taken _ >>= fun _ ↦ _)
    rw [taken_eq (by omega)]
    exact .orFail _ _

theorem stringAt_eq_checked {offset : Nat} (h : offset < 0x100000000) :
    Checked.stringAt e offset = .ok (e.stringAt offset) := by
  have hstrings := hs.stringsAt_lt
  rw [Checked.stringAt, place_eq (by omega)]
  rfl

theorem symbolName_eq_checked {r : SymbolRecord} (hname : r.name.length = 8) :
    Checked.symbolName e r = .ok (e.symbolName r) := by
  unfold symbolName Checked.symbolName
  split
  · have hlt := number_lt (r.name.drop 4)
    rw [List.length_drop, hname] at hlt
    exact stringAt_eq_checked hs hlt
  · rfl

theorem sectionName_eq_checked {h : SectionHeader} (hname : h.name.length = 8) :
    Checked.sectionName e h = .ok (e.sectionName h) := by
  have hlength := length_shortName_le h.name
  unfold sectionName Checked.sectionName
  generalize shortName h.name = name at hlength
  rcases name with _ | ⟨c, digits⟩
  · rfl
  · by_cases hslash : c = '/'
    · subst hslash
      rw [List.length_cons] at hlength
      simp only
      cases hoffset : decimal? digits with
      | some offset =>
        refine stringAt_eq_checked hs (Nat.lt_of_lt_of_le (decimal?_lt hoffset) ?_)
        exact Nat.le_trans (Nat.pow_le_pow_right (by decide) (by omega : digits.length ≤ 7))
          (by decide)
      | none => rfl
    · simp [hslash, pure, Except.pure]

/-- Symbols are listed up to the end of the table when there is fuel for all of its records. -/
theorem safe_symbolsFrom {fuel index : Nat} (hfuel : e.symbolCount ≤ index + fuel) :
    (e.symbolsFrom fuel index).IsSafe (Checked.symbolsFrom e fuel index) := by
  induction fuel generalizing index with
  | zero =>
    rw [symbolsFrom, Checked.symbolsFrom, if_pos (by omega)]
    exact .ok _
  | succ fuel ih =>
    rw [symbolsFrom, Checked.symbolsFrom]
    split
    · exact .ok _
    · next hindex =>
      refine (safe_record hs index).bind fun r hr ↦ ?_
      rw [record, if_neg hindex] at hr
      obtain ⟨hname, haux⟩ := bounds_of_record (Outcome.orFail_eq_ok_iff.mp hr)
      have hcount := hs.symbolCount_lt
      rw [symbolName_eq_checked hs hname, place_eq (by omega)]
      exact (ih (by omega)).bind fun rest _ ↦ .ok _

theorem safe_symbols : e.symbols.IsSafe (Checked.symbols e) :=
  safe_symbolsFrom hs (Nat.le_of_eq (Nat.zero_add _).symm)

/-- The definition of a section stands in the record behind that of its symbol, or at the end of the
table, which lies inside. -/
theorem definition_le {symbols : List EditorSymbol} (hsymbols : e.symbols = .ok symbols)
    {s : EditorSymbol} (hmem : s ∈ symbols) :
    e.symbolsAt + (s.index + 1) * symbolSize ≤ e.stringsAt := by
  have hindex := index_lt_of_mem_symbols hsymbols hmem
  rw [hs.symbols]
  exact Nat.add_le_add_left (Nat.mul_le_mul_right _ hindex) _

theorem safe_definitions {symbols : List EditorSymbol} (hsymbols : e.symbols = .ok symbols) :
    (e.definitions symbols).IsSafe (Checked.definitions e symbols) := by
  refine .mapM fun s hmem ↦ ?_
  have hle := definition_le hs hsymbols (List.mem_filter.mp hmem).1
  have hstrings := hs.stringsAt_lt
  have hinside := hs.strings
  rw [place_eq (by omega)]
  change Outcome.IsSafe _ (e.taken _ >>= fun _ ↦ _)
  rw [taken_eq (by omega)]
  exact (Outcome.IsSafe.orFail _ _).bind fun d _ ↦ .ok _

theorem safe_sectionOf (definitions : List (Nat × Comdat)) (number : Nat) :
    (e.sectionOf definitions number).IsSafe (Checked.sectionOf e definitions number) := by
  refine (safe_header hs number).bind fun h hh ↦ ?_
  obtain ⟨offset, -, hread⟩ := Outcome.bind_eq_ok_iff.mp hh
  have hname := (bounds_of_header (Outcome.orFail_eq_ok_iff.mp hread)).1
  rw [sectionName_eq_checked hs hname]
  exact .ok _

theorem safe_sections : e.sections.IsSafe (Checked.sections e) :=
  (safe_symbols hs).bind fun _ hsymbols ↦ (safe_definitions hs hsymbols).bind fun definitions _ ↦
    .mapM fun number _ ↦ safe_sectionOf hs definitions number

theorem safe_relocationTable (number : Nat) :
    (e.relocationTable number).IsSafe (Checked.relocationTable e number) := by
  refine (safe_header hs number).bind fun h hh ↦ ?_
  obtain ⟨offset, -, hread⟩ := Outcome.bind_eq_ok_iff.mp hh
  have hpointer := (bounds_of_header (Outcome.orFail_eq_ok_iff.mp hread)).2.2.2.1
  split
  · refine (Outcome.IsSafe.orFail _ _).bind fun first _ ↦ ?_
    rw [place_eq (by unfold relocationSize; omega)]
    exact .ok _
  · exact .ok _

theorem safe_relocations (number : Nat) :
    (e.relocations number).IsSafe (Checked.relocations e number) := by
  refine (safe_relocationTable hs number).bind fun ⟨offset, count⟩ _ ↦ ?_
  dsimp only
  split
  · exact .ok _
  · exact .orFail _ _

end Reading

/-! ### Editing -/

/-- An edit of a file comes to the same with all of its accesses, none of them fails, and the file
keeps its size and its tables where they are. -/
structure IsSafe {α : Type} (e : Editor) (act checked : EditM α) : Prop where
  same : checked.run e = act.run e
  returns : (act.run e).1 ≠ .error .fault
  keeps : ∃ data, data.size = e.data.size ∧ (act.run e).2 = e.withData data

namespace IsSafe

variable {α β : Type} {e : Editor}

theorem pure (a : α) : IsSafe e (pure a) (Pure.pure a) := ⟨rfl, nofun, e.data, rfl, rfl⟩

theorem fail (c : Cause) : IsSafe e (LivePatch.fail c : EditM α) (LivePatch.fail c) :=
  ⟨rfl, nofun, e.data, rfl, rfl⟩

theorem bind {act checked : EditM α} {f g : α → EditM β} (h : IsSafe e act checked)
    (hf : ∀ a data, data.size = e.data.size → act.run e = (.ok a, e.withData data) →
      IsSafe (e.withData data) (f a) (g a)) :
    IsSafe e (act >>= f) (checked >>= g) := by
  obtain ⟨hsame, hreturns, data, hsize, hend⟩ := h
  rcases hrun : act.run e with ⟨stop | a, e'⟩
  · rw [hrun] at hsame hreturns hend
    refine ⟨by rw [run_bind, run_bind, hsame, hrun], ?_, data, hsize, ?_⟩
    · rw [run_bind, hrun]
      exact fun h ↦ hreturns (congrArg Except.error (Except.error.inj h))
    · rw [run_bind, hrun]
      exact hend
  · rw [hrun] at hsame hend
    obtain rfl : e' = e.withData data := hend
    obtain ⟨hsame', hreturns', data', hsize', hend'⟩ := hf a data hsize hrun
    refine ⟨?_, ?_, data', hsize'.trans hsize, ?_⟩
    · rw [run_bind, run_bind, hsame, hrun]
      exact hsame'
    · rw [run_bind, hrun]
      exact hreturns'
    · rw [run_bind, hrun]
      exact hend'

/-- A result that needs no file before an edit. -/
theorem bind_lift {r checked : Outcome α} (h : r.IsSafe checked) {f g : α → EditM β}
    (hf : ∀ a, r = .ok a → IsSafe e (f a) (g a)) :
    IsSafe e (liftM r >>= f) (liftM checked >>= g) := by
  rw [h.same]
  cases r with
  | error stop =>
    exact ⟨rfl, fun heq ↦ h.returns (congrArg _ (Except.error.inj heq)), e.data, rfl, rfl⟩
  | ok a => exact hf a rfl

theorem bind_get {f g : Editor → EditM β} (h : IsSafe e (f e) (g e)) :
    IsSafe e (get >>= f) (get >>= g) := ⟨h.same, h.returns, h.keeps⟩

/-- An edit behind an access that does not fail. -/
theorem behind {r : Outcome α} {a : α} (hr : r = .ok a) {act : EditM β} {g : α → EditM β}
    (h : IsSafe e act (g a)) : IsSafe e act (liftM r >>= g) := by
  rw [hr]
  exact h

theorem forM {items : List α} {f g : α → EditM Unit}
    (h : ∀ a ∈ items, ∀ data, data.size = e.data.size → IsSafe (e.withData data) (f a) (g a)) :
    IsSafe e (items.forM f) (items.forM g) := by
  induction items generalizing e with
  | nil => exact pure ()
  | cons a items ih =>
    refine (h a List.mem_cons_self e.data rfl).bind fun _ data hsize _ ↦ ?_
    refine ih fun b hb data' hsize' ↦ ?_
    exact h b (List.mem_cons_of_mem _ hb) data' (hsize'.trans hsize)

end IsSafe

/-- Where the relocations of a section are looked for, and how many. -/
theorem bounds_of_relocationTable {e : Editor} {number offset count : Nat}
    (htable : e.relocationTable number = .ok (offset, count)) :
    offset < 0x200000000 ∧ count < 0x100000000 := by
  obtain ⟨h, hh, htable⟩ := Outcome.bind_eq_ok_iff.mp htable
  obtain ⟨_, -, hread⟩ := Outcome.bind_eq_ok_iff.mp hh
  obtain ⟨-, -, -, hpointer, hcount⟩ := bounds_of_header (Outcome.orFail_eq_ok_iff.mp hread)
  split at htable
  · obtain ⟨first, -, htable⟩ := Outcome.bind_eq_ok_iff.mp htable
    cases htable
    have := first.rva.toNat_lt
    unfold relocationSize
    omega
  · cases htable
    omega

/-- The relocations of a section start behind the end of the file. -/
def RelocatesPastEnd (e : Editor) (number : Nat) : Prop :=
  ∃ h, e.header number = .ok h ∧ hasFlag h.characteristics flagOverflow = false ∧
    e.data.size < h.relocationPointer

/-- Where a table of relocations starts behind the end, no record of it counts them, as that one is
read first. -/
theorem relocatesPastEnd_iff {e : Editor} {number offset count : Nat}
    (htable : e.relocationTable number = .ok (offset, count)) :
    e.RelocatesPastEnd number ↔ e.data.size < offset := by
  obtain ⟨h, hh, htable⟩ := Outcome.bind_eq_ok_iff.mp htable
  have hiff : e.RelocatesPastEnd number ↔ hasFlag h.characteristics flagOverflow = false ∧
      e.data.size < h.relocationPointer :=
    ⟨fun ⟨h', hh', hpast⟩ ↦ by cases hh.symm.trans hh'; exact hpast, fun hpast ↦ ⟨h, hh, hpast⟩⟩
  rw [hiff]
  split at htable
  · next hflag =>
    obtain ⟨first, hfirst, htable⟩ := Outcome.bind_eq_ok_iff.mp htable
    cases htable
    obtain ⟨part, hpart, -⟩ := Option.bind_eq_some_iff.mp (Outcome.orFail_eq_ok_iff.mp hfirst)
    have hinside := le_of_slice? hpart
    rw [hflag]
    exact iff_of_false (fun hpast ↦ Bool.noConfusion hpast.1) (Nat.not_lt.mpr hinside)
  · next hflag =>
    cases htable
    exact and_iff_right (Bool.eq_false_iff.mpr hflag)

theorem relocationTable_of_past_end {e : Editor} {number : Nat}
    (hpast : e.RelocatesPastEnd number) :
    ∃ offset count, e.relocationTable number = .ok (offset, count) ∧ e.data.size < offset := by
  obtain ⟨h, hh, hflag, hstart⟩ := hpast
  refine ⟨h.relocationPointer, h.relocationCount, Outcome.bind_eq_ok_iff.mpr ⟨h, hh, ?_⟩, hstart⟩
  rw [hflag]
  rfl

/-- Asking for relocations that would start behind the end is an error. -/
theorem relocations_of_past_end {e : Editor} {number offset count : Nat}
    (htable : e.relocationTable number = .ok (offset, count)) (hstart : e.data.size < offset)
    (hcount : count ≠ 0) : e.relocations number = fail (.truncatedRelocationsOf number) := by
  have hnone : relocationsAt? e.data offset count = none := if_neg (by omega)
  rw [relocations, htable]
  change (if count = 0 then _ else _) = _
  rw [if_neg hcount, hnone]
  rfl

section Editing

variable {e : Editor} (hs : e.IsSound)

/-- Bytes inside of a file are replaced. -/
theorem safe_put {offset : Nat} {bytes : Bytes} (hinside : offset + bytes.size ≤ e.data.size)
    (hlt : offset + bytes.size < 0x10000000000000000) :
    IsSafe e (put offset bytes) (Checked.put offset bytes) :=
  .bind_get (.behind (place_eq hlt) (.behind (taken_eq hinside)
    ⟨rfl, nofun, _, size_overwrite hinside, rfl⟩))

include hs

theorem safe_removeSymbol (index : Nat) :
    IsSafe e (removeSymbol index) (Checked.removeSymbol index) := by
  refine .bind_get (.bind_lift (safe_record hs index) fun r hr ↦ ?_)
  have hindex : index < e.symbolCount := by
    unfold record at hr
    split at hr
    · cases hr
    · omega
  have hinside := hs.recordAt_le hindex
  have hstrings := hs.stringsAt_lt
  have hlast := (contains_record hs.toFits hindex (i := e.recordAt index + 17)
    ⟨by dsimp only; omega, by unfold symbolSize; dsimp only; omega⟩).2
  unfold symbolSize at hinside
  refine safe_put ?_ ?_
  · rw [size_removedRecord]
    omega
  · rw [size_removedRecord]
    omega

theorem safe_clearDefinition (index : Nat) :
    IsSafe e (clearDefinition index) (Checked.clearDefinition index) := by
  refine .bind_get ?_
  split
  · exact .fail _
  · next hindex =>
    have hindex : index < e.symbolCount := by omega
    have hinside := hs.recordAt_le hindex
    have hstrings := hs.stringsAt_lt
    have hlast := (contains_record hs.toFits hindex (i := e.recordAt index + 17)
      ⟨by dsimp only; omega, by unfold symbolSize; dsimp only; omega⟩).2
    obtain ⟨r, hr⟩ := SymbolRecord.exists_read? hinside
    have height : (fill 8 0).size = 8 := Array.size_replicate
    unfold symbolSize at hinside
    refine .behind (place_eq (show e.recordAt index < _ by omega))
      (.behind (taken_eq (by omega)) (.behind (Outcome.orFail_eq_ok_iff.mpr hr) (safe_put ?_ ?_)))
    · rw [height]
      omega
    · rw [height]
      omega

/-- The type of a relocation is set, unless its table starts behind the end. -/
theorem safe_setRelocationType {number : Nat} (hpast : ¬e.RelocatesPastEnd number)
    (relocation : Nat) (typ : UInt16) :
    IsSafe e (setRelocationType number relocation typ)
      (Checked.setRelocationType number relocation typ) := by
  refine .bind_get (.bind_lift (safe_relocationTable hs number) fun ⟨offset, count⟩ htable ↦ ?_)
  have hstart := (not_congr (relocatesPastEnd_iff htable)).mp hpast
  obtain ⟨hoffset, hcount⟩ := bounds_of_relocationTable htable
  have htwo : (ofU16 typ).size = 2 := by simp [ofU16, length_ofNumber]
  dsimp only
  rw [if_neg hstart]
  refine .behind (taken_eq (Nat.le_of_not_lt hstart)) ?_
  split
  · exact .fail _
  · next hinside =>
    split
    · exact .fail _
    · next hrelocation =>
      have hlast : (relocation + 1) * relocationSize ≤ count * relocationSize :=
        Nat.mul_le_mul_right _ (by omega)
      rw [Nat.succ_mul] at hlast
      unfold relocationSize at *
      exact safe_put (by omega) (by omega)

/-- Where the table starts behind the end, its part of the file is taken all the same. -/
theorem run_setRelocationType_of_past_end {number : Nat} (hpast : e.RelocatesPastEnd number)
    (relocation : Nat) (typ : UInt16) :
    (setRelocationType number relocation typ).run e = (.error .fault, e) ∧
      (Checked.setRelocationType number relocation typ).run e = (.error .fault, e) := by
  obtain ⟨offset, count, htable, hstart⟩ := relocationTable_of_past_end hpast
  have htaken : e.taken offset = .error .fault := if_neg (Nat.not_le.mpr hstart)
  have hchecked : Checked.relocationTable e number = .ok (offset, count) :=
    (safe_relocationTable hs number).same.trans htable
  constructor
  · simp only [setRelocationType, run_bind, run_get, run_lift, htable, if_pos hstart, run_throw]
  · simp only [Checked.setRelocationType, run_bind, run_get, run_lift, hchecked, htaken]

theorem safe_removeSection (number : Nat) :
    IsSafe e (removeSection number) (Checked.removeSection number) := by
  refine .bind_get ?_
  by_cases hrange : number = 0 ∨ e.sectionCount < number
  · have hat : e.headerAt number = fail (.sectionOutOfRange number) := if_pos hrange
    have hheader : Checked.header e number = fail (.sectionOutOfRange number) := if_pos hrange
    rw [hat, hheader]
    exact ⟨rfl, nofun, e.data, rfl, rfl⟩
  · have hat : e.headerAt number = .ok _ := if_neg hrange
    have hinside := hs.headerAt_le hat
    obtain ⟨h, hh⟩ := SectionHeader.exists_read? hinside
    have hheader : Checked.header e number = .ok h := by
      rw [(safe_header hs number).same, Editor.header, hat]
      exact Outcome.orFail_eq_ok_iff.mpr hh
    refine .behind hheader ?_
    rw [hat]
    generalize e.sectionsAt + (number - 1) * sectionHeaderSize = offset at hat hinside
    have hlt : offset < 0x1000000 := by
      obtain ⟨-, hle, rfl⟩ := headerAt_eq_ok_iff.mp hat
      have hsections := hs.sectionsAt_lt
      have hcount := hs.sectionCount_lt
      unfold sectionHeaderSize
      omega
    unfold sectionHeaderSize at hinside
    have height : removedSectionName.size = 8 := rfl
    have htwenty : (fill 20 0).size = 20 := Array.size_replicate
    have hfour : (ofU32 (flagRemove ||| flagDiscardable)).size = 4 := by
      simp [ofU32, length_ofNumber]
    refine .bind_lift (.ok offset) fun _ hoffset ↦ ?_
    cases hoffset
    refine .bind (safe_put ?_ ?_) fun _ data hsize _ ↦ .bind (safe_put ?_ ?_)
      fun _ data' hsize' _ ↦ .bind (safe_put ?_ ?_) fun _ data'' hsize'' _ ↦ ?_
    · omega
    · omega
    · dsimp only
      omega
    · omega
    · dsimp only at *
      omega
    · omega
    have hs' := ((hs.withData hsize).withData hsize').withData hsize''
    refine .bind_get (.bind_lift (safe_symbols hs') fun symbols hsymbols ↦ ?_)
    refine .forM fun s hmem data hsize ↦ ?_
    have hindex := index_lt_of_mem_symbols hsymbols (List.mem_filter.mp hmem).1
    have hcount := hs'.symbolCount_lt
    exact .behind (place_eq (by omega)) (safe_clearDefinition (hs'.withData hsize) _)

theorem safe_filterDirectives (keep : String → Bool) :
    IsSafe e (filterDirectives keep) (Checked.filterDirectives keep) := by
  refine .bind_get (.bind_lift (safe_sections hs) fun sections _ ↦ ?_)
  cases sections.find? fun s ↦ s.name == ".drectve" with
  | none => exact .pure _
  | some s =>
    refine .bind_lift (safe_header hs s.number) fun h hh ↦ ?_
    obtain ⟨_, -, hread⟩ := Outcome.bind_eq_ok_iff.mp hh
    obtain ⟨-, hsize, hraw, -⟩ := bounds_of_header (Outcome.orFail_eq_ok_iff.mp hread)
    refine .behind (place_eq (by omega)) ?_
    rw [Nat.add_sub_cancel_left]
    refine .bind_lift (.orFail _ _) fun raw hraw ↦ ?_
    cases htext : Utf8.strict? raw.toList with
    | none => exact .pure _
    | some text =>
      -- the marks and the directives behind them make up the data of the section
      have hall := congrArg List.length (octets_splitMarks text)
      rw [List.length_append] at hall
      have hinside := le_of_slice? (Outcome.orFail_eq_ok_iff.mp hraw)
      have htaken := size_of_slice? (Outcome.orFail_eq_ok_iff.mp hraw)
      rw [← Array.length_toList, Utf8.strict?_eq_some_iff.mp htext] at htaken
      have hmarks : difference (Utf8.size (String.ofList text))
          (Utf8.size (String.ofList (splitMarks text).2))
            = .ok (Utf8.size (String.ofList (splitMarks text).1)) := by
        rw [Utf8.size_ofList, Utf8.size_ofList, Utf8.size_ofList, difference, if_pos (by omega)]
        exact congrArg _ (by omega)
      refine .behind hmarks ?_
      have hroom : Utf8.size (String.ofList (splitMarks text).1) ≤ h.rawSize := by
        rw [Utf8.size_ofList]
        omega
      dsimp only
      generalize (tokensFrom false [] (splitMarks text).2).map String.ofList = tokens
      refine .behind (if_pos (List.length_filter_le ..)) ?_
      by_cases hnone : tokens.length - (tokens.filter keep).length = 0
      · rw [if_pos hnone, if_pos hnone]
        exact .pure _
      · rw [if_neg hnone, if_neg hnone]
        refine .behind (if_pos hroom) (.bind (safe_put ?_ ?_) fun _ _ _ _ ↦ .pure _)
        · rw [size_resize]
          omega
        · rw [size_resize]
          omega

end Editing

/-! ### Sequences of calls -/

/-- What a file is asked for or told, with whatever indices. -/
inductive Call where
  | symbols
  | sections
  | relocations (number : Nat)
  | setRelocationType (number relocation : Nat) (typ : UInt16)
  | removeSymbol (index : Nat)
  | removeSection (number : Nat)
  | filterDirectives (keep : String → Bool)

namespace Call

/-- The call as it is made. -/
def run : Call → EditM Unit
  | symbols => do let _ ← (← get).symbols
  | sections => do let _ ← (← get).sections
  | relocations number => do let _ ← (← get).relocations number
  | setRelocationType number relocation typ => Editor.setRelocationType number relocation typ
  | removeSymbol index => Editor.removeSymbol index
  | removeSection number => Editor.removeSection number
  | filterDirectives keep => do let _ ← Editor.filterDirectives keep

/-- The call with all of its accesses. -/
def checked : Call → EditM Unit
  | symbols => do let _ ← Checked.symbols (← get)
  | sections => do let _ ← Checked.sections (← get)
  | relocations number => do let _ ← Checked.relocations (← get) number
  | setRelocationType number relocation typ => Checked.setRelocationType number relocation typ
  | removeSymbol index => Checked.removeSymbol index
  | removeSection number => Checked.removeSection number
  | filterDirectives keep => do let _ ← Checked.filterDirectives keep

/-- The type of a relocation is to be set in a table that starts behind the end of the file. -/
def IsPastEnd (e : Editor) : Call → Prop
  | setRelocationType number _ _ => e.RelocatesPastEnd number
  | _ => False

end Call

/-- A file after calls, whatever they came to. -/
def called (e : Editor) (calls : List Call) : Editor :=
  calls.foldl (fun e call ↦ (call.run.run e).2) e

section Calls

variable {e : Editor}

theorem safe_call (hs : e.IsSound) {call : Call} (hpast : ¬call.IsPastEnd e) :
    IsSafe e call.run call.checked := by
  cases call with
  | symbols => exact .bind_get (.bind_lift (safe_symbols hs) fun _ _ ↦ .pure _)
  | sections => exact .bind_get (.bind_lift (safe_sections hs) fun _ _ ↦ .pure _)
  | relocations number =>
    exact .bind_get (.bind_lift (safe_relocations hs number) fun _ _ ↦ .pure _)
  | setRelocationType number relocation typ => exact safe_setRelocationType hs hpast relocation typ
  | removeSymbol index => exact safe_removeSymbol hs index
  | removeSection number => exact safe_removeSection hs number
  | filterDirectives keep => exact (safe_filterDirectives hs keep).bind fun _ _ _ _ ↦ .pure _

theorem run_of_isPastEnd (hs : e.IsSound) {call : Call} (hpast : call.IsPastEnd e) :
    call.run.run e = (.error .fault, e) ∧ call.checked.run e = (.error .fault, e) := by
  cases call with
  | setRelocationType number relocation typ =>
    exact run_setRelocationType_of_past_end hs hpast relocation typ
  | _ => exact hpast.elim

/-- One call: it comes to what it comes to with all of its accesses, keeps the size of the file, and
fails an access only where it sets a type behind the end. -/
theorem IsSound.call (hs : e.IsSound) (call : Call) :
    call.checked.run e = call.run.run e ∧
      ((call.run.run e).1 = .error .fault ↔ call.IsPastEnd e) ∧
      (call.run.run e).2.IsSound ∧ (call.run.run e).2.data.size = e.data.size := by
  by_cases hpast : call.IsPastEnd e
  · obtain ⟨hrun, hchecked⟩ := run_of_isPastEnd hs hpast
    rw [hrun, hchecked]
    exact ⟨rfl, iff_of_true rfl hpast, hs, rfl⟩
  · obtain ⟨hsame, hreturns, data, hsize, hend⟩ := safe_call hs hpast
    refine ⟨hsame, iff_of_false hreturns hpast, ?_⟩
    rw [hend]
    exact ⟨hs.withData hsize, hsize⟩

theorem IsSound.called (hs : e.IsSound) (calls : List Call) :
    (e.called calls).IsSound ∧ (e.called calls).data.size = e.data.size := by
  induction calls generalizing e with
  | nil => exact ⟨hs, rfl⟩
  | cons call calls ih =>
    obtain ⟨-, -, hnext, hsize⟩ := hs.call call
    obtain ⟨hend, hsize'⟩ := ih hnext
    exact ⟨hend, hsize'.trans hsize⟩

end Calls

/-- Whatever a file that is accepted holds, and whatever it was asked for and told before: a call
comes to what it comes to with all of its accesses, and the file keeps its size. It ends with a
result or an error, unless the type of a relocation is to be set in a table that starts behind the
end of the file, and then it ends with neither. -/
theorem calls_stay_inside_iff {data : Bytes} {strategy : RemovalStrategy} {e : Editor}
    (hparse : parse data strategy = .ok e) (calls : List Call) (call : Call) :
    call.checked.run (e.called calls) = call.run.run (e.called calls) ∧
      (call.run.run (e.called calls)).2.data.size = data.size ∧
      ((call.run.run (e.called calls)).1 = .error .fault ↔ call.IsPastEnd (e.called calls)) := by
  obtain ⟨hs, hsize⟩ := (isSound_of_parse hparse).called calls
  obtain ⟨hsame, hfault, -, hkeeps⟩ := hs.call call
  rw [(data_of_parse hparse).1] at hsize
  exact ⟨hsame, hkeeps.trans hsize, hfault⟩

namespace PastEnd

/-- An object file with one section, whose relocations would start behind the end of the file. -/
def data : Bytes :=
  #[0x64, 0x86, 0x01, 0x00, 0x00, 0x00, 0x00, 0x00, 0x3c, 0x00, 0x00, 0x00, 0x00, 0x00, 0x00, 0x00,
    0x00, 0x00, 0x00, 0x00,
    0x2e, 0x74, 0x65, 0x78, 0x74, 0x00, 0x00, 0x00, 0x00, 0x00, 0x00, 0x00, 0x00, 0x00, 0x00, 0x00,
    0x00, 0x00, 0x00, 0x00, 0x00, 0x00, 0x00, 0x00, 0x00, 0x10, 0x00, 0x00, 0x00, 0x00, 0x00, 0x00,
    0x01, 0x00, 0x00, 0x00, 0x20, 0x00, 0x50, 0x60]

def file : Editor := ⟨data, .absolute, 20, 1, 60, 0, 60⟩

theorem parse_data : parse data .absolute = .ok file := parse_eq_ok (by decide +kernel)

theorem relocationTable_file : file.relocationTable 1 = .ok (0x1000, 1) := by decide +kernel

theorem relocatesPastEnd_file : file.RelocatesPastEnd 1 :=
  (relocatesPastEnd_iff relocationTable_file).mpr (by decide)

/-- The file after its relocations were asked for and its section was removed. -/
def emptied : Editor := file.called [.relocations 1, .removeSection 1]

theorem relocationTable_emptied : emptied.relocationTable 1 = .ok (0, 0) := by decide +kernel

end PastEnd

/-- The relocations of a section can be asked for and the section can be removed, wherever its table
starts; and then there is none behind the end whose type could be set. -/
theorem removed_section_has_no_table_past_end :
    parse PastEnd.data .absolute = .ok PastEnd.file ∧
      (Call.setRelocationType 1 0 3).checked.run PastEnd.emptied
        = (Call.setRelocationType 1 0 3).run.run PastEnd.emptied ∧
      ((Call.setRelocationType 1 0 3).run.run PastEnd.emptied).2.data.size = PastEnd.data.size ∧
      ((Call.setRelocationType 1 0 3).run.run PastEnd.emptied).1 ≠ .error .fault := by
  obtain ⟨hsame, hsize, hfault⟩ := calls_stay_inside_iff PastEnd.parse_data
    [.relocations 1, .removeSection 1] (.setRelocationType 1 0 3)
  refine ⟨PastEnd.parse_data, hsame, hsize, fun h ↦ ?_⟩
  have hpast : PastEnd.emptied.RelocatesPastEnd 1 := hfault.mp h
  exact absurd ((relocatesPastEnd_iff PastEnd.relocationTable_emptied).mp hpast) (Nat.not_lt_zero _)

/-- The type of a relocation whose table starts behind the end is set through an access that fails,
where asking for the relocations is an error. -/
theorem type_behind_end_is_set_past_end :
    ∃ data e, parse data .absolute = .ok e ∧
      e.relocations 1 = fail (.truncatedRelocationsOf 1) ∧
      (Call.setRelocationType 1 0 3).run.run e = (.error .fault, e) :=
  ⟨PastEnd.data, PastEnd.file, PastEnd.parse_data,
    relocations_of_past_end PastEnd.relocationTable_file (by decide) (by decide),
    (run_setRelocationType_of_past_end (isSound_of_parse PastEnd.parse_data)
      PastEnd.relocatesPastEnd_file 0 3).1⟩

end Coff.Editor
end LivePatch
