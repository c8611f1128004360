import LivePatch.Objects.Table
import LivePatch.Proofs.Coff.Parts
import LivePatch.Proofs.Text.CommandLine
import LivePatch.Proofs.Triple
import Mathlib.Algebra.Group.Nat.Even
import Mathlib.Data.List.TakeWhile

/-!
# Directives that are filtered

Rejected directives are taken out of an object file in place: the accepted ones move together and
the rest of their section is blanked out. What is left reads as the accepted directives in their
order, because they never take more room than before and nothing splits or joins them.
-/

namespace LivePatch

namespace Bytes

/-- Parts of a file that follow each other are one part. -/
theorem slice?_append {b x y : Bytes} {offset m n : Nat} (hx : b.slice? offset m = some x)
    (hy : b.slice? (offset + m) n = some y) : b.slice? offset (m + n) = some (x ++ y) := by
  unfold slice? at *
  split at hx
  · split at hy
    · cases hx
      cases hy
      rw [if_pos (by omega), Array.extract_append_extract, Nat.min_eq_left (by omega),
        Nat.max_eq_right (by omega), Nat.add_assoc]
    · cases hy
  · cases hx

/-- The first bytes of a part of a file. -/
theorem slice?_front {b x y : Bytes} {offset : Nat}
    (h : b.slice? offset (x.size + y.size) = some (x ++ y)) : b.slice? offset x.size = some x := by
  rw [← Nat.add_zero offset, ← slice?_of_slice? h (by omega), slice?, Array.size_append,
    if_pos (by omega)]
  simp

end Bytes

namespace Coff

open Bytes Text

/-- The directives in a text, behind the marks it starts with. -/
def directivesIn (text : List Char) : List String :=
  (tokensFrom false [] (Editor.splitMarks text).2).map String.ofList

namespace Editor

/-- The one section of a file that holds directives: behind all headers, inside the file, readable
and without an open double quote. -/
structure HoldsDirectives (e : Editor) (number : Nat) (h : SectionHeader) (text : List Char) :
    Prop where
  only : ∃ sections s, e.sections = .ok sections ∧
    sections.filter (fun s ↦ s.name == ".drectve") = [s] ∧ s.number = number
  header : e.header number = .ok h
  behind : e.sectionsAt + e.sectionCount * sectionHeaderSize ≤ h.rawPointer
  reads : ∃ raw, e.data.slice? h.rawPointer h.rawSize = some raw ∧
    Utf8.strict? raw.toList = some text
  closed : Even (text.count '"')

/-- What a file has become whose directives were filtered: only the room behind the marks of their
section is different, and the kept ones are read there. So they are in the object's tables, unless
the first of them would be taken for a mark. -/
structure HoldsKept (e e' : Editor) (number : Nat) (h : SectionHeader) (marks : List Char)
    (kept : List String) : Prop where
  tables : e' = { e with data := e'.data }
  differs : DiffersIn e.data e'.data
    ⟨h.rawPointer + Utf8.size (String.ofList marks), h.rawSize - Utf8.size (String.ofList marks)⟩
  header : e'.header number = .ok h
  reads : ∃ raw body, e'.data.slice? h.rawPointer h.rawSize = some raw ∧
    Utf8.strict? raw.toList = some (marks ++ body) ∧
    (tokensFrom false [] body).map String.ofList = kept ∧
    ((∀ d ∈ kept.head?, ∀ c ∈ d.toList.head?, c.toNat ≠ 0xfeff) →
      ObjectTable.directivesOf raw = kept)

variable {e : Editor} {number : Nat} {h : SectionHeader} {text : List Char}

/-! ### Marks -/

theorem splitMarks_append (text : List Char) :
    (splitMarks text).1 ++ (splitMarks text).2 = text := List.takeWhile_append_dropWhile

theorem isMark_of_mem {c : Char} (hc : c ∈ (splitMarks text).1) : c.toNat = 0xfeff := by
  simpa using List.mem_takeWhile_imp hc

/-- Marks are no double quotes. -/
theorem count_body (text : List Char) : (splitMarks text).2.count '"' = text.count '"' := by
  have hmarks : (splitMarks text).1.count '"' = 0 := by
    rw [List.count_eq_zero]
    intro hquote
    exact absurd (isMark_of_mem hquote) (by decide)
  have hall := congrArg (List.count '"') (splitMarks_append text)
  rw [List.count_append, hmarks] at hall
  omega

/-- Behind marks nothing that is no mark is passed over. -/
theorem withoutMarks_append {marks body : List Char} (hmarks : ∀ c ∈ marks, c.toNat = 0xfeff)
    (hbody : ∀ c ∈ body.head?, c.toNat ≠ 0xfeff) : withoutMarks (marks ++ body) = body := by
  rw [withoutMarks, List.dropWhile_append_of_pos (by simpa using hmarks)]
  cases body with
  | nil => rfl
  | cons c rest =>
    rw [List.dropWhile_cons_of_neg]
    simpa using hbody c rfl

/-! ### Room -/

/-- The line that is written in place of a text's directives, and the blanks behind it. -/
def keptLine (text : List Char) (keep : String → Bool) : List Char :=
  (join " " ((directivesIn text).filter keep)).toList

/-- Kept directives fit where all of them were. -/
theorem length_keptLine_le (text : List Char) (keep : String → Bool) :
    (Utf8.octets (keptLine text keep)).length ≤ (Utf8.octets (splitMarks text).2).length := by
  have hroom := spread_tokensFrom_le false [] (splitMarks text).2
  have hkept : spread (((directivesIn text).filter keep).map String.toList)
      ≤ spread (tokensFrom false [] (splitMarks text).2) := by
    refine spread_le_of_sublist ?_
    have hall : (directivesIn text).map String.toList
        = tokensFrom false [] (splitMarks text).2 := by
      simp [directivesIn, Function.comp_def]
    rw [← hall]
    exact List.filter_sublist.map _
  have hnil : (Utf8.octets []).length = 0 := rfl
  unfold keptLine
  cases hwords : (directivesIn text).filter keep with
  | nil => exact Nat.zero_le _
  | cons word words =>
    have hjoin := length_octets_join word words
    rw [hwords] at hkept
    omega

/-- Directives of a text without an open double quote are tokens wherever they stand. -/
theorem isToken_of_mem_directivesIn (hclosed : Even (text.count '"')) :
    ∀ d ∈ directivesIn text, IsToken d.toList := by
  intro d hd
  obtain ⟨word, hword, rfl⟩ := List.mem_map.mp hd
  rw [String.toList_ofList]
  refine isToken_of_mem_tokensFrom (show Clings false [] from trivial)
    (show isQuotedBehind false [] = false from rfl) ?_ word hword
  have heven : (splitMarks text).2.count '"' % 2 = 0 := by
    rw [count_body]
    exact Nat.even_iff.mp hclosed
  simp [isQuotedBehind_eq_xor, heven]

/-- What is written in place of directives, as a text. -/
theorem resize_keptLine (text : List Char) (keep : String → Bool) {n : Nat}
    (hn : (Utf8.octets (keptLine text keep)).length ≤ n) :
    (Utf8.encode (join " " ((directivesIn text).filter keep))).resize n 0x20
      = (Utf8.octets (keptLine text keep ++ List.replicate
          (n - (Utf8.octets (keptLine text keep)).length) ' ')).toArray := by
  have hencode : Utf8.encode (join " " ((directivesIn text).filter keep))
      = (Utf8.octets (keptLine text keep)).toArray := by
    rw [← Utf8.encode_ofList, keptLine, String.ofList_toList]
  rw [hencode, Bytes.resize, Utf8.octets_append, Utf8.octets_replicate_space, Bytes.fill]
  apply Array.ext'
  simp [List.take_of_length_le hn]

/-! ### The edit -/

/-- How many of a text's directives are rejected. -/
def rejected (text : List Char) (keep : String → Bool) : Nat :=
  (directivesIn text).countP fun d ↦ !keep d

theorem length_sub_length_filter (text : List Char) (keep : String → Bool) :
    (directivesIn text).length - ((directivesIn text).filter keep).length = rejected text keep := by
  rw [rejected, ← List.countP_eq_length_filter,
    List.length_eq_countP_add_countP (l := directivesIn text) (keep ·)]
  simp

/-- What is written behind the marks of a text. -/
def filling (h : SectionHeader) (text : List Char) (keep : String → Bool) : Bytes :=
  (Utf8.encode (join " " ((directivesIn text).filter keep))).resize
    (h.rawSize - Utf8.size (String.ofList (splitMarks text).1)) 0x20

theorem run_filterDirectives (ho : e.HoldsDirectives number h text) (keep : String → Bool) :
    (filterDirectives keep).run e =
      if rejected text keep = 0 then (.ok ⟨directivesIn text, 0⟩, e)
      else (.ok ⟨directivesIn text, rejected text keep⟩, { e with
        data := e.data.overwrite (h.rawPointer + Utf8.size (String.ofList (splitMarks text).1))
          (filling h text keep) }) := by
  obtain ⟨sections, s, hsections, honly, rfl⟩ := ho.only
  obtain ⟨raw, hraw, htext⟩ := ho.reads
  have hfound : sections.find? (fun s ↦ s.name == ".drectve") = some s := by
    rw [← List.head?_filter, honly, List.head?_cons]
  rw [← length_sub_length_filter, filling]
  simp only [filterDirectives, run_bind, run_get, run_lift, hsections, hfound, ho.header, hraw,
    orFail, htext]
  split
  · next hnone => exact (if_pos hnone).symm
  · next hsome =>
    have hsome : ¬(directivesIn text).length - ((directivesIn text).filter keep).length = 0 := hsome
    rw [if_neg hsome]
    rfl

/-- Octets of a text with marks in front of its directives. -/
theorem octets_splitMarks (text : List Char) :
    Utf8.octets text = Utf8.octets (splitMarks text).1 ++ Utf8.octets (splitMarks text).2 := by
  rw [← Utf8.octets_append, splitMarks_append]

theorem head?_keptLine (text : List Char) (keep : String → Bool) (n : Nat)
    (hclosed : Even (text.count '"'))
    (hfirst : ∀ d ∈ ((directivesIn text).filter keep).head?,
      ∀ c ∈ d.toList.head?, c.toNat ≠ 0xfeff) :
    ∀ c ∈ (keptLine text keep ++ List.replicate n ' ').head?, c.toNat ≠ 0xfeff := by
  unfold keptLine
  cases hwords : (directivesIn text).filter keep with
  | nil =>
    intro c hc
    have hmem : c ∈ List.replicate n ' ' := List.mem_of_mem_head? hc
    rw [List.eq_of_mem_replicate hmem]
    decide
  | cons word words =>
    have hword : word ∈ directivesIn text :=
      (List.mem_filter.mp (hwords ▸ List.mem_cons_self)).1
    have hne := (isToken_of_mem_directivesIn hclosed word hword).ne_nil
    have hhead : (join " " (word :: words)).toList.head? = word.toList.head? := by
      cases words with
      | nil => rfl
      | cons next words =>
        rw [join_cons, String.toList_append, String.toList_append, List.append_assoc,
          List.head?_append_of_ne_nil _ hne]
    intro c hc
    rw [List.head?_append_of_ne_nil, hhead] at hc
    · exact hfirst word (by rw [hwords]; rfl) c hc
    · intro hnil
      rw [hnil] at hhead
      exact hne (List.head?_eq_none_iff.mp hhead.symm)

/-- What is written behind the marks takes the room of what was there. -/
theorem filling_eq (ho : e.HoldsDirectives number h text) (keep : String → Bool) :
    ∃ n, filling h text keep
      = (Utf8.octets (keptLine text keep ++ List.replicate n ' ')).toArray ∧
      Utf8.size (String.ofList (splitMarks text).1) + (filling h text keep).size = h.rawSize := by
  obtain ⟨raw, hraw, htext⟩ := ho.reads
  have hsize := size_of_slice? hraw
  rw [← Array.length_toList, Utf8.strict?_eq_some_iff.mp htext, octets_splitMarks,
    List.length_append, ← Utf8.size_ofList] at hsize
  have hfits := length_keptLine_le text keep
  refine ⟨_, resize_keptLine text keep (by omega), ?_⟩
  rw [filling, size_resize]
  omega

theorem header_overwrite (ho : e.HoldsDirectives number h text) {data : Bytes} {at' size : Nat}
    (hdiffers : DiffersIn e.data data ⟨h.rawPointer + at', size⟩) :
    header { e with data := data } number = .ok h := by
  obtain ⟨offset, hoffset, hread⟩ := Outcome.bind_eq_ok_iff.mp ho.header
  have hbehind := ho.behind
  have hinside : offset + sectionHeaderSize ≤ e.sectionsAt + e.sectionCount * sectionHeaderSize := by
    unfold headerAt at hoffset
    split at hoffset
    · cases hoffset
    · cases hoffset
      rw [Nat.add_assoc, ← Nat.succ_mul]
      exact Nat.add_le_add_left (Nat.mul_le_mul_right _ (by omega)) _
  have hsame : SectionHeader.read? data offset = SectionHeader.read? e.data offset :=
    SectionHeader.read?_congr hdiffers.size (hdiffers.same _ (.inr (.inr (.inr (by dsimp only; omega)))))
  refine Outcome.bind_eq_ok_iff.mpr ⟨offset, hoffset, ?_⟩
  rw [hsame]
  exact hread

/-- Behind the marks of a section its filling is written. -/
theorem slice?_overwrite_filling (ho : e.HoldsDirectives number h text) (keep : String → Bool) :
    (e.data.overwrite (h.rawPointer + Utf8.size (String.ofList (splitMarks text).1))
      (filling h text keep)).slice? h.rawPointer h.rawSize
        = some ((Utf8.octets (splitMarks text).1).toArray ++ filling h text keep) := by
  obtain ⟨_, -, hroom⟩ := filling_eq ho keep
  obtain ⟨raw, hraw, htext⟩ := ho.reads
  have hinside := le_of_slice? hraw
  generalize hmarks : (Utf8.octets (splitMarks text).1).toArray = marks
  have hsize : Utf8.size (String.ofList (splitMarks text).1) = marks.size := by
    rw [Utf8.size_ofList, ← hmarks, List.size_toArray]
  rw [hsize] at hroom ⊢
  have hsplit : raw = marks ++ (Utf8.octets (splitMarks text).2).toArray := by
    rw [← hmarks, List.append_toArray, ← octets_splitMarks, ← Utf8.strict?_eq_some_iff.mp htext]
  have hfront : e.data.slice? h.rawPointer marks.size = some marks := by
    refine slice?_front (y := (Utf8.octets (splitMarks text).2).toArray) ?_
    rw [← hsplit, ← hraw, ← size_of_slice? hraw, hsplit, Array.size_append]
  have hdiffers := differsIn_overwrite (b := e.data) (h.rawPointer + marks.size)
    (filling h text keep) (.inr (by omega))
  have hkept := (slice?_congr hdiffers.size (hdiffers.same ⟨h.rawPointer, marks.size⟩
    (.inr (.inr (.inr (Nat.le_refl _)))))).trans hfront
  rw [← hroom]
  exact slice?_append hkept (slice?_overwrite (by omega))

/-- Kept directives that are joined and padded read as they are. -/
theorem tokensFrom_keptLine (hclosed : Even (text.count '"')) (keep : String → Bool) (n : Nat) :
    (tokensFrom false [] (keptLine text keep ++ List.replicate n ' ')).map String.ofList
      = (directivesIn text).filter keep := by
  rw [keptLine, tokensFrom_join fun d hd ↦
    isToken_of_mem_directivesIn hclosed d (List.mem_filter.mp hd).1]
  simp [Function.comp_def]

/-- The kept directives are read where all of them were. -/
theorem holdsKept_overwrite (ho : e.HoldsDirectives number h text) (keep : String → Bool) :
    e.HoldsKept { e with
      data := e.data.overwrite (h.rawPointer + Utf8.size (String.ofList (splitMarks text).1))
        (filling h text keep) } number h (splitMarks text).1 ((directivesIn text).filter keep) := by
  obtain ⟨n, hfilling, hroom⟩ := filling_eq ho keep
  obtain ⟨raw, hraw, -⟩ := ho.reads
  have hinside := le_of_slice? hraw
  have hdiffers := differsIn_overwrite (b := e.data)
    (h.rawPointer + Utf8.size (String.ofList (splitMarks text).1)) (filling h text keep)
    (.inr (by omega))
  have hwritten := slice?_overwrite_filling ho keep
  have hfills : (filling h text keep).size
      = h.rawSize - Utf8.size (String.ofList (splitMarks text).1) := by omega
  rw [hfills] at hdiffers
  generalize e.data.overwrite _ (filling h text keep) = data at hdiffers hwritten
  rw [hfilling, List.append_toArray, ← Utf8.octets_append] at hwritten
  refine ⟨rfl, hdiffers, header_overwrite ho hdiffers, _,
    keptLine text keep ++ List.replicate n ' ', hwritten, ?_, tokensFrom_keptLine ho.closed keep n,
    fun hfirst ↦ ?_⟩
  · exact Utf8.strict?_eq_some_iff.mpr rfl
  · rw [ObjectTable.directivesOf, Utf8.lossy_octets, withoutMarks_append (fun _ ↦ isMark_of_mem)
      (head?_keptLine text keep n ho.closed hfirst), tokensFrom_keptLine ho.closed keep n]

/-- When nothing is rejected the file holds what is kept already. -/
theorem HoldsDirectives.holdsKept (ho : e.HoldsDirectives number h text) {keep : String → Bool}
    (hnone : rejected text keep = 0) :
    e.HoldsKept e number h (splitMarks text).1 ((directivesIn text).filter keep) := by
  obtain ⟨raw, hraw, htext⟩ := ho.reads
  have hall : (directivesIn text).filter keep = directivesIn text := by
    rw [List.filter_eq_self]
    intro d hd
    simpa using List.countP_eq_zero.mp hnone d hd
  rw [hall]
  refine ⟨rfl, ⟨rfl, fun _ _ _ _ ↦ rfl⟩, ho.header, raw, (splitMarks text).2, hraw, ?_, rfl,
    fun _ ↦ ?_⟩
  · rw [splitMarks_append, htext]
  · rw [ObjectTable.directivesOf, Utf8.strict?_eq_some_iff.mp htext, Utf8.lossy_octets]
    rfl

/-- Filtering the directives of a file shows every one of them to the filter in their order, tells
how many it rejected and leaves a file of the same size that is the same but for the room behind
the marks of their section. There the accepted ones are read, in their order. A file of which
nothing is rejected is left alone. -/
theorem directives_are_filtered (ho : e.HoldsDirectives number h text) (keep : String → Bool) :
    ∃ e', (filterDirectives keep).run e
        = (.ok ⟨directivesIn text, (directivesIn text).countP fun d ↦ !keep d⟩, e') ∧
      ((∀ d ∈ directivesIn text, keep d = true) → e' = e) ∧
      e.HoldsKept e' number h (splitMarks text).1 ((directivesIn text).filter keep) := by
  rw [run_filterDirectives ho keep, ← rejected]
  by_cases hnone : rejected text keep = 0
  · rw [if_pos hnone, hnone]
    exact ⟨e, rfl, fun _ ↦ rfl, ho.holdsKept hnone⟩
  · rw [if_neg hnone]
    refine ⟨_, rfl, fun hall ↦ absurd ?_ hnone, holdsKept_overwrite ho keep⟩
    exact List.countP_eq_zero.mpr fun d hd ↦ by simp [hall d hd]

/-! A file that holds nothing but directives behind a mark, one of them with a blank in it. -/

namespace Marked

/-- The object file. -/
def data : Bytes :=
  -- The header of the file, and that of its section.
  ([0x64, 0x86, 0x01, 0x00, 0x00, 0x00, 0x00, 0x00, 0x4b, 0x00, 0x00, 0x00, 0x00, 0x00, 0x00, 0x00,
    0x00, 0x00, 0x00, 0x00]
  ++ [0x2e, 0x64, 0x72, 0x65, 0x63, 0x74, 0x76, 0x65, 0x00, 0x00, 0x00, 0x00, 0x00, 0x00, 0x00,
    0x00, 0x0f, 0x00, 0x00, 0x00, 0x3c, 0x00, 0x00, 0x00, 0x00, 0x00, 0x00, 0x00, 0x00, 0x00, 0x00,
    0x00, 0x00, 0x00, 0x00, 0x00, 0x00, 0x0a, 0x10, 0x00]
  ++ [0xef, 0xbb, 0xbf, 0x2f, 0x61, 0x20, 0x22, 0x2f, 0x62, 0x20, 0x63, 0x22, 0x20, 0x2f,
    0x64] : List UInt8).toArray

def file : Editor := ⟨data, .absolute, 20, 1, 75, 0, 75⟩

def header : SectionHeader :=
  ⟨[0x2e, 0x64, 0x72, 0x65, 0x63, 0x74, 0x76, 0x65], 0, 0, 15, 60, 0, 0, 0x100a00⟩

def line : List Char :=
  [Char.ofNat 0xfeff, '/', 'a', ' ', '"', '/', 'b', ' ', 'c', '"', ' ', '/', 'd']

theorem holdsDirectives : file.HoldsDirectives 1 header line where
  only := ⟨[⟨1, ".drectve", 0x100a00, none⟩], ⟨1, ".drectve", 0x100a00, none⟩,
    by decide +kernel, by decide +kernel, rfl⟩
  header := by rfl
  behind := by decide
  reads := ⟨data.extract 60 75, by decide +kernel, by decide +kernel⟩
  closed := by decide

end Marked

/-- The first directive of a marked section is rejected. -/
theorem marked_directives_are_filtered : ∃ e',
    parse Marked.data .absolute = .ok Marked.file ∧
    Marked.file.HoldsDirectives 1 Marked.header Marked.line ∧
    (filterDirectives (· != "/a")).run Marked.file = (.ok ⟨["/a", "\"/b c\"", "/d"], 1⟩, e') ∧
    Marked.file.HoldsKept e' 1 Marked.header [Char.ofNat 0xfeff] ["\"/b c\"", "/d"] := by
  obtain ⟨e', hrun, -, hkept⟩ :=
    directives_are_filtered Marked.holdsDirectives (· != "/a")
  have hseen : directivesIn Marked.line = ["/a", "\"/b c\"", "/d"] := by decide +kernel
  have hmarks : (splitMarks Marked.line).1 = [Char.ofNat 0xfeff] := by decide +kernel
  rw [hseen] at hrun hkept
  rw [hmarks] at hkept
  exact ⟨e', parse_eq_ok (by decide +kernel), Marked.holdsDirectives, hrun, hkept⟩

end Editor
end Coff
end LivePatch
