import LivePatch.Text.CommandLine
import LivePatch.Proofs.Text.Utf8
import Mathlib.Data.List.Basic
import Mathlib.Data.List.Sort

/-!
# Lines put together from their tokens

A line is split at the blanks that stand outside of double quotes: its tokens are what these gaps
leave of it, and only the last one may leave a quote open. So tokens that are joined again by single
blanks are read as the same tokens, with any blanks behind the last one where every quote is closed;
and they take no more octets than the line that they were read from.
-/

namespace LivePatch.Text

open Utf8 (octets)

/-- Whether a place behind the given characters is between double quotes. -/
def isQuotedBehind (quoted : Bool) (text : List Char) : Bool :=
  text.foldl (fun quoted c ↦ if c = '"' then !quoted else quoted) quoted

/-- No blank stands outside of double quotes. -/
def Clings : Bool → List Char → Prop
  | _, [] => True
  | quoted, c :: rest =>
    if c = '"' then Clings (!quoted) rest
    else (quoted = true ∨ isBlank c = false) ∧ Clings quoted rest

/-- A token that nothing splits, whatever it is put next to. -/
structure IsToken (text : List Char) : Prop where
  ne_nil : text ≠ []
  clings : Clings false text
  closed : isQuotedBehind false text = false

@[simp] theorem isQuotedBehind_nil (quoted : Bool) : isQuotedBehind quoted [] = quoted := rfl

@[simp] theorem isQuotedBehind_append (quoted : Bool) (a b : List Char) :
    isQuotedBehind quoted (a ++ b) = isQuotedBehind (isQuotedBehind quoted a) b := by
  simp [isQuotedBehind]

theorem isQuotedBehind_cons (quoted : Bool) (c : Char) (rest : List Char) :
    isQuotedBehind quoted (c :: rest)
      = isQuotedBehind (if c = '"' then !quoted else quoted) rest := rfl

/-- Double quotes in pairs leave nothing open. -/
theorem isQuotedBehind_eq_xor (quoted : Bool) (text : List Char) :
    isQuotedBehind quoted text = (quoted ^^ decide (text.count '"' % 2 = 1)) := by
  induction text generalizing quoted with
  | nil => simp
  | cons c rest ih =>
    rw [isQuotedBehind_cons, ih]
    by_cases hc : c = '"'
    · rw [if_pos hc, hc, List.count_cons_self]
      rcases Nat.mod_two_eq_zero_or_one (rest.count '"') with heven | hodd
      · have hnext : (rest.count '"' + 1) % 2 = 1 := by omega
        simp [heven, hnext]
      · have hnext : (rest.count '"' + 1) % 2 = 0 := by omega
        simp [hodd, hnext]
    · simp [hc, List.count_cons_of_ne hc]

theorem clings_append {quoted : Bool} {a b : List Char} :
    Clings quoted (a ++ b) ↔ Clings quoted a ∧ Clings (isQuotedBehind quoted a) b := by
  induction a generalizing quoted with
  | nil => simp [Clings]
  | cons c rest ih =>
    by_cases hc : c = '"'
    · simp [Clings, hc, ih, isQuotedBehind_cons]
    · simp [Clings, hc, ih, isQuotedBehind_cons, and_assoc]

/-! ### Reading -/

/-- Characters that cling together are read into the current token. -/
theorem tokensFrom_append {quoted : Bool} {word : List Char} (current rest : List Char)
    (h : Clings quoted word) :
    tokensFrom quoted current (word ++ rest)
      = tokensFrom (isQuotedBehind quoted word) (current ++ word) rest := by
  induction word generalizing quoted current with
  | nil => simp
  | cons c word ih =>
    rw [List.cons_append, tokensFrom, isQuotedBehind_cons]
    by_cases hc : c = '"'
    · rw [if_pos hc, if_pos hc, ih _ (by simpa [Clings, hc] using h), List.append_assoc]
      rfl
    · rw [Clings, if_neg hc] at h
      have hstays : (isBlank c && !quoted) = false := by
        rcases h.1 with hquoted | hblank
        · simp [hquoted]
        · simp [hblank]
      rw [if_neg hc, if_neg hc, hstays, if_neg Bool.false_ne_true, ih _ h.2, List.append_assoc]
      rfl

/-- Blanks between tokens belong to none. -/
theorem tokensFrom_spaces (n : Nat) : tokensFrom false [] (List.replicate n ' ') = [] := by
  induction n with
  | zero => rfl
  | succ n ih =>
    rw [List.replicate_succ, tokensFrom, if_neg (by decide), isBlank_space]
    exact ih

/-- A blank ends a token. -/
theorem tokensFrom_space {current : List Char} (rest : List Char) (h : current ≠ []) :
    tokensFrom false current (' ' :: rest) = current :: tokensFrom false [] rest := by
  rw [tokensFrom, if_neg (by decide), isBlank_space]
  simp [h]

theorem IsToken.read {word : List Char} (h : IsToken word) (rest : List Char) :
    tokensFrom false [] (word ++ rest) = tokensFrom false word rest := by
  rw [tokensFrom_append _ _ h.clings, h.closed, List.nil_append]

theorem IsToken.read_spaces {word : List Char} (h : IsToken word) (n : Nat) :
    tokensFrom false [] (word ++ List.replicate n ' ') = [word] := by
  rw [h.read]
  cases n with
  | zero => simp [tokensFrom, h.ne_nil]
  | succ n => rw [List.replicate_succ, tokensFrom_space _ h.ne_nil, tokensFrom_spaces]

theorem join_cons (separator word next : String) (words : List String) :
    join separator (word :: next :: words)
      = word ++ separator ++ join separator (next :: words) := rfl

/-- Tokens joined by blanks are read as they were, and blanks behind them add none. -/
theorem tokensFrom_join {words : List String} (h : ∀ w ∈ words, IsToken w.toList) (n : Nat) :
    tokensFrom false [] ((join " " words).toList ++ List.replicate n ' ')
      = words.map String.toList := by
  induction words with
  | nil => exact tokensFrom_spaces n
  | cons word words ih =>
    have hword := h word List.mem_cons_self
    cases words with
    | nil => exact hword.read_spaces n
    | cons next words =>
      have hrest := ih fun w hw ↦ h w (List.mem_cons_of_mem _ hw)
      rw [join_cons, String.toList_append, String.toList_append, List.append_assoc,
        List.append_assoc, hword.read]
      exact (tokensFrom_space _ hword.ne_nil).trans (congrArg _ hrest)

/-! ### Words with an open double quote -/

/-- Words of a text that ends between double quotes or not: nothing splits them, and only the last
one may leave a double quote open. -/
def AreWords (isOpen : Bool) : List (List Char) → Prop
  | [] => isOpen = false
  | [word] => word ≠ [] ∧ Clings false word ∧ isQuotedBehind false word = isOpen
  | word :: words => IsToken word ∧ AreWords isOpen words

theorem AreWords.cons {isOpen : Bool} {word : List Char} {words : List (List Char)}
    (hword : IsToken word) (h : AreWords isOpen words) : AreWords isOpen (word :: words) := by
  cases words with
  | nil => exact ⟨hword.ne_nil, hword.clings, hword.closed.trans h.symm⟩
  | cons next words => exact ⟨hword, h⟩

theorem AreWords.ne_nil {isOpen : Bool} {words : List (List Char)} (h : AreWords isOpen words) :
    ∀ word ∈ words, word ≠ [] := by
  induction words with
  | nil => exact nofun
  | cons word words ih =>
    cases words with
    | nil => exact List.forall_mem_singleton.mpr h.1
    | cons next words => exact List.forall_mem_cons.mpr ⟨h.1.ne_nil, ih h.2⟩

/-- Words of a text that ends outside of double quotes are tokens wherever they stand. -/
theorem AreWords.isToken {words : List (List Char)} (h : AreWords false words) :
    ∀ word ∈ words, IsToken word := by
  induction words with
  | nil => exact List.forall_mem_nil _
  | cons word words ih =>
    cases words with
    | nil => exact List.forall_mem_singleton.mpr ⟨h.1, h.2.1, h.2.2⟩
    | cons next words => exact List.forall_mem_cons.mpr ⟨h.1, ih h.2⟩

/-- The tokens of any text are words. -/
theorem areWords_tokensFrom {quoted : Bool} {current : List Char} (text : List Char)
    (hcurrent : Clings false current) (hquoted : isQuotedBehind false current = quoted) :
    AreWords (isQuotedBehind quoted text) (tokensFrom quoted current text) := by
  induction text generalizing quoted current with
  | nil =>
    rw [tokensFrom]
    split
    · next hnil =>
      rw [List.isEmpty_iff.mp hnil] at hquoted
      exact hquoted.symm
    · next hne => exact ⟨by simpa using hne, hcurrent, hquoted⟩
  | cons c rest ih =>
    rw [isQuotedBehind_cons, tokensFrom]
    by_cases hc : c = '"'
    · rw [if_pos hc, if_pos hc]
      exact ih (clings_append.mpr ⟨hcurrent, by simp [Clings, hc]⟩)
        (by simp [isQuotedBehind_cons, hc, hquoted])
    · rw [if_neg hc, if_neg hc]
      by_cases hblank : (isBlank c && !quoted) = true
      · have hout : quoted = false := by simpa using (Bool.and_eq_true_iff.mp hblank).2
        have hrest := ih (show Clings false [] from trivial) hout.symm
        rw [if_pos hblank]
        split
        · exact hrest
        · next hne => exact hrest.cons ⟨by simpa using hne, hcurrent, hquoted.trans hout⟩
      · rw [if_neg hblank]
        refine ih (clings_append.mpr ⟨hcurrent, ?_⟩) (by simp [isQuotedBehind_cons, hc, hquoted])
        rw [Clings, if_neg hc, hquoted]
        refine ⟨?_, trivial⟩
        cases quoted <;> simp_all

/-- Tokens of a text without an open double quote are tokens wherever they stand. -/
theorem isToken_of_mem_tokensFrom {quoted : Bool} {current text : List Char}
    (hcurrent : Clings false current) (hquoted : isQuotedBehind false current = quoted)
    (hclosed : isQuotedBehind quoted text = false) :
    ∀ word ∈ tokensFrom quoted current text, IsToken word := by
  have hwords := areWords_tokensFrom text hcurrent hquoted
  rw [hclosed] at hwords
  exact hwords.isToken

/-- Words joined by blanks are read as they were, also when the last one leaves a quote open. -/
theorem tokensFrom_join_words {isOpen : Bool} {words : List String}
    (h : AreWords isOpen (words.map String.toList)) :
    tokensFrom false [] (join " " words).toList = words.map String.toList := by
  induction words with
  | nil => rfl
  | cons word words ih =>
    cases words with
    | nil =>
      obtain ⟨hne, hclings, -⟩ := h
      have hread := tokensFrom_append [] [] hclings
      rw [List.append_nil, List.nil_append, tokensFrom] at hread
      rw [join, hread]
      simp [hne]
    | cons next words =>
      obtain ⟨hword, hrest⟩ := h
      rw [join_cons, String.toList_append, String.toList_append, List.append_assoc, hword.read]
      exact (tokensFrom_space _ hword.ne_nil).trans (congrArg _ (ih hrest))

/-! ### Tokens and gaps -/

/-- Whether a blank stands at a place of a text, outside of double quotes. -/
def isGap (text : List Char) (i : Nat) : Bool :=
  text[i]?.any isBlank && (text.take i).count '"' % 2 == 0

/-- The places of a text that are no gaps, in their order. -/
def keptPlaces (text : List Char) : List Nat :=
  (List.range text.length).filter fun i ↦ !isGap text i

/-- Which of some parts that stand one behind the other an index falls into, by their sizes. -/
def partAt : List Nat → Nat → Nat
  | [], _ => 0
  | size :: sizes, k => if k < size then 0 else partAt sizes (k - size) + 1

/-- The characters of a text at places. -/
def charsAt (text : List Char) (places : List Nat) : List Char := places.filterMap (text[·]?)

/-- The places that tokens take: each takes some that follow each other, and between any two of them
a place is left out. -/
structure AreSpans (spans : List (List Nat)) : Prop where
  runs : ∀ span ∈ spans, span ≠ [] ∧ span.IsChain fun i j ↦ j = i + 1
  apart : spans.Pairwise fun a b ↦ ∀ i ∈ a, ∀ j ∈ b, i + 1 < j

theorem AreSpans.nil : AreSpans [] := ⟨List.forall_mem_nil _, .nil⟩

theorem mem_keptPlaces {text : List Char} {i : Nat} :
    i ∈ keptPlaces text ↔ i < text.length ∧ isGap text i = false := by
  simp [keptPlaces]

theorem isGap_append {pre rest : List Char} {c : Char} :
    isGap (pre ++ c :: rest) pre.length = (isBlank c && !isQuotedBehind false pre) := by
  have hat : (pre ++ c :: rest)[pre.length]? = some c := by simp
  rw [isGap, hat, List.take_left, isQuotedBehind_eq_xor]
  rcases Nat.mod_two_eq_zero_or_one (pre.count '"') with heven | hodd
  · simp [heven]
  · simp [hodd]

theorem charsAt_range'_succ {text pre rest : List Char} {c : Char} {first : Nat}
    (htext : text = pre ++ c :: rest) (hfirst : first ≤ pre.length) :
    charsAt text (List.range' first (pre.length + 1 - first))
      = charsAt text (List.range' first (pre.length - first)) ++ [c] := by
  have hlast : text[first + (pre.length - first)]? = some c := by
    rw [Nat.add_sub_of_le hfirst, htext, List.getElem?_append_right (Nat.le_refl _), Nat.sub_self]
    rfl
  rw [Nat.sub_add_comm hfirst, List.range'_concat, charsAt, List.filterMap_append, Nat.one_mul]
  simp [charsAt, hlast]

theorem length_charsAt {text : List Char} {places : List Nat} (h : ∀ i ∈ places, i < text.length) :
    (charsAt text places).length = places.length := by
  rw [charsAt, List.filterMap_length_eq_length]
  exact fun i hi ↦ by simp [h i hi]

/-- A token that ends takes its places in front of those of the tokens behind it. -/
theorem AreSpans.close {text pre : List Char} {spans : List (List Nat)} {first : Nat}
    (hspans : AreSpans spans) (hpre : pre.length ≤ text.length) (hfirst : first ≤ pre.length)
    (hbehind : ∀ j ∈ spans.flatten, pre.length < j) :
    ∃ closed : List (List Nat),
      (if (charsAt text (List.range' first (pre.length - first))).isEmpty
        then spans.map (charsAt text)
        else charsAt text (List.range' first (pre.length - first)) :: spans.map (charsAt text))
        = closed.map (charsAt text) ∧
      closed.flatten = List.range' first (pre.length - first) ++ spans.flatten ∧
      AreSpans closed := by
  have hsize : (charsAt text (List.range' first (pre.length - first))).length
      = pre.length - first := by
    refine (length_charsAt fun i hi ↦ ?_).trans List.length_range'
    have := List.mem_range'_1.mp hi
    omega
  rcases Nat.eq_or_lt_of_le hfirst with heq | hlt
  · have hnil : charsAt text (List.range' first (pre.length - first)) = [] :=
      List.eq_nil_of_length_eq_zero (by omega)
    refine ⟨spans, by rw [hnil]; rfl, by simp [heq], hspans⟩
  · refine ⟨List.range' first (pre.length - first) :: spans, if_neg ?_, rfl,
      List.forall_mem_cons.mpr ⟨⟨?_, List.isChain_range' ..⟩, hspans.runs⟩,
      List.pairwise_cons.mpr ⟨fun span hspan i hi j hj ↦ ?_, hspans.apart⟩⟩
    · intro hempty
      rw [List.isEmpty_iff.mp hempty] at hsize
      exact absurd hsize.symm (by simp only [List.length_nil]; omega)
    · intro hnil
      exact absurd (List.range'_eq_nil_iff.mp hnil) (by omega)
    · have hi := List.mem_range'_1.mp hi
      have hj := hbehind j (List.mem_flatten_of_mem hspan hj)
      omega

/-- The tokens of the rest of a text take the places that are no gaps, behind those of the current
token, which started at `first`. -/
theorem exists_spans {text : List Char} (rest : List Char) {pre : List Char} {first : Nat}
    (htext : text = pre ++ rest) (hfirst : first ≤ pre.length) :
    ∃ spans, tokensFrom (isQuotedBehind false pre)
        (charsAt text (List.range' first (pre.length - first))) rest = spans.map (charsAt text) ∧
      spans.flatten = List.range' first (pre.length - first)
        ++ (List.range' pre.length rest.length).filter (fun i ↦ !isGap text i) ∧
      AreSpans spans := by
  induction rest generalizing pre first with
  | nil =>
    obtain ⟨spans, htokens, hplaces, hspans⟩ :=
      AreSpans.nil.close (by simp [htext] : pre.length ≤ text.length) hfirst
        (List.forall_mem_nil _)
    exact ⟨spans, htokens, hplaces, hspans⟩
  | cons c rest ih =>
    have hnext : text = (pre ++ [c]) ++ rest := by rw [htext, List.append_assoc]; rfl
    have hlength : (pre ++ [c]).length = pre.length + 1 := by simp
    have hquoted : isQuotedBehind false (pre ++ [c])
        = if c = '"' then !isQuotedBehind false pre else isQuotedBehind false pre := by
      rw [isQuotedBehind_append, isQuotedBehind_cons, isQuotedBehind_nil]
    have hisGap : isGap text pre.length = (isBlank c && !isQuotedBehind false pre) := by
      rw [htext, isGap_append]
    rw [List.length_cons, List.range'_succ, List.filter_cons, hisGap]
    by_cases hgap : (isBlank c && !isQuotedBehind false pre) = true
    · -- a gap ends the current token, and the next one starts behind it
      have hc : c ≠ '"' := by
        rintro rfl
        have hblank : isBlank '"' = false := by decide
        simp [hblank] at hgap
      obtain ⟨spans, htokens, hplaces, hspans⟩ := ih hnext (Nat.le_refl _)
      rw [Nat.sub_self, hquoted, if_neg hc, List.range'_zero, charsAt, List.filterMap_nil]
        at htokens
      rw [Nat.sub_self, hlength, List.range'_zero, List.nil_append] at hplaces
      obtain ⟨closed, hclosed, hflat, hspans⟩ :=
        hspans.close (by simp [htext] : pre.length ≤ text.length) hfirst fun j hj ↦ by
          rw [hplaces] at hj
          exact (List.mem_range'_1.mp (List.mem_of_mem_filter hj)).1
      refine ⟨closed, ?_, ?_, hspans⟩
      · rw [tokensFrom, if_neg hc, if_pos hgap, htokens, hclosed]
      · rw [hflat, hplaces, if_neg (by simp [hgap])]
    · -- anything else goes to the current token
      obtain ⟨spans, htokens, hplaces, hspans⟩ := ih hnext (Nat.le_trans hfirst (by simp))
      rw [hlength, charsAt_range'_succ htext hfirst, hquoted] at htokens
      rw [hlength, Nat.sub_add_comm hfirst, List.range'_concat, Nat.one_mul,
        Nat.add_sub_of_le hfirst, List.append_assoc, List.singleton_append] at hplaces
      refine ⟨spans, ?_, ?_, hspans⟩
      · rw [tokensFrom, if_neg hgap, ← htokens]
        split
        · rfl
        · rfl
      · rw [hplaces, if_pos (by simp [hgap])]

/-- Two places that stand next to each other belong to one part when no place is missing between
them. -/
theorem AreSpans.partAt_eq_iff {spans : List (List Nat)} (h : AreSpans spans) {k i j : Nat}
    (hi : spans.flatten[k]? = some i) (hj : spans.flatten[k + 1]? = some j) :
    partAt (spans.map List.length) k = partAt (spans.map List.length) (k + 1) ↔ j = i + 1 := by
  induction spans generalizing k with
  | nil => exact nomatch hi
  | cons span spans ih =>
    have htail : AreSpans spans :=
      ⟨(List.forall_mem_cons.mp h.runs).2, (List.pairwise_cons.mp h.apart).2⟩
    rw [List.flatten_cons] at hi hj
    rw [List.map_cons, partAt, partAt]
    rcases Nat.lt_trichotomy (k + 1) span.length with hlt | heq | hgt
    · rw [List.getElem?_append_left hlt] at hj
      rw [List.getElem?_append_left (by omega)] at hi
      obtain ⟨_, rfl⟩ := List.getElem?_eq_some_iff.mp hi
      obtain ⟨_, rfl⟩ := List.getElem?_eq_some_iff.mp hj
      have hchain := List.isChain_iff_getElem.mp (h.runs span List.mem_cons_self).2 k hlt
      rw [if_pos hlt, if_pos (Nat.lt_of_succ_lt hlt)]
      exact iff_of_true rfl hchain
    · rw [List.getElem?_append_left (by omega)] at hi
      rw [List.getElem?_append_right (by omega)] at hj
      obtain ⟨next, hnext, hmem⟩ := List.mem_flatten.mp (List.mem_of_getElem? hj)
      have hapart := (List.pairwise_cons.mp h.apart).1 next hnext i (List.mem_of_getElem? hi) j hmem
      rw [if_pos (by omega), if_neg (by omega)]
      exact iff_of_false (Nat.zero_ne_add_one _) (by omega)
    · rw [List.getElem?_append_right (by omega)] at hi hj
      rw [Nat.sub_add_comm (by omega)] at hj
      rw [if_neg (by omega), if_neg (by omega), Nat.sub_add_comm (by omega),
        Nat.add_right_cancel_iff]
      exact ih htail hi hj

/-- Places that are kept next to each other have none but gaps between them. -/
theorem keptPlaces_next_iff {text : List Char} {k i j : Nat}
    (hi : (keptPlaces text)[k]? = some i) (hj : (keptPlaces text)[k + 1]? = some j) :
    j = i + 1 ↔ ∀ n, i < n → n < j → isGap text n = false := by
  have hsorted : (keptPlaces text).SortedLT := (List.pairwise_lt_range.filter _).sortedLT
  obtain ⟨hk, rfl⟩ := List.getElem?_eq_some_iff.mp hi
  obtain ⟨hnext, rfl⟩ := List.getElem?_eq_some_iff.mp hj
  have hlt : (keptPlaces text)[k] < (keptPlaces text)[k + 1] :=
    hsorted.getElem_lt_getElem_iff.mpr (Nat.lt_succ_self k)
  refine ⟨fun heq n hn hbefore ↦ absurd (heq ▸ hbefore) (by omega), fun hnone ↦ ?_⟩
  by_contra hne
  -- the place behind the first one would be kept, between two indices that have none between them
  have hbetween : (keptPlaces text)[k] + 1 < (keptPlaces text)[k + 1] := by omega
  have hend := (mem_keptPlaces.mp (List.getElem_mem hnext)).1
  obtain ⟨m, hm, heq⟩ := List.getElem_of_mem (mem_keptPlaces.mpr
    ⟨Nat.lt_trans hbetween hend, hnone _ (Nat.lt_succ_self _) hbetween⟩)
  have hfirst : (keptPlaces text)[k] < (keptPlaces text)[m] := heq ▸ Nat.lt_succ_self _
  have hlast : (keptPlaces text)[m] < (keptPlaces text)[k + 1] := heq ▸ hbetween
  have hbehind := hsorted.getElem_lt_getElem_iff.mp hfirst
  have hbefore := hsorted.getElem_lt_getElem_iff.mp hlast
  omega

/-- A line is split at its gaps, which are the blanks outside of double quotes, and nowhere else:
no token is empty, together the tokens are what the gaps leave of the line, and two characters that
are left next to each other are in one token when no gap stood between them. Joined by blanks, the
tokens are read again as they were, also when a double quote is never closed. -/
theorem tokens_are_what_gaps_leave (line : String) :
    (∀ token ∈ tokens line, token ≠ "") ∧
    ((tokens line).map String.toList).flatten = charsAt line.toList (keptPlaces line.toList) ∧
    (∀ k i j, (keptPlaces line.toList)[k]? = some i → (keptPlaces line.toList)[k + 1]? = some j →
      (partAt ((tokens line).map String.length) k = partAt ((tokens line).map String.length) (k + 1)
        ↔ ∀ n, i < n → n < j → isGap line.toList n = false)) ∧
    tokens (join " " (tokens line)) = tokens line := by
  have hwords : (tokens line).map String.toList = tokensFrom false [] line.toList := by
    simp [tokens, Function.comp_def]
  have hare : AreWords (isQuotedBehind false line.toList) ((tokens line).map String.toList) :=
    hwords ▸ areWords_tokensFrom _ trivial rfl
  obtain ⟨spans, htokens, hplaces, hspans⟩ :=
    exists_spans line.toList (List.nil_append _).symm (Nat.le_refl 0)
  have hkept : spans.flatten = keptPlaces line.toList := by
    rw [hplaces, keptPlaces, List.range_eq_range']
    rfl
  have hmap : (tokens line).map String.toList = spans.map (charsAt line.toList) :=
    hwords.trans htokens
  have hinside : ∀ span ∈ spans, ∀ i ∈ span, i < line.toList.length := fun span hspan i hi ↦
    (mem_keptPlaces.mp (hkept ▸ List.mem_flatten_of_mem hspan hi)).1
  have hsizes : (tokens line).map String.length = spans.map List.length := by
    calc (tokens line).map String.length
      _ = ((tokens line).map String.toList).map List.length := by
        simp [Function.comp_def, String.length]
      _ = spans.map fun span ↦ (charsAt line.toList span).length := by rw [hmap, List.map_map]; rfl
      _ = spans.map List.length :=
        List.map_congr_left fun span hspan ↦ length_charsAt (hinside span hspan)
  refine ⟨fun token htoken hnil ↦ ?_, ?_, fun k i j hi hj ↦ ?_, ?_⟩
  · exact hare.ne_nil _ (List.mem_map_of_mem htoken) (hnil ▸ rfl)
  · rw [hmap, ← hkept]
    exact List.filterMap_flatten.symm
  · rw [hsizes, hspans.partAt_eq_iff (hkept ▸ hi) (hkept ▸ hj)]
    exact keptPlaces_next_iff hi hj
  · rw [tokens, tokensFrom_join_words hare]
    simp

/-- The blank behind an open quote is no gap: the one in front of it is, and splits the line. -/
theorem open_quote_is_split_at_its_gap :
    keptPlaces "a \"b c".toList = [0, 2, 3, 4, 5] ∧
    (partAt ((tokens "a \"b c").map String.length) 0
        = partAt ((tokens "a \"b c").map String.length) 1
      ↔ ∀ n, 0 < n → n < 2 → isGap "a \"b c".toList n = false) :=
  ⟨by decide, (tokens_are_what_gaps_leave "a \"b c").2.2.1 0 0 2 (by decide) (by decide)⟩

/-! ### Size -/

/-- What words take when each is followed by one octet. -/
def spread (words : List (List Char)) : Nat :=
  words.foldr (fun w n ↦ (octets w).length + 1 + n) 0

theorem spread_cons (word : List Char) (words : List (List Char)) :
    spread (word :: words) = (octets word).length + 1 + spread words := rfl

/-- Every token but the last one is followed by a blank, which takes an octet at least. -/
theorem spread_tokensFrom_le (quoted : Bool) (current text : List Char) :
    spread (tokensFrom quoted current text)
      ≤ (octets current).length + (octets text).length + 1 := by
  induction text generalizing quoted current with
  | nil =>
    rw [tokensFrom]
    split
    · exact Nat.zero_le _
    · exact Nat.le_refl _
  | cons c rest ih =>
    have hc : 1 ≤ (String.utf8EncodeChar c).length := by
      rw [String.length_utf8EncodeChar]
      exact c.utf8Size_pos
    have hcons : (octets (c :: rest)).length
        = (String.utf8EncodeChar c).length + (octets rest).length := by simp
    have htaken : (octets (current ++ [c])).length
        = (octets current).length + (String.utf8EncodeChar c).length := by simp
    have hnil : (octets []).length = 0 := rfl
    rw [tokensFrom]
    split
    · have := ih (!quoted) (current ++ [c])
      omega
    · split
      · have := ih quoted []
        split
        · omega
        · rw [spread_cons]
          omega
      · have := ih quoted (current ++ [c])
        omega

theorem spread_le_of_sublist {a b : List (List Char)} (h : a.Sublist b) : spread a ≤ spread b := by
  induction h with
  | slnil => exact Nat.le_refl _
  | cons word _ ih => exact Nat.le_trans ih (Nat.le_add_left ..)
  | cons_cons word _ ih => exact Nat.add_le_add_left ih _

/-- One blank between any two words. -/
theorem length_octets_join (word : String) (words : List String) :
    (octets (join " " (word :: words)).toList).length + 1
      = spread ((word :: words).map String.toList) := by
  induction words generalizing word with
  | nil => rfl
  | cons next words ih =>
    have hspace : (octets " ".toList).length = 1 := by decide
    rw [List.map_cons, spread_cons, ← ih next, join_cons, String.toList_append,
      String.toList_append, Utf8.octets_append, Utf8.octets_append, List.length_append,
      List.length_append, hspace]
    omega

end LivePatch.Text
