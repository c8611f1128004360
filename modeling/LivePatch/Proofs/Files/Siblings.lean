import LivePatch.Proofs.Files.Tree
import Mathlib.Data.List.TakeWhile

/-!
# Files side by side

A path that ends in a name leads to a file of that name in some directory. Another name in its
place, another extension and a suffix before the extension lead into the same directory, whatever
slashes and dots the path was written with. So of files that were named after one another, those
with different names lie at different locations.
-/

namespace LivePatch

namespace Path

variable {p : Path} {name : String} {init fillers : List (List Char)}

theorem segmentsFrom_of_not_mem {cs : List Char} (h : '/' ∉ cs) (current : List Char) :
    segmentsFrom current cs = [current ++ cs] := by
  induction cs generalizing current with
  | nil => rw [segmentsFrom, List.append_nil]
  | cons c cs ih =>
    obtain ⟨hc, hcs⟩ := List.ne_and_not_mem_of_not_mem_cons h
    rw [segmentsFrom, ih hcs, List.append_assoc, List.singleton_append]
    exact hc.symm

theorem segmentsFrom_append_slash (current cs more : List Char) :
    segmentsFrom current (cs ++ '/' :: more) = segmentsFrom current cs ++ segmentsFrom [] more := by
  induction cs generalizing current with
  | nil => rfl
  | cons c cs ih =>
    by_cases hc : c = '/'
    · subst hc
      exact congrArg (current :: ·) (ih [])
    · rw [List.cons_append, segmentsFrom, segmentsFrom]
      · exact ih (current ++ [c])
      · exact hc
      · exact hc

/-- There is no slash between slashes. -/
theorem slash_notMem_of_mem_segmentsFrom {current cs s : List Char} (hcurrent : '/' ∉ current)
    (h : s ∈ segmentsFrom current cs) : '/' ∉ s := by
  induction cs generalizing current with
  | nil => exact List.mem_singleton.mp h ▸ hcurrent
  | cons c cs ih =>
    by_cases hc : c = '/'
    · subst hc
      rcases List.mem_cons.mp h with rfl | h
      · exact hcurrent
      · exact ih List.not_mem_nil h
    · rw [segmentsFrom] at h
      · refine ih (fun hmem ↦ ?_) h
        rcases List.mem_append.mp hmem with hmem | hmem
        · exact hcurrent hmem
        · exact hc (List.mem_singleton.mp hmem).symm
      · exact hc

theorem slash_notMem_of_mem_segments {s : List Char} (h : s ∈ p.segments) : '/' ∉ s :=
  slash_notMem_of_mem_segmentsFrom List.not_mem_nil h

/-- Texts that were joined by slashes are the texts between slashes. -/
theorem segmentsFrom_intercalate {ss : List (List Char)} (hne : ss ≠ [])
    (h : ∀ s ∈ ss, '/' ∉ s) : segmentsFrom [] (['/'].intercalate ss) = ss := by
  induction ss with
  | nil => exact absurd rfl hne
  | cons s ss ih =>
    have hs : '/' ∉ s := h s List.mem_cons_self
    cases ss with
    | nil => simpa using segmentsFrom_of_not_mem hs []
    | cons t ss =>
      have hmore := ih (List.cons_ne_nil _ _) fun s hs ↦ h s (List.mem_cons_of_mem _ hs)
      rw [List.intercalate_cons_cons, List.append_assoc, List.singleton_append,
        segmentsFrom_append_slash, segmentsFrom_of_not_mem hs, List.nil_append, hmore]
      rfl

theorem segments_ofSegments {ss : List (List Char)} (hne : ss ≠ []) (hroot : ss ≠ [[]])
    (h : ∀ s ∈ ss, '/' ∉ s) : (ofSegments ss).segments = ss := by
  unfold segments ofSegments
  split
  · exact absurd rfl hroot
  · rw [String.toList_ofList, segmentsFrom_intercalate hne h]

/-- A text that can be the name of a file. -/
structure IsFileName (name : String) : Prop where
  slash : '/' ∉ name.toList
  isFiller : isFiller name.toList = false
  up : name.toList ≠ ['.', '.']

theorem IsFileName.ne_nil (h : IsFileName name) : name.toList ≠ [] := by
  intro heq
  have := h.isFiller
  rw [heq] at this
  cases this

/-- A name of more than two characters. -/
theorem isFileName_of_length (hslash : '/' ∉ name.toList) (h : 2 < name.toList.length) :
    IsFileName name := by
  refine ⟨hslash, Bool.eq_false_iff.mpr fun hfiller ↦ ?_, fun heq ↦ ?_⟩
  · rw [isFiller, Bool.or_eq_true, beq_iff_eq, beq_iff_eq] at hfiller
    rcases hfiller with heq | heq <;> simp [heq] at h
  · simp [heq] at h

theorem stepOf_eq_name_iff {s : List Char} :
    stepOf s = some (.name name) ↔
      isFiller s = false ∧ s ≠ ['.', '.'] ∧ s = name.toList := by
  unfold stepOf
  cases hfiller : isFiller s with
  | true => simp
  | false =>
    by_cases hup : s = ['.', '.']
    · simp [hup]
    · rw [if_neg Bool.false_ne_true, if_neg hup, Option.some.injEq, Component.name.injEq,
        ← String.toList_inj, String.toList_ofList]
      simp [hup]

theorem stepOf_of_isFiller {s : List Char} (h : isFiller s = true) : stepOf s = none := by
  unfold stepOf
  rw [if_pos h]

/-- Segments up to a name, and fillers behind it, lose the fillers. -/
theorem trimmed_append {s : List Char} (hs : isFiller s = false)
    (hfillers : ∀ f ∈ fillers, isFiller f = true) :
    trimmed (init ++ s :: fillers) = init ++ [s] := by
  have hdrop : ∀ more : List (List Char), (fillers.reverse ++ s :: more).dropWhile isFiller
      = s :: more := by
    intro more
    rw [List.dropWhile_append_of_pos fun f hf ↦ hfillers f (List.mem_reverse.mp hf),
      List.dropWhile_cons_of_neg (by simp [hs])]
  cases init with
  | nil =>
    have hall : fillers.reverse.dropWhile isFiller = [] :=
      List.dropWhile_eq_nil_iff.mpr fun f hf ↦ hfillers f (List.mem_reverse.mp hf)
    simp [trimmed, hall]
  | cons t init =>
    simp only [List.cons_append, trimmed]
    rw [List.reverse_append, List.reverse_cons, List.append_assoc, List.singleton_append, hdrop]
    simp

/-- What is trimmed are fillers behind the first segment. -/
theorem exists_trimmed (s : List Char) (rest : List (List Char)) : ∃ kept fillers,
    rest = kept ++ fillers ∧ trimmed (s :: rest) = s :: kept ∧
      (∀ f ∈ fillers, isFiller f = true) ∧ ∀ last ∈ kept.getLast?, isFiller last = false := by
  refine ⟨(rest.reverse.dropWhile isFiller).reverse, (rest.reverse.takeWhile isFiller).reverse,
    ?_, rfl, fun f hf ↦ List.mem_takeWhile_imp (List.mem_reverse.mp hf), fun last hlast ↦ ?_⟩
  · rw [← List.reverse_append, List.takeWhile_append_dropWhile, List.reverse_reverse]
  · rw [List.getLast?_reverse] at hlast
    have := List.head?_dropWhile_not isFiller rest.reverse
    rw [Option.mem_def.mp hlast] at this
    simpa using this

/-- A path that ends in a name has the name as a segment, and nothing but fillers behind it. -/
theorem exists_segments (h : p.fileName? = some name) : ∃ init fillers,
    p.segments = init ++ name.toList :: fillers ∧ (∀ f ∈ fillers, isFiller f = true) ∧
      IsFileName name := by
  have hlast : p.components.getLast? = some (.name name) := by
    unfold fileName? at h
    split at h
    · cases h
      assumption
    · cases h
  have hslash : ∀ s ∈ p.segments, '/' ∉ s := fun s hs ↦
    slash_notMem_of_mem_segmentsFrom List.not_mem_nil hs
  have hname : ∀ {s}, s ∈ p.segments → stepOf s = some (.name name) →
      s = name.toList ∧ IsFileName name := by
    intro s hs hstep
    obtain ⟨hfiller, hup, rfl⟩ := stepOf_eq_name_iff.mp hstep
    exact ⟨rfl, hslash _ hs, hfiller, hup⟩
  unfold components at hlast
  cases hsegments : p.segments with
  | nil =>
    rw [hsegments] at hlast
    cases hlast
  | cons s rest =>
    rw [hsegments] at hlast hname
    dsimp only at hlast
    obtain ⟨kept, fillers, rfl, -, hfillers, hend⟩ := exists_trimmed s rest
    have hnone : fillers.filterMap stepOf = [] :=
      List.filterMap_eq_nil_iff.mpr fun f hf ↦ stepOf_of_isFiller (hfillers f hf)
    rw [List.filterMap_append, hnone, List.append_nil] at hlast
    rcases List.eq_nil_or_concat kept with rfl | ⟨kept, last, rfl⟩
    · -- the name is the first segment
      have hfirst : stepOf s = some (.name name) := by
        rw [List.filterMap_nil, List.append_nil] at hlast
        unfold firstStep at hlast
        split at hlast
        · split at hlast <;> cases hlast
        · split at hlast
          · cases hlast
          · cases hstep : stepOf s with
            | none =>
              rw [hstep] at hlast
              cases hlast
            | some step =>
              rw [hstep] at hlast
              exact hlast
      obtain ⟨rfl, hfile⟩ := hname List.mem_cons_self hfirst
      exact ⟨[], fillers, rfl, hfillers, hfile⟩
    · rw [List.concat_eq_append] at hlast hend
      have hlastStep : stepOf last = some (.name name) := by
        have hfiller : isFiller last = false := hend last (by simp)
        cases hstep : stepOf last with
        | none =>
          unfold stepOf at hstep
          rw [hfiller] at hstep
          split at hstep
          · contradiction
          · split at hstep <;> cases hstep
        | some step =>
          rw [List.filterMap_append, List.filterMap_cons, hstep, List.filterMap_nil,
            ← List.append_assoc, List.getLast?_concat] at hlast
          exact hlast
      obtain ⟨rfl, hfile⟩ := hname (by simp) hlastStep
      exact ⟨s :: kept, fillers, by simp, hfillers, hfile⟩

/-- Where segments in front of a name lead. -/
def directory (init : List (List Char)) (home : Location) : Location :=
  init.foldl walk (if init.head? = some [] then [] else home)

/-- A path leads to a file of a name in some directory. -/
structure Names (p : Path) (dir : Location → Location) (name : String) : Prop where
  fileName? : p.fileName? = some name
  location : ∀ home, p.location home = dir home ++ [name]

theorem segmentsFrom_slash_iff (cs : List Char) :
    cs.head? = some '/' ↔ ∃ s rest, segmentsFrom [] cs = [] :: s :: rest := by
  cases cs with
  | nil => simp [segmentsFrom]
  | cons c cs =>
    by_cases hc : c = '/'
    · subst hc
      obtain ⟨more, rest, h⟩ := segmentsFrom_eq_cons [] cs
      exact iff_of_true rfl ⟨_, rest, congrArg ([] :: ·) h⟩
    · refine iff_of_false (by simpa using hc) ?_
      rintro ⟨s, rest, h⟩
      rw [segmentsFrom] at h
      · obtain ⟨more, rest', h'⟩ := segmentsFrom_eq_cons ([] ++ [c]) cs
        rw [h'] at h
        simp at h
      · exact hc

/-- A path whose last segment but fillers is a name leads to a file of that name. -/
theorem names_of_segments (h : p.segments = init ++ name.toList :: fillers)
    (hfillers : ∀ f ∈ fillers, isFiller f = true) (hname : IsFileName name) :
    p.Names (directory init) name := by
  have hstep : stepOf name.toList = some (.name name) :=
    stepOf_eq_name_iff.mpr ⟨hname.isFiller, hname.up, rfl⟩
  have hnone : fillers.filterMap stepOf = [] :=
    List.filterMap_eq_nil_iff.mpr fun f hf ↦ stepOf_of_isFiller (hfillers f hf)
  have hwalk : ∀ l, walk l name.toList = l ++ [name] := by
    intro l
    rw [walk_eq, hstep]
    rfl
  constructor
  · unfold Path.fileName? components
    rw [h]
    cases init with
    | nil =>
      have hdot : name.toList ≠ ['.'] := fun heq ↦ by
        have := hname.isFiller
        rw [heq] at this
        cases this
      have hfirst : firstStep fillers.isEmpty name.toList = some (.name name) := by
        rw [firstStep, if_neg hname.ne_nil, if_neg hdot, hstep]
      dsimp only [List.nil_append]
      rw [hfirst, hnone]
      rfl
    | cons s init =>
      dsimp only [List.cons_append]
      rw [List.filterMap_append, List.filterMap_cons, hstep, hnone, ← List.append_assoc,
        List.getLast?_concat]
  · intro home
    have hstart : p.text.toList.head? = some '/' ↔ init.head? = some [] := by
      rw [segmentsFrom_slash_iff, show segmentsFrom [] p.text.toList = _ from h]
      cases init with
      | nil =>
        refine iff_of_false ?_ (by simp)
        rintro ⟨s, rest, heq⟩
        exact hname.ne_nil (List.cons.inj heq).1
      | cons s init => cases init <;> simp
    unfold Path.location directory
    rw [h, List.foldl_append, List.foldl_cons, hwalk, foldl_walk, hnone]
    simp only [hstart]
    rfl

theorem exists_names (h : p.fileName? = some name) : ∃ dir, p.Names dir name := by
  obtain ⟨init, fillers, hsegments, hfillers, hname⟩ := exists_segments h
  exact ⟨directory init, names_of_segments hsegments hfillers hname⟩

/-- Fillers in front of a name do not lead anywhere. -/
theorem directory_trimmed (init : List (List Char)) (home : Location) :
    directory (trimmed init) home = directory init home := by
  cases init with
  | nil => rfl
  | cons s rest =>
    obtain ⟨kept, fillers, rfl, htrimmed, hfillers, -⟩ := exists_trimmed s rest
    have hnone : fillers.filterMap stepOf = [] :=
      List.filterMap_eq_nil_iff.mpr fun f hf ↦ stepOf_of_isFiller (hfillers f hf)
    rw [htrimmed, ← List.cons_append]
    unfold directory
    rw [List.foldl_append, foldl_walk _ fillers, hnone]
    rfl

/-- A text behind a path is its last segment. -/
theorem segments_join (hname : IsFileName name) {last : List Char}
    (h : p.segments = init ++ [last]) : (p.join name).segments
      = (if last = [] then init else init ++ [last]) ++ [name.toList] := by
  have hhead : name.toList.head? ≠ some '/' := fun h ↦ hname.slash (List.mem_of_head? h)
  have hsingle : segmentsFrom [] name.toList = [name.toList] :=
    segmentsFrom_of_not_mem hname.slash []
  unfold segments at h
  unfold join
  rw [if_neg hhead]
  rcases List.eq_nil_or_concat p.text.toList with hnil | ⟨cs, c, hcs⟩
  · -- an empty path
    rw [hnil] at h ⊢
    obtain ⟨rfl, hlast⟩ := List.append_inj' (show [] ++ [[]] = init ++ [last] from h) rfl
    cases hlast
    exact hsingle
  · rw [List.concat_eq_append] at hcs
    rw [hcs] at h ⊢
    rw [List.getLast?_concat]
    by_cases hc : c = '/'
    · -- a path that ends in a slash
      subst hc
      rw [segmentsFrom_append_slash] at h
      obtain ⟨rfl, hlast⟩ := List.append_inj' h rfl
      cases hlast
      rw [if_pos rfl]
      change segmentsFrom [] (p.text ++ name).toList = _
      rw [String.toList_append, hcs, List.append_assoc, List.singleton_append,
        segmentsFrom_append_slash, hsingle]
    · obtain ⟨init', last', -, hsegments⟩ :=
        segmentsFrom_append (show '/' ∉ [c] by simpa using Ne.symm hc) [] cs
      obtain ⟨rfl, hlast⟩ := List.append_inj' (h.symm.trans hsegments) rfl
      cases hlast
      rw [if_neg (by simp)]
      split
      · contradiction
      · next heq => exact absurd (Option.some.inj heq) hc
      · unfold segments
        have htext : (p.text ++ "/" ++ name).toList = (cs ++ [c]) ++ '/' :: name.toList := by
          simp [hcs]
        rw [htext, segmentsFrom_append_slash, hsingle, h]

/-- The directory that segments lead to takes a name behind it. -/
theorem segments_join_ofSegments (hname : IsFileName name) {s : List Char}
    {rest : List (List Char)} (hslash : ∀ t ∈ s :: rest, '/' ∉ t)
    (hlast : ∀ last ∈ rest.getLast?, isFiller last = false) :
    ((ofSegments (s :: rest)).join name).segments = s :: rest ++ [name.toList] := by
  by_cases hroot : s :: rest = [[]]
  · rw [hroot]
    exact segments_join hname (show (⟨"/"⟩ : Path).segments = [[]] ++ [[]] from rfl)
  · obtain ⟨init, last, heq⟩ : ∃ init last, s :: rest = init ++ [last] :=
      ⟨_, _, (List.dropLast_concat_getLast (List.cons_ne_nil s rest)).symm⟩
    have hne : last ≠ [] := by
      rintro rfl
      rcases List.eq_nil_or_concat rest with rfl | ⟨kept, last, rfl⟩
      · obtain ⟨-, hs⟩ := List.append_inj' (show [] ++ [s] = init ++ [[]] from heq) rfl
        exact hroot hs
      · rw [List.concat_eq_append, ← List.cons_append] at heq
        obtain ⟨-, hend⟩ := List.append_inj' heq rfl
        have := hlast last (by simp)
        rw [(List.cons.inj hend).1] at this
        cases this
    rw [segments_join hname ((segments_ofSegments (List.cons_ne_nil _ _) hroot hslash).trans heq),
      if_neg hne, heq]

/-- A lone name lies in the working directory. -/
theorem parent?_of_name (h : p.segments = name.toList :: fillers)
    (hfillers : ∀ f ∈ fillers, isFiller f = true) (hname : IsFileName name) :
    p.parent? = some ⟨""⟩ := by
  have hfile : p.fileName? = some name :=
    (names_of_segments (show _ = [] ++ name.toList :: fillers from h) hfillers hname).fileName?
  have hsteps : ¬(p.components = [.root] ∨ p.components = []) := by
    unfold fileName? at hfile
    rintro (heq | heq) <;> rw [heq] at hfile <;> cases hfile
  unfold parent?
  rw [h, show name.toList :: fillers = [] ++ name.toList :: fillers from rfl,
    trimmed_append hname.isFiller hfillers]
  dsimp only [List.nil_append]
  rw [if_neg (by simpa using hsteps), if_neg hname.ne_nil]

/-- A name behind other segments lies where they lead. -/
theorem parent?_of_cons {s : List Char} {rest : List (List Char)}
    (h : p.segments = s :: rest ++ name.toList :: fillers)
    (hfillers : ∀ f ∈ fillers, isFiller f = true) (hname : IsFileName name) :
    p.parent? = some (ofSegments (trimmed (s :: rest))) := by
  obtain ⟨kept, -, -, htrimmed, -, -⟩ := exists_trimmed s rest
  have hdrop : (s :: rest ++ [name.toList]).dropLast = s :: rest := List.dropLast_concat
  unfold parent?
  rw [h, trimmed_append hname.isFiller hfillers]
  split
  · next heq => cases heq
  · next heq => cases rest <;> cases heq
  · rw [hdrop, htrimmed]

namespace Names

variable {dir : Location → Location} {own : String}

/-- Another name in the place of a file's own leads into the same directory. -/
theorem withFileName (h : p.Names dir own) (hname : IsFileName name) :
    (p.withFileName name).Names dir name := by
  obtain ⟨init, fillers, hsegments, hfillers, hown⟩ := exists_segments h.fileName?
  have hslash : ∀ s ∈ init, '/' ∉ s := fun s hs ↦
    slash_notMem_of_mem_segments (by rw [hsegments]; exact List.mem_append_left _ hs)
  have hjoined : (p.withFileName name).segments = trimmed init ++ [name.toList] := by
    unfold Path.withFileName
    rw [h.fileName?, if_pos Option.isSome_some]
    cases init with
    | nil =>
      rw [parent?_of_name hsegments hfillers hown, Option.getD_some]
      exact segments_join hname (show (⟨""⟩ : Path).segments = [] ++ [[]] from rfl)
    | cons s rest =>
      rw [parent?_of_cons hsegments hfillers hown, Option.getD_some]
      obtain ⟨kept, fillers, rfl, htrimmed, -, hlast⟩ := exists_trimmed s rest
      rw [htrimmed]
      refine segments_join_ofSegments hname (fun t ht ↦ hslash t ?_) hlast
      rw [← List.cons_append]
      exact List.mem_append_left _ ht
  have hnames := names_of_segments hjoined (fun f hf ↦ absurd hf List.not_mem_nil) hname
  have hdir : ∀ home, directory (trimmed init) home = dir home := by
    intro home
    have hown := (names_of_segments hsegments hfillers hown).location home
    rw [h.location] at hown
    exact (directory_trimmed init home).trans (List.append_inj' hown rfl).1.symm
  exact ⟨hnames.fileName?, fun home ↦ (hnames.location home).trans (by rw [hdir])⟩

/-- Another extension leads into the same directory. -/
theorem withExtension (h : p.Names dir own) {stem extension : String}
    (hstem : (splitName own).1 = stem) (hdot : stem ≠ ".")
    (hname : IsFileName (stem ++ "." ++ extension)) :
    (p.withExtension extension).Names dir (stem ++ "." ++ extension) := by
  obtain ⟨init, fillers, hsegments, hfillers, hown⟩ := exists_segments h.fileName?
  have hslash : ∀ s ∈ init ++ [(stem ++ "." ++ extension).toList], '/' ∉ s := by
    intro s hs
    rcases List.mem_append.mp hs with hs | hs
    · exact slash_notMem_of_mem_segments (by rw [hsegments]; exact List.mem_append_left _ hs)
    · exact List.mem_singleton.mp hs ▸ hname.slash
  have heq : p.withExtension extension
      = ofSegments (init ++ [(stem ++ "." ++ extension).toList]) := by
    unfold Path.withExtension Path.stem?
    rw [h.fileName?, Option.map_some, hstem, hsegments, trimmed_append hown.isFiller hfillers]
    dsimp only
    split
    · next hnil => simp at hnil
    · rw [List.dropLast_concat, beq_eq_false_iff_ne.mpr hdot, Bool.false_and,
        if_neg Bool.false_ne_true]
  have hroot : init ++ [(stem ++ "." ++ extension).toList] ≠ [[]] := by
    intro hroot
    obtain ⟨-, hlast⟩ := List.append_inj' (show _ = [] ++ [[]] from hroot) rfl
    exact hname.ne_nil (List.cons.inj hlast).1
  have hnames := names_of_segments (heq ▸ segments_ofSegments (by simp) hroot hslash)
    (fun f hf ↦ absurd hf List.not_mem_nil) hname
  refine ⟨hnames.fileName?, fun home ↦ (hnames.location home).trans ?_⟩
  have hown := (names_of_segments hsegments hfillers hown).location home
  rw [h.location] at hown
  rw [(List.append_inj' hown rfl).1]

/-- A suffix before the extension leads into the same directory. -/
theorem insertBeforeExtension (h : p.Names dir own) {stem extension suffix : String}
    (hsplit : splitName own = (stem, some extension))
    (hname : IsFileName (stem ++ suffix ++ "." ++ extension)) :
    (p.insertBeforeExtension suffix).Names dir (stem ++ suffix ++ "." ++ extension) := by
  unfold Path.insertBeforeExtension Path.stem? Path.extension?
  rw [h.fileName?, Option.map_some, Option.bind_some, hsplit]
  exact h.withFileName hname

end Names

/-- Some directory takes every name in the place of a file's own, or behind a path that ends in
none. -/
theorem exists_directory (p : Path) :
    ∃ dir, ∀ name, IsFileName name → (p.withFileName name).Names dir name := by
  cases hown : p.fileName? with
  | some own =>
    obtain ⟨dir, hdir⟩ := exists_names hown
    exact ⟨dir, fun name hname ↦ hdir.withFileName hname⟩
  | none =>
    obtain ⟨init, last, hsegments, -⟩ :=
      segmentsFrom_append (show '/' ∉ [] from List.not_mem_nil) [] p.text.toList
    refine ⟨directory (if last = [] then init else init ++ [last]), fun name hname ↦ ?_⟩
    unfold withFileName
    rw [hown, if_neg (by simp)]
    exact names_of_segments (segments_join hname hsegments)
      (fun f hf ↦ absurd hf List.not_mem_nil) hname

/-- Two paths that lead to different locations, whatever the working directory is. -/
def IsApart (p q : Path) : Prop := ∀ home, p.location home ≠ q.location home

/-- Files with different names in one directory are apart. -/
theorem Names.isApart {q : Path} {dir : Location → Location} {own other : String}
    (hp : p.Names dir own) (hq : q.Names dir other) (h : own ≠ other) : p.IsApart q := by
  intro home heq
  rw [hp.location, hq.location] at heq
  exact h (List.cons.inj (List.append_inj' heq rfl).2).1

end Path
end LivePatch
