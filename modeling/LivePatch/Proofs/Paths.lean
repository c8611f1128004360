import LivePatch.Paths.Map
import Mathlib.Data.List.Induction
import Mathlib.Data.List.Perm.Basic

/-!
# Maps and sets of paths

Paths are ordered by what they name, so a map has one entry for each file at most, and writing to a
file leaves the entries of all others alone.
-/

namespace LivePatch

namespace Component

instance : Std.TransCmp compare where
  eq_swap := by
    rintro (_ | _ | _ | a) (_ | _ | _ | b) <;>
      first
      | rfl
      | exact Std.OrientedOrd.eq_swap (a := a) (b := b)
  isLE_trans := by
    rintro (_ | _ | _ | a) (_ | _ | _ | b) (_ | _ | _ | c) hab hbc <;>
      first
      | rfl
      | exact Bool.noConfusion (show false = true from hab)
      | exact Bool.noConfusion (show false = true from hbc)
      | exact Std.TransOrd.isLE_trans (a := a) (b := b) (c := c) hab hbc

instance : Std.LawfulEqCmp compare where
  eq_of_compare := by
    rintro (_ | _ | _ | a) (_ | _ | _ | b) h <;> try first | rfl | cases h
    exact congrArg name (Std.LawfulEqOrd.eq_of_compare (a := a) (b := b) h)

end Component

namespace Path

variable {p q r : Path}

/-- Steps are compared one after another. -/
theorem compareSteps_eq : compareSteps = List.compareLex Component.compare := by
  funext as bs
  induction as generalizing bs with
  | nil => cases bs <;> simp [compareSteps, List.compareLex]
  | cons a as ih =>
    cases bs with
    | nil => simp [compareSteps, List.compareLex]
    | cons b bs =>
      rw [compareSteps, List.compareLex_cons_cons, ih bs]
      cases a.compare b <;> rfl

theorem same_iff : p.same q = true ↔ p.components = q.components := by simp [same]

theorem same_trans (h : p.same q = true) (h' : q.same r = true) : p.same r = true :=
  same_iff.mpr ((same_iff.mp h).trans (same_iff.mp h'))

/-- What names the same file as one of two paths that name the same names it as the other does. -/
theorem same_congr_left (h : p.same q = true) : p.same r = q.same r := by
  simp only [same, same_iff.mp h]

theorem same_congr_right (h : p.same q = true) : r.same p = r.same q := by
  simp only [same, same_iff.mp h]

instance : Std.TransCmp compare := by
  have h : Path.compare = fun p q ↦ List.compareLex Component.compare p.components q.components := by
    funext p q
    rw [compare, compareSteps_eq]
  rw [h]
  exact {
    eq_swap := Std.OrientedCmp.eq_swap
    isLE_trans := Std.TransCmp.isLE_trans }

theorem compare_eq_iff : p.compare q = .eq ↔ p.same q = true := by
  rw [compare, compareSteps_eq, same_iff]
  exact Std.LawfulEqCmp.compare_eq_iff_eq

/-- Paths in order name different files. -/
theorem not_same_of_lt (h : p.compare q = .lt) : p.same q = false := by
  by_contra hsame
  rw [Bool.not_eq_false, ← compare_eq_iff, h] at hsame
  cases hsame

theorem not_same_of_gt (h : p.compare q = .gt) : p.same q = false := by
  by_contra hsame
  rw [Bool.not_eq_false, ← compare_eq_iff, h] at hsame
  cases hsame

end Path

namespace PathMap

variable {α : Type} {m : PathMap α} {p q : Path}

/-- The entries are in the order of their paths. -/
def IsOrdered (m : PathMap α) : Prop := m.entries.Pairwise fun a b ↦ a.1.compare b.1 = .lt

theorem isOrdered_empty : (∅ : PathMap α).IsOrdered := List.Pairwise.nil

theorem find?_congr (m : PathMap α) (h : p.same q = true) : m.find? p = m.find? q := by
  simp only [find?, Path.same_congr_right h]

theorem contains_congr (m : PathMap α) (h : p.same q = true) : m.contains p = m.contains q := by
  simp only [contains, Path.same_congr_right h]

/-! ### Writing -/

theorem find?_place (p : Path) (a : α) (entries : List (Path × α)) (q : Path) :
    (place p a entries).find? (fun e ↦ e.1.same q) =
      if p.same q then (place p a entries).find? fun e ↦ e.1.same p
      else entries.find? fun e ↦ e.1.same q := by
  split
  · next h => simp only [Path.same_congr_right h]
  · next h =>
    induction entries with
    | nil => simp [place, h]
    | cons e entries ih =>
      rw [place]
      split
      · simp [h]
      · next heq =>
        rw [Path.same_congr_left (Path.compare_eq_iff.mp heq)] at h
        simp [h]
      · rw [List.find?_cons, List.find?_cons, ih]

theorem find?_place_self (p : Path) (a : α) (entries : List (Path × α)) :
    ((place p a entries).find? fun e ↦ e.1.same p).map Prod.snd = some a := by
  induction entries with
  | nil => simp [place, Path.same_refl]
  | cons e entries ih =>
    rw [place]
    split
    · simp [Path.same_refl]
    · next h =>
      have := Path.compare_eq_iff.mp h
      rw [Path.same_comm] at this
      simp [this]
    · next h =>
      have := Path.not_same_of_gt h
      rw [Path.same_comm] at this
      simp [this, ih]

/-- What is filed under a path was written there last; other paths keep what they have. -/
theorem find?_insert (m : PathMap α) (p : Path) (a : α) (q : Path) :
    (m.insert p a).find? q = if p.same q then some a else m.find? q := by
  rw [find?, insert, find?_place]
  split
  · exact find?_place_self p a m.entries
  · rfl

/-- What is filed under a path when several values were written is the last one. -/
theorem exists_find?_foldl_insert {entries : List (Path × α)} {q : Path}
    (h : ∃ e ∈ entries, e.1.same q = true) (m : PathMap α) :
    ∃ e ∈ entries, e.1.same q = true ∧
      (entries.foldl (fun m e ↦ m.insert e.1 e.2) m).find? q = some e.2 := by
  induction entries using List.reverseRecOn with
  | nil => simp at h
  | append_singleton entries e ih =>
    rw [List.foldl_append, List.foldl_cons, List.foldl_nil, find?_insert]
    split
    · next hsame => exact ⟨e, List.mem_append_right _ (List.mem_singleton_self _), hsame, rfl⟩
    · next hother =>
      obtain ⟨e', he', hsame⟩ := h
      rcases List.mem_append.mp he' with he' | he'
      · obtain ⟨found, hfound, hfoundSame, heq⟩ := ih ⟨e', he', hsame⟩
        exact ⟨found, List.mem_append_left _ hfound, hfoundSame, heq⟩
      · cases List.mem_singleton.mp he'
        exact (hother hsame).elim

theorem contains_insert (m : PathMap α) (p : Path) (a : α) (q : Path) :
    (m.insert p a).contains q = (p.same q || m.contains q) := by
  rw [← isSome_find?, ← isSome_find?, find?_insert]
  cases p.same q <;> rfl

theorem mem_place {p : Path} {a : α} {entries : List (Path × α)} {e : Path × α}
    (h : e ∈ place p a entries) : e.1.same p = true ∨ e ∈ entries := by
  induction entries with
  | nil => exact .inl (by rw [List.mem_singleton.mp h]; exact Path.same_refl p)
  | cons e' entries ih =>
    rw [place] at h
    split at h
    · rcases List.mem_cons.mp h with rfl | h
      · exact .inl (Path.same_refl p)
      · exact .inr h
    · next heq =>
      rcases List.mem_cons.mp h with rfl | h
      · exact .inl (by rw [Path.same_comm]; exact Path.compare_eq_iff.mp heq)
      · exact .inr (List.mem_cons_of_mem _ h)
    · rcases List.mem_cons.mp h with rfl | h
      · exact .inr (List.mem_cons_self ..)
      · exact (ih h).imp_right (List.mem_cons_of_mem _)

theorem compare_of_same (h : p.same q = true) (r : Path) : r.compare p = r.compare q := by
  simp only [Path.compare, Path.same_iff.mp h]

/-- Writing keeps the entries in order. -/
theorem IsOrdered.insert (h : m.IsOrdered) (p : Path) (a : α) : (m.insert p a).IsOrdered := by
  obtain ⟨entries⟩ := m
  change (place p a entries).Pairwise _
  induction entries with
  | nil => exact List.pairwise_singleton _ _
  | cons e entries ih =>
    obtain ⟨hhead, htail⟩ := List.pairwise_cons.mp h
    rw [place]
    split
    · next hlt =>
      refine List.pairwise_cons.mpr ⟨fun e' he' ↦ ?_, h⟩
      rcases List.mem_cons.mp he' with rfl | he'
      · exact hlt
      · exact Std.TransCmp.lt_trans hlt (hhead e' he')
    · exact List.pairwise_cons.mpr ⟨hhead, htail⟩
    · next hgt =>
      refine List.pairwise_cons.mpr ⟨fun e' he' ↦ ?_, ih htail⟩
      rcases mem_place he' with hsame | he'
      · rw [compare_of_same hsame]
        exact Std.OrientedCmp.lt_of_gt hgt
      · exact hhead e' he'

theorem IsOrdered.erase (h : m.IsOrdered) (p : Path) : (m.erase p).IsOrdered :=
  List.Pairwise.filter _ h

theorem contains_erase (m : PathMap α) (p q : Path) :
    (m.erase p).contains q = (!p.same q && m.contains q) := by
  rw [Bool.eq_iff_iff]
  simp only [contains, erase, List.any_filter, List.any_eq_true, Bool.and_eq_true,
    Bool.not_eq_eq_eq_not, Bool.not_true]
  constructor
  · rintro ⟨e, he, hne, hsame⟩
    rw [Path.same_congr_left hsame, Path.same_comm] at hne
    exact ⟨hne, e, he, hsame⟩
  · rintro ⟨hne, e, he, hsame⟩
    rw [Path.same_comm, ← Path.same_congr_left hsame] at hne
    exact ⟨e, he, hne, hsame⟩

/-- Changing what is filed under one path. -/
theorem find?_modify (m : PathMap α) (p : Path) (f : α → α) (q : Path) :
    (m.modify p f).find? q = if p.same q then (m.find? q).map f else m.find? q := by
  obtain ⟨entries⟩ := m
  simp only [find?, modify]
  induction entries with
  | nil => simp
  | cons e entries ih =>
    rw [List.map_cons, List.find?_cons, List.find?_cons]
    have hpath : (if e.1.same p then (e.1, f e.2) else e).1 = e.1 := by split <;> rfl
    rw [hpath]
    cases hsame : e.1.same q with
    | false => exact ih
    | true =>
      rw [Path.same_congr_left hsame, Path.same_comm q p]
      cases p.same q <;> rfl

theorem contains_modify (m : PathMap α) (p : Path) (f : α → α) (q : Path) :
    (m.modify p f).contains q = m.contains q := by
  rw [← isSome_find?, ← isSome_find?, find?_modify]
  split
  · rw [Option.isSome_map]
  · rfl

/-- Adding to what is filed under a path adds to what is filed under all of them. -/
theorem IsOrdered.perm_insert {m : PathMap (List α)} (h : m.IsOrdered) (p : Path) (a : α) :
    ((m.insert p ((m.find? p).getD [] ++ [a])).entries.flatMap Prod.snd).Perm
      (a :: m.entries.flatMap Prod.snd) := by
  obtain ⟨entries⟩ := m
  change ((place p _ entries).flatMap Prod.snd).Perm (a :: entries.flatMap Prod.snd)
  induction entries with
  | nil => exact List.Perm.refl _
  | cons e entries ih =>
    obtain ⟨hhead, htail⟩ := List.pairwise_cons.mp h
    rw [place]
    split
    · next hlt =>
      have hnone : (⟨e :: entries⟩ : PathMap (List α)).find? p = none := by
        rw [find?, Option.map_eq_none_iff, List.find?_eq_none]
        intro e' he'
        rw [Path.same_comm, Path.not_same_of_lt, Bool.not_eq_true]
        rcases List.mem_cons.mp he' with rfl | he'
        · exact hlt
        · exact Std.TransCmp.lt_trans hlt (hhead e' he')
      rw [hnone]
      exact List.Perm.refl _
    · next heq =>
      have hsome : (⟨e :: entries⟩ : PathMap (List α)).find? p = some e.2 := by
        rw [find?, List.find?_cons, Path.same_comm, Path.compare_eq_iff.mp heq]
        rfl
      rw [hsome]
      simp only [Option.getD_some, List.flatMap_cons, List.append_assoc, List.singleton_append]
      exact List.perm_middle
    · next hgt =>
      have hskip : (⟨e :: entries⟩ : PathMap (List α)).find? p
          = (⟨entries⟩ : PathMap (List α)).find? p := by
        rw [find?, List.find?_cons, Path.same_comm, Path.not_same_of_gt hgt]
        rfl
      rw [hskip, List.flatMap_cons, List.flatMap_cons]
      exact ((ih htail).append_left e.2).trans List.perm_middle

end PathMap

namespace PathSet

variable {s : PathSet} {p q : Path}

theorem contains_empty (q : Path) : (∅ : PathSet).contains q = false := rfl

theorem contains_add (s : PathSet) (p q : Path) : (s.add p).contains q = (p.same q || s.contains q) := by
  unfold add
  split
  · next h =>
    cases hsame : p.same q with
    | false => rfl
    | true => rw [← s.contains_congr hsame, h, Bool.true_or]
  · exact s.contains_insert p () q

theorem isOrdered_add (h : s.IsOrdered) (p : Path) : (s.add p).IsOrdered := by
  unfold add
  split
  · exact h
  · exact h.insert p ()

theorem contains_addAll (s : PathSet) (ps : List Path) (q : Path) :
    (s.addAll ps).contains q = (s.contains q || ps.any fun p ↦ p.same q) := by
  induction ps generalizing s with
  | nil => simp [addAll]
  | cons p ps ih =>
    rw [show s.addAll (p :: ps) = (s.add p).addAll ps from rfl, ih, contains_add, List.any_cons,
      Bool.or_comm (p.same q), Bool.or_assoc]

theorem isOrdered_addAll (h : s.IsOrdered) (ps : List Path) : (s.addAll ps).IsOrdered := by
  induction ps generalizing s with
  | nil => exact h
  | cons p ps ih => exact ih (isOrdered_add h p)

theorem contains_ofList (ps : List Path) (q : Path) :
    (ofList ps).contains q = ps.any fun p ↦ p.same q := by
  rw [ofList, contains_addAll]
  rfl

theorem isOrdered_ofList (ps : List Path) : (ofList ps).IsOrdered :=
  isOrdered_addAll PathMap.isOrdered_empty ps

theorem contains_iff (s : PathSet) (q : Path) :
    s.contains q = true ↔ ∃ p ∈ s.toList, p.same q = true := by
  simp [PathMap.contains, toList, PathMap.keys]

/-- A set is empty when it holds no path. -/
theorem isEmpty_iff (s : PathSet) : s.isEmpty = true ↔ ∀ q, s.contains q = false := by
  constructor
  · intro h q
    rw [PathMap.contains, List.isEmpty_iff.mp h]
    rfl
  · intro h
    rw [isEmpty, List.isEmpty_iff]
    refine List.eq_nil_iff_forall_not_mem.mpr fun e he ↦ ?_
    have := h e.1
    rw [PathMap.contains, List.any_eq_false] at this
    exact this e he (Path.same_refl e.1)

/-- The paths of a set in order name different files. -/
theorem pairwise_toList (h : s.IsOrdered) :
    s.toList.Pairwise fun p q ↦ p.same q = false :=
  List.pairwise_map.mpr (h.imp Path.not_same_of_lt)

/-- Lists of paths in order that name the same files name them one by one. -/
theorem forall₂_of_ordered {l l' : List Path} (hl : l.Pairwise fun p q ↦ p.compare q = .lt)
    (hl' : l'.Pairwise fun p q ↦ p.compare q = .lt)
    (hsame : ∀ q, (∃ p ∈ l, p.same q = true) ↔ ∃ p ∈ l', p.same q = true) :
    List.Forall₂ (fun p q ↦ p.same q = true) l l' := by
  have hbehind : ∀ {a p q : Path}, a.compare p = .lt → p.same q = true → a.same q = false := by
    intro a p q hlt hp
    by_contra ha
    rw [Bool.not_eq_false] at ha
    have hap := Path.same_trans ha (Path.same_comm p q ▸ hp)
    rw [Path.not_same_of_lt hlt] at hap
    cases hap
  -- a file that is named in a list in order does not come before the first of them
  have hfirst : ∀ {a b : Path} {l : List Path}, (b :: l).Pairwise (fun p q ↦ p.compare q = .lt) →
      (∃ p ∈ b :: l, p.same a = true) → a.compare b ≠ .lt := by
    rintro a b l hl ⟨p, hp, hpa⟩ hlt
    have hap : a.compare p = .lt := by
      rcases List.mem_cons.mp hp with rfl | hp
      · exact hlt
      · exact Std.TransCmp.lt_trans hlt ((List.pairwise_cons.mp hl).1 p hp)
    have hnot := hbehind hap hpa
    rw [Path.same_refl] at hnot
    cases hnot
  induction l generalizing l' with
  | nil =>
    rcases l' with _ | ⟨b, l'⟩
    · exact .nil
    · obtain ⟨p, hp, -⟩ := (hsame b).mpr ⟨b, List.mem_cons_self, Path.same_refl b⟩
      cases hp
  | cons a l ih =>
    rcases l' with _ | ⟨b, l'⟩
    · obtain ⟨p, hp, -⟩ := (hsame a).mp ⟨a, List.mem_cons_self, Path.same_refl a⟩
      cases hp
    · have hab : a.same b = true := by
        rw [← Path.compare_eq_iff]
        cases horder : a.compare b with
        | eq => rfl
        | lt => exact (hfirst hl' ((hsame a).mp ⟨a, List.mem_cons_self, Path.same_refl a⟩) horder).elim
        | gt => exact (hfirst hl ((hsame b).mpr ⟨b, List.mem_cons_self, Path.same_refl b⟩)
            (Std.OrientedCmp.lt_of_gt horder)).elim
      obtain ⟨ha, hl⟩ := List.pairwise_cons.mp hl
      obtain ⟨hb, hl'⟩ := List.pairwise_cons.mp hl'
      refine .cons hab (ih hl hl' fun q ↦ ?_)
      have hcons := hsame q
      simp only [List.exists_mem_cons_iff, Path.same_congr_left hab] at hcons
      constructor
      · rintro ⟨p, hp, hpq⟩
        have hnot := hbehind (ha p hp) hpq
        rw [Path.same_congr_left hab] at hnot
        exact (hcons.mp (Or.inr ⟨p, hp, hpq⟩)).resolve_left (by rw [hnot]; decide)
      · rintro ⟨p, hp, hpq⟩
        have hnot := hbehind (hb p hp) hpq
        exact (hcons.mpr (Or.inr ⟨p, hp, hpq⟩)).resolve_left (by rw [hnot]; decide)

/-- Sets that hold the same files list them in the same order. -/
theorem forall₂_toList {s s' : PathSet} (h : s.IsOrdered) (h' : s'.IsOrdered)
    (heq : ∀ q, s.contains q = s'.contains q) :
    List.Forall₂ (fun p q ↦ p.same q = true) s.toList s'.toList :=
  forall₂_of_ordered (List.pairwise_map.mpr h) (List.pairwise_map.mpr h') fun q ↦ by
    rw [← contains_iff, ← contains_iff, heq]

end PathSet
end LivePatch
