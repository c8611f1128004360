import Mathlib.Data.List.Forall2
import Mathlib.Data.List.Nodup

/-!
# Lists related entry by entry

What relating two lists entry by entry says of single entries of them.
-/

namespace LivePatch.Pointwise

variable {α β : Type} {R : α → β → Prop} {as : List α} {bs : List β}

/-- Every entry on the right has its entry on the left. -/
theorem exists_left (h : List.Forall₂ R as bs) {b : β} (hb : b ∈ bs) : ∃ a ∈ as, R a b := by
  induction h with
  | nil => cases hb
  | cons hR _ ih =>
    rcases List.mem_cons.mp hb with rfl | hb
    · exact ⟨_, List.mem_cons_self .., hR⟩
    · obtain ⟨a, ha, hab⟩ := ih hb
      exact ⟨a, List.mem_cons_of_mem _ ha, hab⟩

/-- Every entry on the left has its entry on the right. -/
theorem exists_right (h : List.Forall₂ R as bs) {a : α} (ha : a ∈ as) : ∃ b ∈ bs, R a b :=
  exists_left h.flip ha

/-- Entries that are all related to something are related to the entries of a list. -/
theorem exists_of_forall (h : ∀ a ∈ as, ∃ b, R a b) : ∃ bs, List.Forall₂ R as bs := by
  induction as with
  | nil => exact ⟨[], .nil⟩
  | cons a as ih =>
    obtain ⟨⟨b, hb⟩, hrest⟩ := List.forall_mem_cons.mp h
    obtain ⟨bs, hbs⟩ := ih hrest
    exact ⟨b :: bs, .cons hb hbs⟩

/-- What says the same of related entries says the same of their lists. -/
theorem forall_iff {P : α → Prop} {Q : β → Prop} (h : List.Forall₂ R as bs)
    (hR : ∀ a b, R a b → (Q b ↔ P a)) : (∀ b ∈ bs, Q b) ↔ ∀ a ∈ as, P a := by
  constructor
  · intro hQ a ha
    obtain ⟨b, hb, hab⟩ := exists_right h ha
    exact (hR a b hab).mp (hQ b hb)
  · intro hP b hb
    obtain ⟨a, ha, hab⟩ := exists_left h hb
    exact (hR a b hab).mpr (hP a ha)

/-- Lists are related in any way that their entries are related in. -/
theorem imp_of_mem {S : α → β → Prop} (h : List.Forall₂ R as bs)
    (hRS : ∀ a ∈ as, ∀ b ∈ bs, R a b → S a b) : List.Forall₂ S as bs := by
  induction h with
  | nil => exact .nil
  | cons hR _ ih =>
    exact .cons (hRS _ (List.mem_cons_self ..) _ (List.mem_cons_self ..) hR)
      (ih fun a ha b hb ↦ hRS a (List.mem_cons_of_mem _ ha) b (List.mem_cons_of_mem _ hb))

/-- What holds of any two entries on the left holds of any two on the right, if it carries over. -/
theorem pairwise {S : α → α → Prop} {T : β → β → Prop} (h : List.Forall₂ R as bs)
    (hS : as.Pairwise S) (hST : ∀ {a a' b b'}, R a b → R a' b' → S a a' → T b b') :
    bs.Pairwise T := by
  induction h with
  | nil => exact .nil
  | cons hab hrest ih =>
    obtain ⟨hfirst, htail⟩ := List.pairwise_cons.mp hS
    refine List.pairwise_cons.mpr ⟨fun b' hb' ↦ ?_, ih htail⟩
    obtain ⟨a', ha', hab'⟩ := exists_left hrest hb'
    exact hST hab hab' (hfirst a' ha')

/-- Relations through a list in between. -/
theorem comp {γ : Type} {S : β → γ → Prop} {T : α → γ → Prop} {cs : List γ}
    (h : List.Forall₂ R as bs) (h' : List.Forall₂ S bs cs)
    (hT : ∀ a b c, R a b → S b c → T a c) : List.Forall₂ T as cs := by
  induction h generalizing cs with
  | nil =>
    cases h'
    exact .nil
  | cons hR _ ih =>
    cases h' with
    | cons hS htail => exact .cons (hT _ _ _ hR hS) (ih htail)

/-- Entries of different entries are related as entries of the list are. -/
theorem rel_of_pairwise {S : β → β → Prop} (h : List.Forall₂ R as bs) (hpairs : bs.Pairwise S)
    (hsymm : ∀ b b', S b b' → S b' b) (hR : ∀ a b b', R a b → R a b' → b = b') {a a' : α}
    {b b' : β} (ha : a ∈ as) (ha' : a' ∈ as) (hne : a ≠ a') (hb : R a b) (hb' : R a' b') :
    S b b' := by
  induction h with
  | nil => cases ha
  | @cons first d rest ds hd hrest ih =>
    obtain ⟨hfirst, hpairs⟩ := List.pairwise_cons.mp hpairs
    have hmem : ∀ {c e}, c ∈ rest → R c e → e ∈ ds := by
      intro c e hc he
      obtain ⟨e', he', hR'⟩ := exists_right hrest hc
      exact hR c e e' he hR' ▸ he'
    rcases List.mem_cons.mp ha with hin | hin <;> rcases List.mem_cons.mp ha' with hin' | hin'
    · exact (hne (hin.trans hin'.symm)).elim
    · subst hin
      exact hR _ _ _ hd hb ▸ hfirst _ (hmem hin' hb')
    · subst hin'
      exact hR _ _ _ hd hb' ▸ hsymm _ _ (hfirst _ (hmem hin hb))
    · exact ih hpairs hin hin'

/-- Entries are related in two ways at once. -/
theorem and {S : α → β → Prop} (h : List.Forall₂ R as bs) (h' : List.Forall₂ S as bs) :
    List.Forall₂ (fun a b ↦ R a b ∧ S a b) as bs := by
  induction h with
  | nil => exact .nil
  | cons hR _ ih =>
    cases h' with
    | cons hS hrest => exact .cons ⟨hR, hS⟩ (ih hrest)

/-- Entries at one position are related, or there is none on either side. -/
theorem getElem? (h : List.Forall₂ R as bs) (i : Nat) : Option.Rel R as[i]? bs[i]? := by
  induction h generalizing i with
  | nil => exact .none
  | cons hR _ ih =>
    cases i with
    | zero => exact .some hR
    | succ i => exact ih i

/-- What stands at a place is related to what stands there in the other list. -/
theorem exists_at (h : List.Forall₂ R as bs) {i : Nat} {a : α} (ha : as[i]? = some a) :
    ∃ b, bs[i]? = some b ∧ R a b := by
  have hrel := getElem? h i
  rw [ha] at hrel
  cases hb : bs[i]? with
  | none =>
    rw [hb] at hrel
    cases hrel
  | some b =>
    rw [hb] at hrel
    cases hrel with
    | some hR => exact ⟨b, rfl, hR⟩

/-- The last entries are related, or there is none on either side. -/
theorem getLast? (h : List.Forall₂ R as bs) : Option.Rel R as.getLast? bs.getLast? := by
  rw [List.getLast?_eq_getElem?, List.getLast?_eq_getElem?, h.length_eq]
  exact getElem? h _

/-- Entries up to the first one that fails a test are related, where related entries come out of
the test alike. -/
theorem takeWhile (h : List.Forall₂ R as bs) {p : α → Bool} {q : β → Bool}
    (hpq : ∀ a b, R a b → q b = p a) : List.Forall₂ R (as.takeWhile p) (bs.takeWhile q) := by
  induction h with
  | nil => exact .nil
  | cons hR _ ih =>
    rw [List.takeWhile_cons, List.takeWhile_cons, hpq _ _ hR]
    split
    · exact .cons hR ih
    · exact .nil

/-- Entries are related together with their positions. -/
theorem zipIdx (h : List.Forall₂ R as bs) (n : Nat) :
    List.Forall₂ (fun e f ↦ R e.1 f.1 ∧ e.2 = f.2) (as.zipIdx n) (bs.zipIdx n) := by
  induction h generalizing n with
  | nil => exact .nil
  | cons hR _ ih => exact .cons ⟨hR, rfl⟩ (ih (n + 1))

/-- What is found first is related, where what is found in related entries is. -/
theorem findSome? {γ δ : Type} {S : γ → δ → Prop} {f : α → Option γ} {g : β → Option δ}
    (h : List.Forall₂ R as bs) (hfg : ∀ a b, R a b → Option.Rel S (f a) (g b)) :
    Option.Rel S (as.findSome? f) (bs.findSome? g) := by
  induction h with
  | nil => exact .none
  | @cons a b _ _ hR _ ih =>
    rw [List.findSome?_cons, List.findSome?_cons]
    have hfound := hfg a b hR
    generalize f a = x at hfound ⊢
    generalize g b = y at hfound ⊢
    cases hfound with
    | none => exact ih
    | some hS => exact .some hS

end LivePatch.Pointwise
