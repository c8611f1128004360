import LivePatch.Attached.Hooks
import LivePatch.Proofs.Attached.Leeway

/-!
# Work on several processes

A relation between what each process was and what it is holds of a whole session after work that
keeps it in each of them, also when that work stopped short on one of them: those before it were
worked on and those behind it were not.
-/

namespace LivePatch.Each

variable {σ τ α : Type} {I J : τ → σ → Prop} {origins : List τ}

/-- Where work on every state ends. -/
theorem runAll_related {act : Nat → ExceptT Stop (StateM σ) α}
    (h : ∀ o ∈ origins, ∀ i, Triple (I o) (act i) (fun _ ↦ J o) (J o))
    (hIJ : ∀ o ∈ origins, ∀ s, I o s → J o s) {states : List σ}
    (hs : List.Forall₂ I origins states) (i : Nat) :
    List.Forall₂ J origins (runAll act i states).2 := by
  induction hs generalizing i with
  | nil => exact .nil
  | cons hhead htail ih =>
    have hrest := ih (fun o ho ↦ h o (List.mem_cons_of_mem _ ho))
      (fun o ho ↦ hIJ o (List.mem_cons_of_mem _ ho)) (i + 1)
    have hact := h _ (List.mem_cons_self ..) i _ hhead
    unfold runAll
    generalize (act i).run _ = r at hact ⊢
    rcases r with ⟨_ | a, s⟩
    · refine .cons hact (Pointwise.imp_of_mem htail fun o ho s _ ↦ ?_)
      exact hIJ o (List.mem_cons_of_mem _ ho) s
    · dsimp only
      generalize runAll act (i + 1) _ = more at hrest ⊢
      rcases more with ⟨_ | as, rest⟩ <;> exact .cons hact hrest

/-- Work on every state brings each into a relation to what it was, however it ends. -/
theorem triple_collect {act : Nat → ExceptT Stop (StateM σ) α}
    (h : ∀ o ∈ origins, ∀ i, Triple (I o) (act i) (fun _ ↦ J o) (J o))
    (hIJ : ∀ o ∈ origins, ∀ s, I o s → J o s) :
    Triple (List.Forall₂ I origins) (collect act) (fun _ ↦ List.Forall₂ J origins)
      (List.Forall₂ J origins) := by
  intro states hs
  have := runAll_related h hIJ hs 0
  rw [show (collect act).run states = runAll act 0 states from rfl]
  generalize runAll act 0 states = r at this ⊢
  rcases r with ⟨_ | as, states⟩ <;> exact this

/-- Work that came to an end on every state brought each into a relation to what it was, and what it
answered has a property. -/
theorem triple_collect_answers {P : α → Prop} {act : Nat → ExceptT Stop (StateM σ) α}
    (h : ∀ o ∈ origins, ∀ i, Triple (I o) (act i) (fun a s ↦ P a ∧ J o s) fun _ ↦ True) :
    Triple (List.Forall₂ I origins) (collect act)
      (fun as states ↦ (∀ a ∈ as, P a) ∧ List.Forall₂ J origins states) fun _ ↦ True := by
  have hall : ∀ states, List.Forall₂ I origins states → ∀ i as states',
      runAll act i states = (.ok as, states') →
      (∀ a ∈ as, P a) ∧ List.Forall₂ J origins states' := by
    intro states hs
    induction hs with
    | nil =>
      intro i as states' hrun
      cases hrun
      exact ⟨fun a ha ↦ (List.not_mem_nil ha).elim, .nil⟩
    | cons hhead htail ih =>
      intro i as states' hrun
      have hact := h _ (List.mem_cons_self ..) i _ hhead
      unfold runAll at hrun
      generalize (act i).run _ = r at hact hrun
      rcases r with ⟨_ | a, s⟩
      · cases hrun
      · have hrest := ih (fun o ho ↦ h o (List.mem_cons_of_mem _ ho)) (i + 1)
        dsimp only at hrun
        generalize runAll act (i + 1) _ = more at hrest hrun
        rcases more with ⟨_ | rest, states⟩
        · cases hrun
        · cases hrun
          obtain ⟨hP, hJ⟩ := hrest rest states rfl
          refine ⟨fun b hb ↦ ?_, .cons hact.2 hJ⟩
          rcases List.mem_cons.mp hb with rfl | hb
          · exact hact.1
          · exact hP b hb
  intro states hs
  rw [show (collect act).run states = runAll act 0 states from rfl]
  rcases hr : runAll act 0 states with ⟨_ | as, states'⟩
  · trivial
  · exact hall states hs 0 as states' hr

/-- What work on every state answered is related to what became of the state. -/
theorem triple_collect_pointwise {P : σ → Prop} {R : α → σ → Prop}
    {act : Nat → ExceptT Stop (StateM σ) α} (h : ∀ i, Triple P (act i) R fun _ ↦ True) :
    Triple (fun states ↦ ∀ s ∈ states, P s) (collect act) (fun as ↦ List.Forall₂ R as)
      fun _ ↦ True := by
  have hall : ∀ states, (∀ s ∈ states, P s) → ∀ i as states',
      runAll act i states = (.ok as, states') → List.Forall₂ R as states' := by
    intro states
    induction states with
    | nil =>
      intro _ i as states' hrun
      cases hrun
      exact .nil
    | cons s rest ih =>
      intro hs i as states' hrun
      obtain ⟨hhead, htail⟩ := List.forall_mem_cons.mp hs
      have hact := h i s hhead
      unfold runAll at hrun
      generalize (act i).run s = r at hact hrun
      rcases r with ⟨_ | a, s'⟩
      · cases hrun
      · have hrest := ih htail (i + 1)
        dsimp only at hrun
        generalize runAll act (i + 1) rest = more at hrest hrun
        rcases more with ⟨_ | as', states''⟩
        · cases hrun
        · cases hrun
          exact .cons hact (hrest as' states'' rfl)
  intro states hs
  rw [show (collect act).run states = runAll act 0 states from rfl]
  rcases hr : runAll act 0 states with ⟨_ | as, states'⟩
  · trivial
  · exact hall states hs 0 as states' hr

/-- What work on every state answered has a property that it has for each. -/
theorem triple_collect_all {P : α → Prop} {act : Nat → ExceptT Stop (StateM σ) α}
    (h : ∀ i, Triple (fun _ ↦ True) (act i) (fun a _ ↦ P a) fun _ ↦ True) :
    Triple (fun _ ↦ True) (collect act) (fun as _ ↦ ∀ a ∈ as, P a) fun _ ↦ True := by
  intro states _
  have hall : Triple (List.Forall₂ (fun _ _ ↦ True) states) (collect act)
      (fun as states' ↦ (∀ a ∈ as, P a) ∧ List.Forall₂ (fun _ _ ↦ True) states states')
      fun _ ↦ True :=
    triple_collect_answers fun _ _ i ↦
      (h i).mono (fun _ hs ↦ hs) (fun _ _ hP ↦ ⟨hP, trivial⟩) fun _ hs ↦ hs
  exact hall.mono (fun _ hs ↦ hs) (fun _ _ hs ↦ hs.1) (fun _ hs ↦ hs) states
    (List.forall₂_same.mpr fun _ _ ↦ trivial)

/-- Work that keeps a relation for each state keeps it for all of them. -/
theorem keeps_collect {act : Nat → ExceptT Stop (StateM σ) α}
    (h : ∀ o ∈ origins, ∀ i, Keeps (I o) (act i)) :
    Keeps (List.Forall₂ I origins) (collect act) :=
  triple_collect h fun _ _ _ hs ↦ hs

/-- Work on every state without a result brings each into a relation to what it was. -/
theorem triple_forEach {act : ExceptT Stop (StateM σ) Unit}
    (h : ∀ o ∈ origins, Triple (I o) act (fun _ ↦ J o) (J o))
    (hIJ : ∀ o ∈ origins, ∀ s, I o s → J o s) :
    Triple (List.Forall₂ I origins) (forEach act) (fun _ ↦ List.Forall₂ J origins)
      (List.Forall₂ J origins) :=
  Triple.bind (triple_collect (fun o ho _ ↦ h o ho) hIJ) fun _ ↦ Triple.pure fun _ hs ↦ hs

/-- Work that keeps a relation for each state keeps it for all of them. -/
theorem keeps_forEach {act : ExceptT Stop (StateM σ) Unit} (h : ∀ o ∈ origins, Keeps (I o) act) :
    Keeps (List.Forall₂ I origins) (forEach act) :=
  triple_forEach h fun _ _ _ hs ↦ hs

/-- Work that is tried on every state brings each into a relation to what it was. -/
theorem attempt_related {act : ExceptT Stop (StateM σ) Unit} {states : List σ}
    (h : ∀ o ∈ origins, ∀ s, I o s → J o (act.run s).2) (hs : List.Forall₂ I origins states) :
    List.Forall₂ J origins ((attempt act).run states).2 := by
  change List.Forall₂ J origins (states.map fun s ↦ (act.run s).2)
  rw [List.forall₂_map_right_iff]
  exact Pointwise.imp_of_mem hs fun o ho s _ hI ↦ h o ho s hI

/-- Work that is tried on every state keeps what it keeps in each. -/
theorem keeps_attempt {act : ExceptT Stop (StateM σ) Unit} (h : ∀ o ∈ origins, Keeps (I o) act) :
    Keeps (List.Forall₂ I origins) (attempt act) :=
  Keeps.of_run fun _ hs ↦ attempt_related (fun o ho _ hI ↦ (h o ho).run hI) hs

private theorem run_onFirst_cons (p : σ → Bool) (act : ExceptT Stop (StateM σ) Unit) (s : σ)
    (rest : List σ) :
    ((onFirst p act).run (s :: rest)).2
      = if p s then (act.run s).2 :: rest else s :: ((onFirst p act).run rest).2 := by
  simp only [onFirst, ExceptT.run, ExceptT.mk]
  cases hp : p s with
  | true =>
    rw [List.dropWhile_cons_of_neg (by simp [hp]), List.takeWhile_cons_of_neg (by simp [hp])]
    rfl
  | false =>
    rw [List.dropWhile_cons_of_pos (by simp [hp]), List.takeWhile_cons_of_pos (by simp [hp])]
    cases rest.dropWhile fun s ↦ !p s <;> rfl

/-- Work on the first state of a kind keeps what it keeps in each. -/
theorem keeps_onFirst {p : σ → Bool} {act : ExceptT Stop (StateM σ) Unit}
    (h : ∀ o ∈ origins, Keeps (I o) act) : Keeps (List.Forall₂ I origins) (onFirst p act) := by
  apply Keeps.of_run
  intro states hs
  induction hs with
  | nil => exact .nil
  | cons hhead htail ih =>
    rw [run_onFirst_cons]
    split
    · exact .cons ((h _ (List.mem_cons_self ..)).run hhead) htail
    · exact .cons hhead (ih fun o ho ↦ h o (List.mem_cons_of_mem _ ho))

end LivePatch.Each

namespace LivePatch

/-- Calling hooks keeps in all processes what calling them in one keeps. -/
theorem Hooks.keeps_call_of {τ : Type} {origins : List τ} {I : τ → AttachedProcess → Prop}
    {files : FileTree}
    (h : ∀ o ∈ origins, ∀ (r : HookRecord) base, Keeps (I o) (r.callIn files base))
    (registry : Registry) (kind : HookKind) (exclude : Option Token) :
    Keeps (List.Forall₂ I origins) (Hooks.call files registry kind exclude) := by
  refine (Keeps.lift _).bind fun found ↦ ?_
  cases found with
  | none => exact Keeps.pure _
  | some found =>
    exact (Keeps.forM fun placed _ ↦ Each.keeps_onFirst fun o ho ↦ h o ho _ placed.base).bind
      fun _ ↦ Keeps.pure _

/-- Calling hooks changes nothing in any process. -/
theorem Hooks.keeps_call {τ : Type} {origins : List τ} {o : τ → AttachedProcess} {l : τ → Leeway}
    (files : FileTree) (registry : Registry) (kind : HookKind) (exclude : Option Token) :
    Keeps (List.Forall₂ (fun e p ↦ (o e).Within (l e) p) origins)
      (Hooks.call files registry kind exclude) :=
  keeps_call_of (fun _ _ r base ↦ r.keeps_callIn files base) registry kind exclude

end LivePatch
