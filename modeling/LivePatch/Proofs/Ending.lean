import LivePatch.Proofs.Triple

/-!
# How work ends

Work that faults does not return, so nobody is left to ask what became of the state: what is said of
the state behind work is said of work that answered or ended with an error. And work that keeps a
property of the state and, where it starts in that, never stops short with an error of certain
causes. Contexts say nothing about the cause, and a fault is no error.
-/

namespace LivePatch

/-! ### Work that returns -/

/-- From every state in `pre`, work ends in `post` of its result or with an error in `stop`, or it
faults. -/
def Returns {σ α : Type} (pre : σ → Prop) (act : ExceptT Stop (StateM σ) α) (post : α → σ → Prop)
    (stop : σ → Prop) : Prop :=
  ∀ s, pre s → match act.run s with
    | (.ok a, t) => post a t
    | (.error (.error _), t) => stop t
    | (.error .fault, _) => True

namespace Returns

variable {σ α β : Type} {pre stop : σ → Prop} {act : ExceptT Stop (StateM σ) α}

/-- What is said of all work is said of work that returns. -/
theorem of_triple {post : α → σ → Prop} (h : Triple pre act post stop) :
    Returns pre act post stop := by
  intro s hs
  have := h s hs
  rcases hr : act.run s with ⟨(e | _) | a, t⟩ <;> rw [hr] at this
  · exact this
  · trivial
  · exact this

/-- A statement holds of stronger starts and weaker ends. -/
theorem mono {post post' : α → σ → Prop} {pre' stop' : σ → Prop} (h : Returns pre act post stop)
    (hpre : ∀ s, pre' s → pre s) (hpost : ∀ a s, post a s → post' a s)
    (hstop : ∀ s, stop s → stop' s) : Returns pre' act post' stop' := by
  intro s hs
  have := h s (hpre s hs)
  rcases hr : act.run s with ⟨(e | _) | a, t⟩ <;> rw [hr] at this
  · exact hstop t this
  · trivial
  · exact hpost a t this

/-- Work that faults needs nothing. -/
theorem fault {post : α → σ → Prop} :
    Returns pre (throw .fault : ExceptT Stop (StateM σ) α) post stop := fun _ _ ↦ trivial

/-- Work after work: what the first ends in, the second starts in. -/
theorem bind {R : α → σ → Prop} {post : β → σ → Prop} {f : α → ExceptT Stop (StateM σ) β}
    (h : Returns pre act R stop) (hf : ∀ a, Returns (R a) (f a) post stop) :
    Returns pre (act >>= f) post stop := by
  intro s hs
  rw [run_bind]
  have := h s hs
  rcases hr : act.run s with ⟨(e | _) | a, t⟩ <;> rw [hr] at this
  · exact this
  · trivial
  · exact hf a t this

/-- A statement may be shown for each state to start in. -/
theorem of_pre {post : α → σ → Prop} (h : ∀ s, pre s → Returns (· = s) act post stop) :
    Returns pre act post stop :=
  fun s hs ↦ h s hs s rfl

/-- Looking at the state before work. -/
theorem bind_get {post : β → σ → Prop} {f : σ → ExceptT Stop (StateM σ) β}
    (h : ∀ s, pre s → Returns (· = s) (f s) post stop) :
    Returns pre (MonadState.get >>= f) post stop :=
  fun s hs ↦ h s hs s rfl

/-- A result that needs no state before work. -/
theorem bind_lift {post : β → σ → Prop} {r : Outcome α} {f : α → ExceptT Stop (StateM σ) β}
    (h : ∀ a, r = .ok a → Returns pre (f a) post stop) (hstop : ∀ s, pre s → stop s) :
    Returns pre (liftM r >>= f) post stop := by
  refine bind (R := fun a s ↦ r = .ok a ∧ pre s)
    (of_triple (Triple.lift (fun _ _ hs hr ↦ ⟨hr, hs⟩) hstop)) fun a s hs ↦ h a hs.1 s hs.2

/-- Work that keeps a property before work that may fault. -/
theorem bind_keeps {post : β → σ → Prop} {f : α → ExceptT Stop (StateM σ) β}
    (h : Keeps pre act) (hf : ∀ a, Returns pre (f a) post pre) :
    Returns pre (act >>= f) post pre :=
  bind (of_triple h) hf

/-- Work whose result is looked at always comes to its end. -/
theorem bind_tried {post : β → σ → Prop} {f : Outcome α → ExceptT Stop (StateM σ) β}
    (h : Keeps pre act) (hf : ∀ result, Returns pre (f result) post stop) :
    Returns pre (ExceptT.lift act.run >>= f) post stop := by
  intro s hs
  rw [run_bind, run_tried]
  exact hf _ _ (h.run hs)

/-- What work that returned ended in. -/
theorem run {inv : σ → Prop} (h : Returns inv act (fun _ ↦ inv) inv) {s t : σ} {r : Outcome α}
    (hs : inv s) (hr : act.run s = (r, t)) (hreturned : r ≠ .error .fault) : inv t := by
  have := h s hs
  rw [hr] at this
  rcases r with (e | _) | a
  · exact this
  · exact (hreturned rfl).elim
  · exact this

end Returns

/-! ### Causes that work does not stop with -/

/-- A result is no error of certain causes. -/
def Outcome.Avoids {α : Type} (bad : Cause → Prop) (r : Outcome α) : Prop :=
  ∀ e, r = .error (.error e) → ¬ bad e.cause

/-- Work keeps a property and does not stop with an error of certain causes. -/
structure Avoids {σ α : Type} (bad : Cause → Prop) (inv : σ → Prop)
    (act : ExceptT Stop (StateM σ) α) : Prop where
  keeps : Keeps inv act
  avoids : ∀ s, inv s → Outcome.Avoids bad (act.run s).1

variable {σ τ α β : Type} {bad : Cause → Prop}

namespace Outcome.Avoids

theorem ok (a : α) : Avoids bad (.ok a) := fun _ h ↦ by cases h

theorem fault : Avoids bad (.error .fault : Outcome α) := fun _ h ↦ by cases h

theorem orFault (x : Option α) : Avoids bad (orFault x) := by
  cases x with
  | none => exact fault
  | some a => exact ok a

theorem fail {c : Cause} (h : ¬ bad c) : Avoids bad (fail c : Outcome α) := by
  intro e he
  cases he
  exact h

theorem bind {x : Outcome α} {f : α → Outcome β} (hx : Avoids bad x)
    (hf : ∀ a, x = .ok a → Avoids bad (f a)) : Avoids bad (x >>= f) := by
  cases x with
  | error stop => exact fun e he ↦ hx e (by cases he; rfl)
  | ok a => exact hf a rfl

end Outcome.Avoids

namespace Avoids

variable {inv : σ → Prop} {act : ExceptT Stop (StateM σ) α}

theorem bind {f : α → ExceptT Stop (StateM σ) β} (h : Avoids bad inv act)
    (hf : ∀ a, Avoids bad inv (f a)) : Avoids bad inv (act >>= f) := by
  refine ⟨h.keeps.bind fun a ↦ (hf a).keeps, fun s hs ↦ ?_⟩
  have hkeeps := h.keeps.run hs
  have havoids := h.avoids s hs
  rw [run_bind]
  rcases hr : act.run s with ⟨stop | a, t⟩ <;> rw [hr] at hkeeps havoids
  · exact fun e he ↦ havoids e (by cases he; rfl)
  · exact (hf a).avoids t hkeeps

theorem pure (a : α) : Avoids bad inv (pure a : ExceptT Stop (StateM σ) α) :=
  ⟨Keeps.pure a, fun _ _ ↦ Outcome.Avoids.ok a⟩

theorem lift {r : Outcome α} (h : Outcome.Avoids bad r) :
    Avoids bad inv (liftM r : ExceptT Stop (StateM σ) α) :=
  ⟨Keeps.lift r, fun s _ ↦ by rwa [run_lift]⟩

theorem bind_lift {r : Outcome α} (h : Outcome.Avoids bad r) {f : α → ExceptT Stop (StateM σ) β}
    (hf : ∀ a, r = .ok a → Avoids bad inv (f a)) : Avoids bad inv (liftM r >>= f) := by
  cases r with
  | error stop => exact ⟨fun _ hs ↦ hs, fun s _ e he ↦ h e (by cases he; rfl)⟩
  | ok a => exact hf a rfl

theorem bind_get {f : σ → ExceptT Stop (StateM σ) β}
    (hf : ∀ s, inv s → Avoids bad inv (f s)) : Avoids bad inv (MonadState.get >>= f) :=
  ⟨Triple.bind_get fun s hs ↦ ((hf s hs).keeps).mono (fun _ h ↦ h ▸ hs) (fun _ _ h ↦ h) fun _ h ↦ h,
    fun s hs ↦ (hf s hs).avoids s hs⟩

theorem modify {f : σ → σ} (h : ∀ s, inv s → inv (f s)) :
    Avoids bad inv (modify f : ExceptT Stop (StateM σ) PUnit) :=
  ⟨Keeps.modify h, fun _ _ ↦ Outcome.Avoids.ok _⟩

theorem set {t : σ} (ht : inv t) :
    Avoids bad inv (set t : ExceptT Stop (StateM σ) PUnit) :=
  ⟨Triple.set fun _ _ ↦ ht, fun _ _ ↦ Outcome.Avoids.ok _⟩

theorem fail {c : Cause} (h : ¬ bad c) :
    Avoids bad inv (fail c : ExceptT Stop (StateM σ) α) := by
  refine ⟨Keeps.fail c, fun _ _ e he ↦ ?_⟩
  cases he
  exact h

theorem inContext {c : Context} (h : Avoids bad inv act) : Avoids bad inv (inContext c act) := by
  refine ⟨h.keeps.inContext, fun s hs ↦ ?_⟩
  have := h.avoids s hs
  rw [run_inContext]
  rcases hr : act.run s with ⟨(e | _) | a, t⟩ <;> rw [hr] at this
  · intro e' he
    cases he
    exact this e rfl
  · exact Outcome.Avoids.fault
  · exact Outcome.Avoids.ok a

theorem forM {f : τ → ExceptT Stop (StateM σ) PUnit} {items : List τ}
    (h : ∀ i ∈ items, Avoids bad inv (f i)) : Avoids bad inv (items.forM f) := by
  induction items with
  | nil => exact pure PUnit.unit
  | cons i items ih =>
    exact (h i (List.mem_cons_self ..)).bind fun _ ↦ ih fun j hj ↦ h j (List.mem_cons_of_mem i hj)

end Avoids
end LivePatch
