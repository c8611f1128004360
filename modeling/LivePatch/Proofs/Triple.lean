import LivePatch.Attached.Fleet
import LivePatch.Proofs.Pointwise

/-!
# Triples

What work on a state guarantees, however it ends. A triple names the states that work may start in,
what holds of its result and the state behind it, and what holds when it stopped short. Work that
undoes itself has to say the last as exactly as the one before, so neither is left out.
-/

namespace LivePatch

/-- From every state in `pre`, work ends in `post` of its result or stops short in `stop`. -/
def Triple {σ α : Type} (pre : σ → Prop) (act : ExceptT Stop (StateM σ) α)
    (post : α → σ → Prop) (stop : σ → Prop) : Prop :=
  ∀ s, pre s → match act.run s with
    | (.ok a, t) => post a t
    | (.error _, t) => stop t

/-- Work keeps a property of the state, whatever it comes to. -/
def Keeps {σ α : Type} (inv : σ → Prop) (act : ExceptT Stop (StateM σ) α) : Prop :=
  Triple inv act (fun _ ↦ inv) inv

variable {σ τ α β : Type}

section Runs

/-- Work that only answers leaves the state alone. -/
@[simp] theorem run_pure (a : α) (s : σ) :
    (pure a : ExceptT Stop (StateM σ) α).run s = (.ok a, s) := rfl

/-- Work that only stops short leaves the state alone. -/
@[simp] theorem run_throw (stop : Stop) (s : σ) :
    (throw stop : ExceptT Stop (StateM σ) α).run s = (.error stop, s) := rfl

/-- An error of a cause leaves the state alone. -/
@[simp] theorem run_fail (c : Cause) (s : σ) :
    (fail c : ExceptT Stop (StateM σ) α).run s = (.error (.error c.toError), s) := rfl

/-- Looking at the state leaves it alone. -/
@[simp] theorem run_get (s : σ) : (get : ExceptT Stop (StateM σ) σ).run s = (.ok s, s) := rfl

/-- Setting the state. -/
@[simp] theorem run_set (t s : σ) :
    (set t : ExceptT Stop (StateM σ) PUnit).run s = (.ok ⟨⟩, t) := rfl

/-- Changing the state. -/
@[simp] theorem run_modify (f : σ → σ) (s : σ) :
    (modify f : ExceptT Stop (StateM σ) PUnit).run s = (.ok ⟨⟩, f s) := rfl

/-- A result that needs no state. -/
@[simp] theorem run_lift (r : Outcome α) (s : σ) :
    (liftM r : ExceptT Stop (StateM σ) α).run s = (r, s) := by
  cases r <;> rfl

/-- Where work ends whose result is known. -/
theorem run_eq_of_result {act : ExceptT Stop (StateM σ) α} {s : σ} {r : Outcome α}
    (h : (act.run s).1 = r) : act.run s = (r, (act.run s).2) := Prod.ext h rfl

/-- Work after work starts where that ended, unless that stopped short. -/
theorem run_bind (act : ExceptT Stop (StateM σ) α) (f : α → ExceptT Stop (StateM σ) β) (s : σ) :
    (act >>= f).run s = match act.run s with
      | (.ok a, t) => (f a).run t
      | (.error stop, t) => (.error stop, t) := by
  simp only [bind, ExceptT.bind, ExceptT.run, ExceptT.mk, StateT.bind]
  rcases act s with ⟨_ | a, t⟩ <;> rfl

/-- Work after work answers when both do. -/
theorem run_bind_eq_ok_iff {act : ExceptT Stop (StateM σ) α} {f : α → ExceptT Stop (StateM σ) β}
    {s t : σ} {b : β} : (act >>= f).run s = (.ok b, t) ↔
      ∃ a u, act.run s = (.ok a, u) ∧ (f a).run u = (.ok b, t) := by
  rw [run_bind]
  rcases act.run s with ⟨_ | a, u⟩
  · exact ⟨(fun h ↦ by cases h), fun ⟨_, _, h, _⟩ ↦ by cases h⟩
  · refine ⟨fun h ↦ ⟨a, u, rfl, h⟩, fun ⟨_, _, h, hf⟩ ↦ ?_⟩
    cases h
    exact hf

/-- Work after a result that needs no state answers when there is a result. -/
theorem run_bind_lift_eq_ok_iff {r : Outcome α} {f : α → ExceptT Stop (StateM σ) β} {s t : σ}
    {b : β} : (liftM r >>= f).run s = (.ok b, t) ↔ ∃ a, r = .ok a ∧ (f a).run s = (.ok b, t) := by
  rw [run_bind, run_lift]
  cases r with
  | error e => exact ⟨(fun h ↦ by cases h), fun ⟨_, h, _⟩ ↦ by cases h⟩
  | ok a =>
    refine ⟨fun h ↦ ⟨a, rfl, h⟩, fun ⟨_, h, hf⟩ ↦ ?_⟩
    cases h
    exact hf

/-- Work after work stops short where either does. -/
theorem run_bind_eq_error_iff {act : ExceptT Stop (StateM σ) α} {f : α → ExceptT Stop (StateM σ) β}
    {s t : σ} {stop : Stop} : (act >>= f).run s = (.error stop, t) ↔
      act.run s = (.error stop, t) ∨
        ∃ a u, act.run s = (.ok a, u) ∧ (f a).run u = (.error stop, t) := by
  rw [run_bind]
  rcases act.run s with ⟨stop' | a, u⟩
  · constructor
    · intro h
      cases h
      exact Or.inl rfl
    · rintro (h | ⟨_, _, h, -⟩) <;> cases h
      rfl
  · constructor
    · exact fun h ↦ Or.inr ⟨a, u, rfl, h⟩
    · rintro (h | ⟨_, _, h, hf⟩) <;> cases h
      exact hf

/-- Work after a result that needs no state stops short where there is no result. -/
theorem run_bind_lift_eq_error_iff {r : Outcome α} {f : α → ExceptT Stop (StateM σ) β} {s t : σ}
    {stop : Stop} : (liftM r >>= f).run s = (.error stop, t) ↔
      (r = .error stop ∧ t = s) ∨ ∃ a, r = .ok a ∧ (f a).run s = (.error stop, t) := by
  rw [run_bind, run_lift]
  cases r with
  | error stop' =>
    constructor
    · intro h
      cases h
      exact Or.inl ⟨rfl, rfl⟩
    · rintro (⟨h, rfl⟩ | ⟨_, h, -⟩) <;> cases h
      rfl
  | ok a =>
    constructor
    · exact fun h ↦ Or.inr ⟨a, rfl, h⟩
    · rintro (⟨h, -⟩ | ⟨_, h, hf⟩) <;> cases h
      exact hf

/-- Work on the entries of a list that stops short has done the entries before one. -/
theorem run_forM_eq_error_iff {f : τ → ExceptT Stop (StateM σ) PUnit} {items : List τ} {s t : σ}
    {stop : Stop} : (items.forM f).run s = (.error stop, t) ↔ ∃ before x after u,
      items = before ++ x :: after ∧ (before.forM f).run s = (.ok ⟨⟩, u) ∧
        (f x).run u = (.error stop, t) := by
  induction items generalizing s with
  | nil =>
    constructor
    · intro hrun
      cases hrun
    · rintro ⟨before, x, after, -, hsplit, -⟩
      cases before <;> cases hsplit
  | cons y items ih =>
    change (f y >>= fun _ ↦ items.forM f).run s = _ ↔ _
    rw [run_bind_eq_error_iff]
    simp only [ih]
    constructor
    · rintro (hy | ⟨_, u, hy, before, x, after, v, rfl, hbefore, hx⟩)
      · exact ⟨[], y, items, s, rfl, rfl, hy⟩
      · exact ⟨y :: before, x, after, v, rfl, run_bind_eq_ok_iff.mpr ⟨_, u, hy, hbefore⟩, hx⟩
    · rintro ⟨_ | ⟨z, before⟩, x, after, v, hsplit, hbefore, hx⟩
      · cases hsplit
        cases hbefore
        exact Or.inl hx
      · cases hsplit
        obtain ⟨_, u, hy, hbefore⟩ := run_bind_eq_ok_iff.mp hbefore
        exact Or.inr ⟨_, u, hy, before, x, after, v, rfl, hbefore, hx⟩

/-- A context changes what an error says, not where work ends. -/
theorem run_inContext (c : Context) (act : ExceptT Stop (StateM σ) α) (s : σ) :
    (inContext c act).run s = match act.run s with
      | (.ok a, t) => (.ok a, t)
      | (.error stop, t) => (.error (stop.within c), t) := by
  simp only [inContext, tryCatchThe, MonadExceptOf.tryCatch, ExceptT.tryCatch, ExceptT.run,
    ExceptT.mk, bind, StateT.bind]
  rcases act s with ⟨_ | a, t⟩ <;> rfl

/-- A release runs where the work ended, and its own result goes unnoticed. -/
theorem run_ensuring (act : ExceptT Stop (StateM σ) α)
    (release : ExceptT Stop (StateM σ) Unit) (s : σ) :
    (ensuring act release).run s = ((act.run s).1, (release.run (act.run s).2).2) := rfl

/-- Work whose result is looked at instead of stopping short. -/
theorem run_tried (act : ExceptT Stop (StateM σ) α) (s : σ) :
    (ExceptT.lift act.run : ExceptT Stop (StateM σ) (Outcome α)).run s
      = (.ok (act.run s).1, (act.run s).2) := rfl

end Runs

namespace Triple

variable {pre : σ → Prop} {stop : σ → Prop} {act : ExceptT Stop (StateM σ) α}

/-- What a triple says of work that answered. -/
theorem ok {post : α → σ → Prop} (h : Triple pre act post stop) {s t : σ} {a : α} (hs : pre s)
    (hr : act.run s = (.ok a, t)) : post a t := by
  have := h s hs
  rwa [hr] at this

/-- What a triple says of work that stopped short. -/
theorem error {post : α → σ → Prop} (h : Triple pre act post stop) {s t : σ} {e : Stop}
    (hs : pre s) (hr : act.run s = (.error e, t)) : stop t := by
  have := h s hs
  rwa [hr] at this

/-- Where work ends that cannot stop short. -/
theorem run_of_ok {post : σ → Prop} (h : Triple pre act (fun _ ↦ post) fun _ ↦ False) {s : σ}
    (hs : pre s) : post (act.run s).2 := by
  have := h s hs
  rcases hr : act.run s with ⟨_ | a, t⟩ <;> rw [hr] at this
  · exact this.elim
  · exact this

/-- Work that cannot stop short answers. -/
theorem exists_ok {post : α → σ → Prop} (h : Triple pre act post fun _ ↦ False) {s : σ}
    (hs : pre s) : ∃ a t, act.run s = (.ok a, t) ∧ post a t := by
  have := h s hs
  rcases hr : act.run s with ⟨_ | a, t⟩ <;> rw [hr] at this
  · exact this.elim
  · exact ⟨a, t, rfl, this⟩

/-- A triple holds of stronger starts and weaker ends. -/
theorem mono {post post' : α → σ → Prop} {pre' stop' : σ → Prop} (h : Triple pre act post stop)
    (hpre : ∀ s, pre' s → pre s) (hpost : ∀ a s, post a s → post' a s)
    (hstop : ∀ s, stop s → stop' s) : Triple pre' act post' stop' := by
  intro s hs
  have := h s (hpre s hs)
  rcases hr : act.run s with ⟨_ | a, t⟩
  · rw [hr] at this
    exact hstop t this
  · rw [hr] at this
    exact hpost a t this

/-- A triple may be shown for each state to start in. -/
theorem of_pre {post : α → σ → Prop} (h : ∀ s, pre s → Triple (· = s) act post stop) :
    Triple pre act post stop :=
  fun s hs ↦ h s hs s rfl

/-- What is known whatever the state is may be used. -/
theorem of_fact {P : Prop} {post : α → σ → Prop} (h : P → Triple (fun _ ↦ True) act post stop) :
    Triple (fun _ ↦ P) act post stop :=
  fun s hP ↦ h hP s trivial

/-- Two triples of one piece of work. -/
theorem and {pre' : σ → Prop} {stop' : σ → Prop} {post post' : α → σ → Prop}
    (h : Triple pre act post stop) (h' : Triple pre' act post' stop') :
    Triple (fun s ↦ pre s ∧ pre' s) act (fun a s ↦ post a s ∧ post' a s)
      fun s ↦ stop s ∧ stop' s := by
  intro s hs
  have hfirst := h s hs.1
  have hsecond := h' s hs.2
  rcases hr : act.run s with ⟨_ | a, t⟩ <;> rw [hr] at hfirst hsecond <;> exact ⟨hfirst, hsecond⟩

/-- What work came to is known of it afterwards. -/
theorem with_run {post : α → σ → Prop} {s : σ} (h : Triple (· = s) act post stop) :
    Triple (· = s) act (fun a t ↦ act.run s = (.ok a, t) ∧ post a t) stop := by
  intro s' hs
  have := h s' hs
  rw [hs] at this ⊢
  rcases hr : act.run s with ⟨_ | a, t⟩ <;> rw [hr] at this
  · exact this
  · exact ⟨rfl, this⟩

/-- Work after work: what the first ends in, the second starts in. -/
theorem bind {R : α → σ → Prop} {post : β → σ → Prop} {f : α → ExceptT Stop (StateM σ) β}
    (h : Triple pre act R stop) (hf : ∀ a, Triple (R a) (f a) post stop) :
    Triple pre (act >>= f) post stop := by
  intro s hs
  rw [run_bind]
  have := h s hs
  rcases hr : act.run s with ⟨_ | a, t⟩
  · rwa [hr] at this
  · rw [hr] at this
    exact hf a t this

/-- Work that only answers. -/
theorem pure {post : α → σ → Prop} {a : α} (h : ∀ s, pre s → post a s) :
    Triple pre (pure a : ExceptT Stop (StateM σ) α) post stop := h

/-- Work that only stops short. -/
theorem throw {post : α → σ → Prop} {e : Stop} (h : ∀ s, pre s → stop s) :
    Triple pre (throw e : ExceptT Stop (StateM σ) α) post stop := h

/-- An error of a cause. -/
theorem fail {post : α → σ → Prop} {c : Cause} (h : ∀ s, pre s → stop s) :
    Triple pre (fail c : ExceptT Stop (StateM σ) α) post stop := h

/-- A result that needs no state. -/
theorem lift {post : α → σ → Prop} {r : Outcome α} (h : ∀ s a, pre s → r = .ok a → post a s)
    (hstop : ∀ s, pre s → stop s) :
    Triple pre (liftM r : ExceptT Stop (StateM σ) α) post stop := by
  intro s hs
  rw [run_lift]
  cases r with
  | ok a => exact h s a hs rfl
  | error e => exact hstop s hs

/-- Looking at the state. -/
theorem get {post : σ → σ → Prop} (h : ∀ s, pre s → post s s) :
    Triple pre (get : ExceptT Stop (StateM σ) σ) post stop := h

/-- Looking at the state before work. -/
theorem bind_get {post : β → σ → Prop} {f : σ → ExceptT Stop (StateM σ) β}
    (h : ∀ s, pre s → Triple (· = s) (f s) post stop) :
    Triple pre (MonadState.get >>= f) post stop :=
  fun s hs ↦ h s hs s rfl

/-- A result that needs no state before work. -/
theorem bind_lift {post : β → σ → Prop} {r : Outcome α} {f : α → ExceptT Stop (StateM σ) β}
    (h : ∀ a, r = .ok a → Triple pre (f a) post stop) (hstop : ∀ s, pre s → stop s) :
    Triple pre (liftM r >>= f) post stop := by
  intro s hs
  rw [run_bind, run_lift]
  cases r with
  | ok a => exact h a rfl s hs
  | error e => exact hstop s hs

/-- A result that is there before work. -/
theorem bind_ok {post : β → σ → Prop} {r : Outcome α} {a : α} (hr : r = .ok a)
    {f : α → ExceptT Stop (StateM σ) β} (h : Triple pre (f a) post stop) :
    Triple pre (liftM r >>= f) post stop := by
  intro s hs
  rw [run_bind, run_lift, hr]
  exact h s hs

/-- Setting the state. -/
theorem set {post : PUnit → σ → Prop} {t : σ} (h : ∀ s, pre s → post ⟨⟩ t) :
    Triple pre (set t : ExceptT Stop (StateM σ) PUnit) post stop := h

/-- Changing the state. -/
theorem modify {post : PUnit → σ → Prop} {f : σ → σ} (h : ∀ s, pre s → post ⟨⟩ (f s)) :
    Triple pre (modify f : ExceptT Stop (StateM σ) PUnit) post stop := h

/-- A context changes nothing about where work ends. -/
theorem inContext {post : α → σ → Prop} {c : Context} (h : Triple pre act post stop) :
    Triple pre (inContext c act) post stop := by
  intro s hs
  rw [run_inContext]
  have := h s hs
  rcases hr : act.run s with ⟨_ | a, t⟩ <;> rwa [hr] at this

/-- A release brings every end of the work to its own. -/
theorem ensuring {R : α → σ → Prop} {post : α → σ → Prop} {E : σ → Prop}
    {release : ExceptT Stop (StateM σ) Unit} (h : Triple pre act R E)
    (hok : ∀ a s, R a s → post a (release.run s).2)
    (hstop : ∀ s, E s → stop (release.run s).2) :
    Triple pre (ensuring act release) post stop := by
  intro s hs
  rw [run_ensuring]
  have := h s hs
  rcases hr : act.run s with ⟨_ | a, t⟩ <;> rw [hr] at this
  · exact hstop t this
  · exact hok a t this

/-- Work whose result is looked at ends as the work did. -/
theorem tried {post : α → σ → Prop} (h : Triple pre act post stop) :
    Triple pre (ExceptT.lift act.run : ExceptT Stop (StateM σ) (Outcome α))
      (fun r s ↦ match r with
        | .ok a => post a s
        | .error _ => stop s) (fun _ ↦ False) := by
  intro s hs
  rw [run_tried]
  have := h s hs
  rcases hr : act.run s with ⟨_ | a, t⟩ <;> rwa [hr] at this

/-- Answers for every entry of a list, each of which has a property that its entry gives it. -/
theorem mapM_forall₂ {R : τ → α → Prop} {f : τ → ExceptT Stop (StateM σ) α} {items : List τ}
    (h : ∀ i ∈ items, Triple pre (f i) (fun a s ↦ R i a ∧ pre s) stop) :
    Triple pre (items.mapM f) (fun as s ↦ List.Forall₂ R items as ∧ pre s) stop := by
  induction items with
  | nil => exact fun s hs ↦ ⟨.nil, hs⟩
  | cons i items ih =>
    rw [List.mapM_cons]
    refine (h i (List.mem_cons_self ..)).bind fun a s hs ↦ ?_
    have hrest : Triple pre (items.mapM f >>= fun as ↦ Pure.pure (a :: as))
        (fun as t ↦ List.Forall₂ R (i :: items) as ∧ pre t) stop :=
      (ih fun j hj ↦ h j (List.mem_cons_of_mem i hj)).bind fun as t ht ↦ ⟨.cons hs.1 ht.1, ht.2⟩
    exact hrest s hs.2

/-- Answers for every entry of a list, each of which has a property that its entry gives it and that
work on the entries behind it keeps. -/
theorem mapM_kept {R : τ → α → σ → Prop} {f : τ → ExceptT Stop (StateM σ) α} {items : List τ}
    (h : ∀ i ∈ items, Triple pre (f i) (fun a s ↦ R i a s ∧ pre s) stop)
    (hkept : items.Pairwise fun i j ↦ ∀ a,
      Triple (fun s ↦ R i a s ∧ pre s) (f j) (fun _ s ↦ R i a s ∧ pre s) stop) :
    Triple pre (items.mapM f) (fun as s ↦ List.Forall₂ (R · · s) items as ∧ pre s) stop := by
  induction items with
  | nil => exact fun s hs ↦ ⟨.nil, hs⟩
  | cons i items ih =>
    rw [List.mapM_cons]
    obtain ⟨hfirst, hrest⟩ := List.pairwise_cons.mp hkept
    refine (h i (List.mem_cons_self ..)).bind fun a ↦ ?_
    have hbehind : Triple (fun s ↦ R i a s ∧ pre s) (items.mapM f) (fun _ s ↦ R i a s ∧ pre s) stop :=
      (mapM_forall₂ (R := fun _ _ ↦ True) fun j hj ↦ (hfirst j hj a).mono (fun _ h ↦ h)
        (fun _ _ h ↦ ⟨trivial, h⟩) fun _ h ↦ h).mono (fun _ h ↦ h) (fun _ _ h ↦ h.2) fun _ h ↦ h
    have hall := (ih (fun j hj ↦ h j (List.mem_cons_of_mem i hj)) hrest).and hbehind
    exact (hall.mono (fun _ hs ↦ ⟨hs.2, hs⟩) (fun _ _ hs ↦ hs) fun _ hs ↦ hs.1).bind fun as ↦
      pure fun s hs ↦ ⟨.cons hs.2.1 hs.1.1, hs.1.2⟩

/-- Answers for every entry of a list, each of which has a property. -/
theorem mapM {P : α → Prop} {f : τ → ExceptT Stop (StateM σ) α} {items : List τ}
    (h : ∀ i ∈ items, Triple pre (f i) (fun a s ↦ P a ∧ pre s) stop) :
    Triple pre (items.mapM f) (fun as s ↦ (∀ a ∈ as, P a) ∧ pre s) stop := by
  refine (mapM_forall₂ (R := fun _ ↦ P) h).mono (fun _ h ↦ h) ?_ fun _ h ↦ h
  rintro as s ⟨hall, hs⟩
  refine ⟨fun a ha ↦ ?_, hs⟩
  obtain ⟨-, -, hP⟩ := Pointwise.exists_left hall ha
  exact hP

/-- Work on every entry of a list, each of which is found to have a property. -/
theorem forM {P : τ → Prop} {f : τ → ExceptT Stop (StateM σ) PUnit} {items : List τ}
    (h : ∀ i ∈ items, Triple pre (f i) (fun _ s ↦ P i ∧ pre s) stop) :
    Triple pre (items.forM f) (fun _ s ↦ (∀ i ∈ items, P i) ∧ pre s) stop := by
  induction items with
  | nil => exact fun s hs ↦ ⟨fun i hi ↦ (List.not_mem_nil hi).elim, hs⟩
  | cons i items ih =>
    refine (h i (List.mem_cons_self ..)).bind fun _ s hs ↦ ?_
    refine (ih fun j hj ↦ h j (List.mem_cons_of_mem i hj)).mono (fun _ h ↦ h) ?_ (fun _ h ↦ h) s hs.2
    exact fun _ t ht ↦ ⟨List.forall_mem_cons.mpr ⟨hs.1, ht.1⟩, ht.2⟩

/-- Work on every entry of a list, with a property of the state that tells which entries are done. -/
theorem forM_along {I : List τ → σ → Prop} {f : τ → ExceptT Stop (StateM σ) PUnit} {items : List τ}
    (h : ∀ done i rest, items = done ++ i :: rest →
      Triple (I done) (f i) (fun _ ↦ I (done ++ [i])) stop) :
    Triple (I []) (items.forM f) (fun _ ↦ I items) stop := by
  have hfrom : ∀ rest done, items = done ++ rest →
      Triple (I done) (rest.forM f) (fun _ ↦ I items) stop := by
    intro rest
    induction rest with
    | nil =>
      intro done heq
      rw [heq, List.append_nil]
      exact pure fun _ hs ↦ hs
    | cons i rest ih =>
      intro done heq
      exact (h done i rest heq).bind fun _ ↦ ih (done ++ [i]) (by rw [heq, List.append_assoc]; rfl)
  exact hfrom items [] rfl

/-- Work on every entry of a list leads from states of a property to such states. -/
theorem forM_keeps {inv : σ → Prop} {f : τ → ExceptT Stop (StateM σ) PUnit} {items : List τ}
    (h : ∀ i ∈ items, Triple inv (f i) (fun _ ↦ inv) stop) :
    Triple inv (items.forM f) (fun _ ↦ inv) stop :=
  (forM (P := fun _ ↦ True) fun i hi ↦ (h i hi).mono (fun _ h ↦ h) (fun _ _ h ↦ ⟨trivial, h⟩)
    fun _ h ↦ h).mono (fun _ h ↦ h) (fun _ _ h ↦ h.2) fun _ h ↦ h

/-- Work on every entry of a list reaches a state when it is reached behind one of the entries and
kept behind all of them. -/
theorem mapM_reaches {I J : σ → Prop} {good : τ → α → Prop} {f : τ → ExceptT Stop (StateM σ) α}
    {items : List τ} (hkeep : ∀ i ∈ items, Triple J (f i) (fun _ ↦ J) fun _ ↦ True)
    (hreach : ∀ i ∈ items, Triple I (f i) (fun a s ↦ I s ∧ (good i a → J s)) fun _ ↦ True) :
    Triple I (items.mapM f)
      (fun as s ↦ I s ∧ as.length = items.length ∧ ((∃ e ∈ items.zip as, good e.1 e.2) → J s))
      fun _ ↦ True := by
  induction items with
  | nil => exact pure fun _ hs ↦ ⟨hs, rfl, fun ⟨_, he, _⟩ ↦ by cases he⟩
  | cons i items ih =>
    have hitems : ∀ j ∈ items, j ∈ i :: items := fun j hj ↦ List.mem_cons_of_mem i hj
    have hkept : Triple J (items.mapM f) (fun as s ↦ (∀ a ∈ as, True) ∧ J s) fun _ ↦ True :=
      mapM fun j hj ↦ (hkeep j (hitems j hj)).mono (fun _ h ↦ h) (fun _ _ h ↦ ⟨trivial, h⟩)
        fun _ h ↦ h
    rw [List.mapM_cons]
    refine (hreach i (List.mem_cons_self ..)).bind fun a s hs ↦ ?_
    have hrest := (ih (fun j hj ↦ hkeep j (hitems j hj)) fun j hj ↦ hreach j (hitems j hj)) s hs.1
    have hkeeprest := hkept s
    rw [run_bind]
    generalize (items.mapM f).run s = r at hrest hkeeprest
    rcases r with ⟨_ | as, t⟩
    · trivial
    · refine ⟨hrest.1, congrArg (· + 1) hrest.2.1, ?_⟩
      rintro ⟨e, he, hgood⟩
      rcases List.mem_cons.mp he with rfl | he
      · exact (hkeeprest (hs.2 hgood)).2
      · exact hrest.2.2 ⟨e, he, hgood⟩

/-- Work after work runs as other work after it does, where both start. -/
theorem run_bind_congr {R : α → σ → Prop} {f g : α → ExceptT Stop (StateM σ) β}
    (h : Triple pre act R stop) (hfg : ∀ a s, R a s → (f a).run s = (g a).run s) {s : σ}
    (hs : pre s) : (act >>= f).run s = (act >>= g).run s := by
  rw [run_bind, run_bind]
  have := h s hs
  rcases hr : act.run s with ⟨_ | a, t⟩
  · rfl
  · rw [hr] at this
    exact hfg a t this

end Triple

namespace Keeps

variable {inv : σ → Prop} {act : ExceptT Stop (StateM σ) α}

/-- The state behind work that keeps a property has it. -/
theorem run (h : Keeps inv act) {s : σ} (hs : inv s) : inv (act.run s).2 := by
  have := h s hs
  rcases hr : act.run s with ⟨_ | a, t⟩ <;> rwa [hr] at this

/-- The state that work which keeps a property is known to end in has it. -/
theorem run_eq (h : Keeps inv act) {s t : σ} {r : Outcome α} (hs : inv s)
    (hr : act.run s = (r, t)) : inv t := by
  have := h.run hs
  rwa [hr] at this

/-- Work whose every end has a property keeps it. -/
theorem of_run (h : ∀ s, inv s → inv (act.run s).2) : Keeps inv act := by
  intro s hs
  have := h s hs
  rcases hr : act.run s with ⟨_ | a, t⟩ <;> rwa [hr] at this

/-- All work keeps what holds of every state. -/
theorem triv (act : ExceptT Stop (StateM σ) α) : Keeps (fun _ ↦ True) act :=
  of_run fun _ _ ↦ trivial

theorem bind {f : α → ExceptT Stop (StateM σ) β} (h : Keeps inv act) (hf : ∀ a, Keeps inv (f a)) :
    Keeps inv (act >>= f) := Triple.bind h hf

theorem pure (a : α) : Keeps inv (pure a : ExceptT Stop (StateM σ) α) := fun _ hs ↦ hs

theorem throw (e : Stop) : Keeps inv (throw e : ExceptT Stop (StateM σ) α) := fun _ hs ↦ hs

theorem fail (c : Cause) : Keeps inv (fail c : ExceptT Stop (StateM σ) α) := fun _ hs ↦ hs

theorem get : Keeps inv (get : ExceptT Stop (StateM σ) σ) := fun _ hs ↦ hs

theorem lift (r : Outcome α) : Keeps inv (liftM r : ExceptT Stop (StateM σ) α) :=
  Triple.lift (fun _ _ hs _ ↦ hs) fun _ hs ↦ hs

theorem modify {f : σ → σ} (h : ∀ s, inv s → inv (f s)) :
    Keeps inv (modify f : ExceptT Stop (StateM σ) PUnit) := h

theorem inContext {c : Context} (h : Keeps inv act) : Keeps inv (inContext c act) :=
  Triple.inContext h

theorem tried (h : Keeps inv act) :
    Keeps inv (ExceptT.lift act.run : ExceptT Stop (StateM σ) (Outcome α)) :=
  of_run fun _ hs ↦ h.run hs

/-- A release that keeps a property too. -/
theorem ensuring {release : ExceptT Stop (StateM σ) Unit} (h : Keeps inv act)
    (hr : Keeps inv release) : Keeps inv (ensuring act release) :=
  Triple.ensuring h (fun _ _ hs ↦ hr.run hs) fun _ hs ↦ hr.run hs

/-- Work behind other work that keeps a property, where nothing is asked of stopping short. -/
theorem bind_any (h : Keeps inv act) {f : α → ExceptT Stop (StateM σ) β} {post : β → σ → Prop}
    (hf : ∀ a, Triple inv (f a) post fun _ ↦ True) : Triple inv (act >>= f) post fun _ ↦ True :=
  Triple.bind (h.mono (fun _ hs ↦ hs) (fun _ _ hs ↦ hs) fun _ _ ↦ trivial) hf

/-- Work that keeps a property, where nothing is asked of stopping short. -/
theorem any (h : Keeps inv act) : Triple inv act (fun _ ↦ inv) fun _ ↦ True :=
  h.mono (fun _ hs ↦ hs) (fun _ _ hs ↦ hs) fun _ _ ↦ trivial

/-- Work behind other work of which nothing needs to be known. -/
theorem triv_bind {f : α → ExceptT Stop (StateM σ) β} {post : β → σ → Prop}
    (h : ∀ a, Triple (fun _ ↦ True) (f a) post fun _ ↦ True) :
    Triple (fun _ ↦ True) (act >>= f) post fun _ ↦ True := Triple.bind (triv act) h

/-- Work on every entry of a list. -/
theorem forM {f : τ → ExceptT Stop (StateM σ) PUnit} {items : List τ}
    (h : ∀ i ∈ items, Keeps inv (f i)) : Keeps inv (items.forM f) := by
  induction items with
  | nil => exact pure PUnit.unit
  | cons i items ih =>
    exact bind (h i (List.mem_cons_self ..)) fun _ ↦ ih fun j hj ↦ h j (List.mem_cons_of_mem i hj)

/-- Work on every entry of a list that answers for each. -/
theorem mapM {f : τ → ExceptT Stop (StateM σ) α} {items : List τ}
    (h : ∀ i ∈ items, Keeps inv (f i)) : Keeps inv (items.mapM f) := by
  induction items with
  | nil => exact pure []
  | cons i items ih =>
    rw [List.mapM_cons]
    exact bind (h i (List.mem_cons_self ..)) fun a ↦
      bind (ih fun j hj ↦ h j (List.mem_cons_of_mem i hj)) fun as ↦ pure (a :: as)

/-- Work on every entry of a list that answers for some. -/
theorem filterMapM {f : τ → ExceptT Stop (StateM σ) (Option α)} {items : List τ}
    (h : ∀ i ∈ items, Keeps inv (f i)) : Keeps inv (items.filterMapM f) := by
  induction items with
  | nil => exact pure []
  | cons i items ih =>
    have hrest := ih fun j hj ↦ h j (List.mem_cons_of_mem i hj)
    rw [List.filterMapM_cons]
    refine bind (h i (List.mem_cons_self ..)) fun a ↦ ?_
    cases a with
    | none => exact hrest
    | some a => exact bind hrest fun as ↦ pure (a :: as)

/-- Entries of a list that are passed over without a change might as well not be there. -/
theorem run_forM_filter {f : τ → ExceptT Stop (StateM σ) PUnit} {skips : τ → Bool} {items : List τ}
    (hkeeps : ∀ i ∈ items, Keeps inv (f i))
    (hskips : ∀ i ∈ items, skips i = true → ∀ s, inv s → (f i).run s = (.ok ⟨⟩, s)) {s : σ}
    (hs : inv s) : (items.forM f).run s = ((items.filter fun i ↦ !skips i).forM f).run s := by
  induction items generalizing s with
  | nil => rfl
  | cons i items ih =>
    have hrest : ∀ t, inv t → (items.forM f).run t
        = ((items.filter fun i ↦ !skips i).forM f).run t := fun t ↦
      ih (fun j hj ↦ hkeeps j (List.mem_cons_of_mem i hj))
        fun j hj ↦ hskips j (List.mem_cons_of_mem i hj)
    cases hskip : skips i with
    | true =>
      rw [List.filter_cons_of_neg (by simp [hskip]), ← hrest s hs]
      change (f i >>= fun _ ↦ items.forM f).run s = _
      rw [run_bind, hskips i (List.mem_cons_self ..) hskip s hs]
    | false =>
      rw [List.filter_cons_of_pos (by simp [hskip])]
      exact Triple.run_bind_congr (hkeeps i (List.mem_cons_self ..)) (fun _ t ht ↦ hrest t ht) hs

end Keeps

end LivePatch
