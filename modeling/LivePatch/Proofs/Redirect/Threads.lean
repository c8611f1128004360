import LivePatch.Proofs.Pointwise
import LivePatch.Proofs.Redirect.Technique
import LivePatch.Redirect.Function
import Mathlib.Data.List.TakeWhile

/-!
# Threads inside replaced code

A thread that runs strictly inside the bytes that a redirection replaces would go on in the middle
of a jump. A technique that was found in one process spares its threads there; the one that is
chosen for all processes may cover more than was looked at in some of them, and threads further on
are only spared where nothing runs.
-/

namespace LivePatch

/-- A thread runs strictly inside a span of code. -/
def RunsInside (ips : List UInt64) (start : UInt64) (len : Nat) : Prop :=
  ∃ ip ∈ ips, start.toNat < ip.toNat ∧ ip.toNat < start.toNat + len

/-- A thread runs inside a span of code, but behind the first of its bytes. -/
def RunsBehind (ips : List UInt64) (start : UInt64) (first len : Nat) : Prop :=
  ∃ ip ∈ ips, start.toNat + first ≤ ip.toNat ∧ ip.toNat < start.toNat + len

instance (ips : List UInt64) (start : UInt64) (len : Nat) : Decidable (RunsInside ips start len) :=
  inferInstanceAs (Decidable (∃ ip ∈ ips, _))

instance (ips : List UInt64) (start : UInt64) (first len : Nat) :
    Decidable (RunsBehind ips start first len) :=
  inferInstanceAs (Decidable (∃ ip ∈ ips, _))

/-- A longer span is spared when its first bytes are and nothing runs behind them. -/
theorem not_runsInside_iff {ips : List UInt64} {start : UInt64} {first len : Nat}
    (hfirst : ¬RunsInside ips start first) (hpos : 0 < first) :
    ¬RunsInside ips start len ↔ ¬RunsBehind ips start first len := by
  rw [not_iff_not]
  constructor
  · rintro ⟨ip, hip, hlo, hhi⟩
    refine ⟨ip, hip, Nat.le_of_not_lt fun hlt ↦ ?_, hhi⟩
    exact hfirst ⟨ip, hip, hlo, hlt⟩
  · rintro ⟨ip, hip, hlo, hhi⟩
    exact ⟨ip, hip, by omega, hhi⟩

private theorem isInside_eq_ok {ips : List UInt64} {start : UInt64} {len : Nat} {found : Bool}
    (h : isInside ips start len = .ok found) :
    (found = false ∧ ∀ ip ∈ ips, ip ≤ start) ∨
      ∃ stop, Word.add64? start (UInt64.ofNat len) = some stop ∧
        found = ips.any fun ip ↦ start < ip && ip < stop := by
  have hskip : ∀ stop, ips.any (fun ip ↦ start < ip && ip < stop)
      = (ips.dropWhile (· ≤ start)).any fun ip ↦ start < ip && ip < stop := by
    intro stop
    clear h
    induction ips with
    | nil => rfl
    | cons ip ips ih =>
      rw [List.dropWhile_cons]
      split
      · next hle =>
        have hle : ip ≤ start := by simpa using hle
        rw [List.any_cons, ih, decide_eq_false (UInt64.not_lt.mpr hle), Bool.false_and,
          Bool.false_or]
      · rfl
  unfold isInside at h
  split at h
  · next hnone =>
    cases h
    exact .inl ⟨rfl, fun ip hip ↦ by simpa using List.dropWhile_eq_nil_iff.mp hnone ip hip⟩
  · next ip rest hsome =>
    obtain ⟨stop, hstop, h⟩ := Outcome.bind_eq_ok_iff.mp h
    have hlater : start < ip := by
      have hnot := List.head?_dropWhile_not (· ≤ start) ips
      rw [hsome] at hnot
      simpa using hnot
    cases h
    refine .inr ⟨stop, Outcome.orFault_eq_ok_iff.mp hstop, ?_⟩
    rw [hskip, hsome, List.any_cons, decide_eq_true hlater, Bool.true_and]

/-- A thread that was found inside a span is there. -/
theorem runsInside_of_isInside {ips : List UInt64} {start : UInt64} {len : Nat}
    (h : isInside ips start len = .ok true) : RunsInside ips start len := by
  rcases isInside_eq_ok h with ⟨hfalse, -⟩ | ⟨stop, hstop, hany⟩
  · cases hfalse
  · obtain ⟨ip, hip, hinside⟩ := List.any_eq_true.mp hany.symm
    obtain ⟨hlo, hhi⟩ : start < ip ∧ ip < stop := by simpa using hinside
    have hsum := Word.toNat_of_add64? hstop
    rw [UInt64.toNat_ofNat'] at hsum
    rw [UInt64.lt_iff_toNat_lt] at hlo hhi
    have := Nat.mod_le len (2 ^ 64)
    exact ⟨ip, hip, hlo, by omega⟩

/-- Where no thread was found inside a span, none is there. -/
theorem not_runsInside_of_isInside {ips : List UInt64} {start : UInt64} {len : Nat}
    (hlen : len < UInt64.size) (h : isInside ips start len = .ok false) :
    ¬RunsInside ips start len := by
  rintro ⟨ip, hip, hlo, hhi⟩
  rcases isInside_eq_ok h with ⟨-, hnone⟩ | ⟨stop, hstop, hany⟩
  · have := UInt64.le_iff_toNat_le.mp (hnone ip hip)
    omega
  · have hsum := Word.toNat_of_add64? hstop
    rw [UInt64.toNat_ofNat', Nat.mod_eq_of_lt hlen] at hsum
    have hinside := List.any_eq_false.mp hany.symm ip hip
    rw [← hsum] at hhi
    simp [UInt64.lt_iff_toNat_lt, hlo, hhi] at hinside

/-- Bytes at a function's start that a technique replaces. -/
def Technique.span : Technique → Nat
  | .direct covered => covered
  | .indirection => X86.jumpToPadding.size

/-- Bytes at a function's start that were looked at in a process for a technique. -/
def TechniqueOptions.reach (o : TechniqueOptions) : Technique → Nat
  | .direct _ => o.direct.getD 0
  | .indirection => X86.jumpToPadding.size

/-- No thread runs inside what the techniques that were found in a process replace, which is no
more than can be addressed. -/
structure TechniqueOptions.AreSafe (o : TechniqueOptions) (ips : List UInt64) (start : UInt64) :
    Prop where
  bounded : ∀ covered, o.direct = some covered → covered < UInt64.size
  direct : ∀ covered, o.direct = some covered → ¬RunsInside ips start covered
  indirection : o.indirection = true → ¬RunsInside ips start X86.jumpToPadding.size

namespace FunctionSite

private theorem not_runsInside_short {ips : List UInt64} {start : UInt64} {found : Bool}
    (h : isInside ips start X86.jumpToPadding.size = .ok found) :
    (!found) = true → ¬RunsInside ips start X86.jumpToPadding.size := by
  intro hnot
  rw [Bool.not_eq_true'] at hnot
  exact not_runsInside_of_isInside (by decide) (hnot ▸ h)

private theorem not_runsInside_allowsIndirection {s : FunctionSite} {ips : List UInt64} {b : Bool}
    (h : s.allowsIndirection ips = .ok b) :
    b = true → ¬RunsInside ips s.start X86.jumpToPadding.size := by
  obtain ⟨first, -, h⟩ := Outcome.bind_eq_ok_iff.mp h
  dsimp only at h
  split at h
  · obtain ⟨found, hfound, h⟩ := Outcome.bind_eq_ok_iff.mp h
    cases h
    exact not_runsInside_short hfound
  · cases h
    exact fun hb ↦ by cases hb

private theorem not_runsInside_directJump {s : FunctionSite} {ips : List UInt64} {covered : Nat}
    {direct : Option Nat} (h : s.directJump ips covered = .ok direct) :
    ∀ n, direct = some n → n < UInt64.size ∧ ¬RunsInside ips s.start n := by
  intro n hn
  unfold directJump at h
  split at h
  · next hle =>
    obtain ⟨found, hfound, h⟩ := Outcome.bind_eq_ok_iff.mp h
    cases found with
    | true =>
      cases h
      cases hn
    | false =>
      cases h
      cases hn
      have := s.size.toNat_lt
      have hlt : covered < UInt64.size := Nat.lt_of_lt_of_le (m := 2 ^ 32) (by omega) (by decide)
      exact ⟨hlt, not_runsInside_of_isInside hlt hfound⟩
  · cases h
    cases hn

/-- The techniques that are found in a process spare its threads. -/
theorem areSafe_of_evaluate {s : FunctionSite} {ips : List UInt64} {o : TechniqueOptions}
    (h : s.evaluate ips = .ok o) : o.AreSafe ips s.start := by
  unfold evaluate at h
  split at h
  · obtain ⟨found, hfound, h⟩ := Outcome.bind_eq_ok_iff.mp h
    cases h
    exact ⟨fun _ hn ↦ (by cases hn), fun _ hn ↦ (by cases hn), not_runsInside_short hfound⟩
  · split at h
    · obtain ⟨found, -, h⟩ := Outcome.bind_eq_ok_iff.mp h
      cases found with
      | none =>
        cases h
        exact ⟨fun _ hn ↦ (by cases hn), fun _ hn ↦ (by cases hn), fun hb ↦ by cases hb⟩
      | some covered =>
        obtain ⟨direct, hdirect, h⟩ := Outcome.bind_eq_ok_iff.mp h
        obtain ⟨indirection, hindirection, h⟩ := Outcome.bind_eq_ok_iff.mp h
        cases h
        exact ⟨fun n hn ↦ (not_runsInside_directJump hdirect n hn).1,
          fun n hn ↦ (not_runsInside_directJump hdirect n hn).2,
          not_runsInside_allowsIndirection hindirection⟩
    · obtain ⟨indirection, hindirection, h⟩ := Outcome.bind_eq_ok_iff.mp h
      cases h
      exact ⟨fun _ hn ↦ (by cases hn), fun _ hn ↦ (by cases hn),
        not_runsInside_allowsIndirection hindirection⟩

end FunctionSite

namespace TechniqueOptions

/-- What a technique for several processes was found as in each of them. -/
theorem of_combine {options : List TechniqueOptions} {t : Technique}
    (h : combine options = some t) {o : TechniqueOptions} (ho : o ∈ options) :
    match t with
    | .direct _ => o.direct = some (o.reach t)
    | .indirection => o.indirection = true := by
  unfold combine at h
  split at h
  · cases h
  · split at h
    · next hall =>
      cases h
      obtain ⟨covered, hcovered⟩ := Option.isSome_iff_exists.mp (List.all_eq_true.mp hall o ho)
      simp [reach, hcovered]
    · split at h
      · next hall =>
        cases h
        exact List.all_eq_true.mp hall o ho
      · cases h

private theorem foldl_max_lt {spans : List Nat} {bound n : Nat} (hn : n < bound)
    (h : ∀ span ∈ spans, span < bound) : spans.foldl max n < bound := by
  induction spans generalizing n with
  | nil => exact hn
  | cons span spans ih =>
    obtain ⟨hspan, hrest⟩ := List.forall_mem_cons.mp h
    exact ih (Nat.max_lt.mpr ⟨hn, hspan⟩) hrest

/-- A technique for several processes replaces no more than can be addressed. -/
theorem span_lt_of_combine {options : List TechniqueOptions} {t : Technique}
    (h : combine options = some t)
    (hbounded : ∀ o ∈ options, ∀ covered, o.direct = some covered → covered < UInt64.size) :
    t.span < UInt64.size := by
  unfold combine at h
  split at h
  · cases h
  · split at h
    · cases h
      refine foldl_max_lt (by decide) fun span hspan ↦ ?_
      obtain ⟨o, ho, hdirect⟩ := List.mem_filterMap.mp hspan
      exact hbounded o ho span hdirect
    · split at h
      · cases h
        decide
      · cases h

/-- A technique for several processes is safe in one of them when nothing runs there behind the
bytes that were looked at. -/
theorem not_runsInside_span_iff {options : List TechniqueOptions} {t : Technique}
    (h : combine options = some t) {o : TechniqueOptions} (ho : o ∈ options) {ips : List UInt64}
    {start : UInt64} (hsafe : o.AreSafe ips start) (hroomy : o.IsRoomy) :
    ¬RunsInside ips start t.span ↔ ¬RunsBehind ips start (o.reach t) t.span := by
  have hfound := of_combine h ho
  cases t with
  | direct covered =>
    have hpos : X86.jumpSize ≤ o.reach (.direct covered) := hroomy _ hfound
    exact not_runsInside_iff (hsafe.direct _ hfound) (Nat.lt_of_lt_of_le (by decide) hpos)
  | indirection =>
    exact not_runsInside_iff (hsafe.indirection hfound) (show 0 < X86.jumpToPadding.size by decide)

end TechniqueOptions

namespace FunctionRedirection

/-- What a redirection replaces is what its technique does. -/
theorem span_eq (r : FunctionRedirection) : r.span = r.technique.span := by
  unfold span Technique.span
  cases r.technique <;> rfl

/-- A redirection is found safe when nothing runs inside its span. -/
theorem isSafe_iff {r : FunctionRedirection} {start : UInt64} {ips : List UInt64} {safe : Bool}
    (hspan : r.span < UInt64.size) (h : r.isSafe start ips = .ok safe) :
    safe = true ↔ ¬RunsInside ips start r.span := by
  obtain ⟨found, hfound, h⟩ := Outcome.bind_eq_ok_iff.mp h
  cases h
  cases found with
  | true => simp [runsInside_of_isInside hfound]
  | false => simp [not_runsInside_of_isInside hspan hfound]

end FunctionRedirection
end LivePatch
