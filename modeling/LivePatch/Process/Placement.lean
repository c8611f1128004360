import LivePatch.Process.Target

/-!
# Placement of patches

A 32-bit displacement reaches no further than two gigabytes, so a patch must lie near its module.
This module says when every byte of one range is reached from every byte of another, and looks for
a free range near a module.
-/

namespace LivePatch.Placement

/-- The distance that a 32-bit displacement does not reach any more. -/
def range : UInt64 := 0x80000000

/-- Whether a displacement leads from anywhere in one of two ranges to anywhere in the other. -/
def isWithinReach (base size otherBase otherSize : UInt64) : Outcome Bool := do
  let stop ← orFault (Word.add64? base size)
  let otherStop ← orFault (Word.add64? otherBase otherSize)
  let distance ← orFault (Word.sub64? (max stop otherStop) (min base otherBase))
  pure (distance < range)

/-- The first free range of a size at candidates that move up to a highest one. -/
def upward (size highest : UInt64) : Nat → UInt64 → TargetM (Option UInt64)
  | 0, _ => pure none
  | fuel + 1, candidate => do
    if highest < candidate then pure none
    else if ← Target.isRangeFree candidate size then pure (some candidate)
    else
      let next ← orFault (Word.add64? candidate Target.granularity)
      upward size highest fuel next

/-- The first free range of a size at candidates that move down to a lowest one. -/
def downward (size lowest : UInt64) : Nat → UInt64 → TargetM (Option UInt64)
  | 0, _ => pure none
  | fuel + 1, candidate => do
    if candidate < lowest ∨ candidate < Target.granularity then pure none
    else if ← Target.isRangeFree candidate size then pure (some candidate)
    else downward size lowest fuel (candidate - Target.granularity)

/-- Number of candidates from one address to another, and one more. -/
def candidates (first last : UInt64) : Nat :=
  (last.toNat - first.toNat) / Target.granularity.toNat + 2

/-- A free range of a size whose every byte a displacement reaches from a module. Addresses above
the module are preferred. -/
def freeRegionNear (base moduleSize size : UInt64) : TargetM (Option UInt64) := do
  let stop ← orFault (Word.add64? base moduleSize)
  let reach ← orFault (Word.add64? base range)
  let highest := Word.monus64 reach size
  let lowest := Word.monus64 stop range
  let first ← orFault (Word.alignUp? stop Target.granularity)
  match ← upward size highest (candidates first highest) first with
  | some found => pure (some found)
  | none =>
    let last ← orFault (Word.alignDown? (Word.monus64 base size) Target.granularity)
    downward size lowest (candidates lowest last) last

end LivePatch.Placement
