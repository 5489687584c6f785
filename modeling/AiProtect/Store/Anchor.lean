import AiProtect.Core.Clock
import Mathlib.Data.List.AList

/-! # Anchors and store snapshots

An `Anchor` pairs one reading of the monotonic clock with one of the wall clock,
so that timestamps can be written to a store as epoch milliseconds and read back.
A snapshot is the map a store answers a sync with; its entries stand in the order
in which the caller happens to iterate over them.
-/

namespace AiProtect

structure Anchor where
  instant : Int
  epochMillis : Int
  deriving DecidableEq, Repr

namespace Anchor

/-- `Anchor::now` at a monotonic reading and a wall-clock reading in nanoseconds
    since the epoch. A wall clock before the epoch counts as zero. -/
def now (instant wall : Int) : Anchor := ⟨instant, wrapI64 (asMillis wall.toNat)⟩

def toEpochMillis (anchor : Anchor) (instant : Int) : Int :=
  if anchor.instant ≤ instant then
    wrapI64 (anchor.epochMillis + wrapI64 (asMillis (instant - anchor.instant).toNat))
  else
    wrapI64 (anchor.epochMillis - wrapI64 (asMillis (anchor.instant - instant).toNat))

def toInstant (anchor : Anchor) (epochMillis : Int) : Option Int :=
  let deltaMillis := wrapI64 (epochMillis - anchor.epochMillis)
  if 0 ≤ deltaMillis then
    checkedAdd anchor.instant (fromMillis (asU64 deltaMillis))
  else
    checkedSub anchor.instant (fromMillis (asU64 (wrapI64 (-deltaMillis))))

def epochMillisBefore (anchor : Anchor) (window : Nat) : Int :=
  wrapI64 (anchor.epochMillis - wrapI64 (asMillis window))

/-- An `i64` that `toInstant` converts without overflow: neither its distance from the
    anchor nor the negation of that leaves `i64`. -/
def Converts (anchor : Anchor) (epochMillis : Int) : Prop :=
  (-2 ^ 63 ≤ epochMillis ∧ epochMillis < 2 ^ 63) ∧
    -2 ^ 63 < epochMillis - anchor.epochMillis ∧ epochMillis - anchor.epochMillis < 2 ^ 63

instance (anchor : Anchor) (epochMillis : Int) : Decidable (anchor.Converts epochMillis) :=
  inferInstanceAs (Decidable (_ ∧ _))

/-- Without overflow, the distance from the anchor is added or subtracted as it is. -/
theorem toInstant_eq {anchor : Anchor} {epochMillis : Int} (converts : anchor.Converts epochMillis) :
    anchor.toInstant epochMillis =
      if anchor.epochMillis ≤ epochMillis then
        checkedAdd anchor.instant (fromMillis (epochMillis - anchor.epochMillis).toNat)
      else checkedSub anchor.instant (fromMillis (anchor.epochMillis - epochMillis).toNat) := by
  obtain ⟨-, low, high⟩ := converts
  have delta := wrapI64_of_fits (le_of_lt low) high
  simp only [toInstant, delta]
  by_cases later : anchor.epochMillis ≤ epochMillis
  · rw [if_pos later, if_pos (by omega), asU64_of_nonneg (by omega) (by omega)]
  · have negated := wrapI64_of_fits (x := -(epochMillis - anchor.epochMillis)) (by omega) (by omega)
    rw [if_neg later, if_neg (by omega), negated, asU64_of_nonneg (by omega) (by omega), Int.neg_sub]

theorem toInstant_of_converts {anchor : Anchor} {epochMillis instant : Int} (converts : anchor.Converts epochMillis)
    (found : anchor.toInstant epochMillis = some instant) :
    instant = anchor.instant + (epochMillis - anchor.epochMillis) * 1000000 := by
  rw [toInstant_eq converts] at found
  split at found
  · have added := checkedAdd_eq_some found
    rw [fromMillis] at added
    omega
  · have subtracted := checkedSub_eq_some found
    rw [fromMillis] at subtracted
    omega

/-- A stored row survives the way to an `Instant` and back exactly. -/
theorem toEpochMillis_of_toInstant {anchor : Anchor} {epochMillis instant : Int}
    (converts : anchor.Converts epochMillis) (found : anchor.toInstant epochMillis = some instant) :
    anchor.toEpochMillis instant = epochMillis := by
  have placed := toInstant_of_converts converts found
  obtain ⟨⟨lowest, highest⟩, low, high⟩ := converts
  have whole : ∀ delta : Int, 0 ≤ delta → (asMillis (delta * 1000000).toNat : Int) = delta := by
    intro delta nonneg
    simp only [asMillis]
    omega
  rw [toEpochMillis]
  split
  · have distance : instant - anchor.instant = (epochMillis - anchor.epochMillis) * 1000000 := by omega
    rw [distance, whole _ (by omega), wrapI64_of_fits (le_of_lt low) high, wrapI64_of_fits (by omega) (by omega)]
    omega
  · have distance : anchor.instant - instant = -(epochMillis - anchor.epochMillis) * 1000000 := by omega
    have negated := wrapI64_of_fits (x := -(epochMillis - anchor.epochMillis)) (by omega) (by omega)
    rw [distance, whole _ (by omega), negated, wrapI64_of_fits (by omega) (by omega)]
    omega

end Anchor

/-- `HashMap<String, Vec<i64>>`: identities to the epoch milliseconds of their rows. -/
abbrev Snapshot := AList fun _ : String => List Int

end AiProtect
