import Mathlib.Data.Finset.Sort
import Mathlib.Data.List.Sort
import Mathlib.Data.Multiset.Filter

/-! # A store of timestamped rows with a cap on owners

The content of a store is a multiset of rows, each an owner and a time. A sync adds
rows, drops those before a cutoff, and then keeps all rows of at most `cap` owners, the
most recently active ones. Which of several owners that were last active at the same
time are kept is left open; a ranking resolves it.
-/

universe u v

namespace CappedStore

variable {κ : Type u} {τ : Type v} [DecidableEq κ] [LinearOrder τ]

def owners (rows : Multiset (κ × τ)) : Finset κ := (rows.map Prod.fst).toFinset

omit [LinearOrder τ] in
theorem mem_owners {rows : Multiset (κ × τ)} {owner : κ} :
    owner ∈ owners rows ↔ ∃ time, (owner, time) ∈ rows := by
  simp only [owners, Multiset.mem_toFinset, Multiset.mem_map, Prod.exists, exists_and_right, exists_eq_right]

/-- `second` was last active no later than `first`. -/
def NoLater (rows : Multiset (κ × τ)) (first second : κ) : Prop :=
  ∀ late, (second, late) ∈ rows → ∃ time, (first, time) ∈ rows ∧ late ≤ time

/-- A choice of at most `cap` owners, none of them less recently active than one left out. -/
structure Capped (rows : Multiset (κ × τ)) (cap : ℕ) (kept : Finset κ) : Prop where
  owned : kept ⊆ owners rows
  size : kept.card = min cap (owners rows).card
  latest : ∀ owner ∈ kept, ∀ other ∈ owners rows, other ∉ kept → NoLater rows owner other

def restricted (rows : Multiset (κ × τ)) (kept : Finset κ) : Multiset (κ × τ) :=
  rows.filter fun row => row.1 ∈ kept

def live (before added : Multiset (κ × τ)) (cutoff : τ) : Multiset (κ × τ) :=
  (before + added).filter fun row => cutoff ≤ row.2

/-- `after` is what a sync may leave of `before`. -/
def Synced (before added : Multiset (κ × τ)) (cutoff : τ) (cap : ℕ) (after : Multiset (κ × τ)) : Prop :=
  ∃ kept, Capped (live before added cutoff) cap kept ∧ after = restricted (live before added cutoff) kept

/-- A sync with room for an owner does not empty a store with a live row. -/
theorem Synced.ne_zero {before added after : Multiset (κ × τ)} {cutoff : τ} {cap : ℕ}
    (synced : Synced before added cutoff cap after) (room : 0 < cap) {row : κ × τ}
    (alive : row ∈ live before added cutoff) : after ≠ 0 := by
  obtain ⟨kept, capped, rfl⟩ := synced
  have owned : row.1 ∈ owners (live before added cutoff) := mem_owners.mpr ⟨row.2, alive⟩
  have positive := Finset.card_pos.mpr ⟨row.1, owned⟩
  have size := capped.size
  obtain ⟨first, inside⟩ := Finset.card_pos.mp (by omega : 0 < kept.card)
  obtain ⟨time, there⟩ := mem_owners.mp (capped.owned inside)
  have left : (first, time) ∈ restricted (live before added cutoff) kept :=
    Multiset.mem_filter.mpr ⟨there, inside⟩
  intro nothing
  rw [nothing] at left
  exact absurd left (Multiset.notMem_zero _)

/-- All owners, the most recently active first. -/
structure Ranking (rows : Multiset (κ × τ)) (order : List κ) : Prop where
  once : order.Nodup
  complete : ∀ owner, owner ∈ order ↔ owner ∈ owners rows
  falling : order.Pairwise (NoLater rows)

theorem Ranking.length {rows : Multiset (κ × τ)} {order : List κ} (ranking : Ranking rows order) :
    order.length = (owners rows).card := by
  have same : order.toFinset = owners rows := by
    ext owner
    rw [List.mem_toFinset, ranking.complete]
  rw [← same, List.toFinset_card_of_nodup ranking.once]

/-- The first `cap` owners of a ranking are a choice. -/
theorem Ranking.capped {rows : Multiset (κ × τ)} {order : List κ} (ranking : Ranking rows order)
    (cap : ℕ) :
    Capped rows cap (order.take cap).toFinset where
  owned := by
    intro owner member
    exact (ranking.complete owner).mp (List.mem_of_mem_take (List.mem_toFinset.mp member))
  size := by
    rw [List.toFinset_card_of_nodup (ranking.once.sublist (List.take_sublist _ _)), List.length_take,
      ranking.length]
  latest := by
    intro owner member other owned out
    have parts := ranking.falling
    rw [← List.take_append_drop cap order, List.pairwise_append] at parts
    have late : other ∈ order.drop cap := by
      have inside := (ranking.complete other).mpr owned
      rw [← List.take_append_drop cap order, List.mem_append] at inside
      exact inside.resolve_left fun early => out (List.mem_toFinset.mpr early)
    exact parts.2.2 owner (List.mem_toFinset.mp member) other late

end CappedStore
