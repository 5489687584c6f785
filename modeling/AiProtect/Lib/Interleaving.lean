import Mathlib.Data.List.Basic

/-! # Interleavings of two sequences

`Interleaving first second merged` says that `merged` is made of the two sequences,
each in its own order. The sequences grow at their ends, as logs do.
-/

universe u

variable {α : Type u}

inductive Interleaving : List α → List α → List α → Prop where
  | nil : Interleaving [] [] []
  | left {first second merged : List α} (item : α) :
      Interleaving first second merged → Interleaving (first ++ [item]) second (merged ++ [item])
  | right {first second merged : List α} (item : α) :
      Interleaving first second merged → Interleaving first (second ++ [item]) (merged ++ [item])

namespace Interleaving

variable {first second merged : List α}

theorem length (mixed : Interleaving first second merged) : merged.length = first.length + second.length := by
  induction mixed with
  | nil => rfl
  | left item _ ih =>
      simp only [List.length_append, List.length_singleton]
      omega
  | right item _ ih =>
      simp only [List.length_append, List.length_singleton]
      omega

theorem swap (mixed : Interleaving first second merged) : Interleaving second first merged := by
  induction mixed with
  | nil => exact .nil
  | left item _ ih => exact ih.right item
  | right item _ ih => exact ih.left item

theorem appendLeft (mixed : Interleaving first second merged) (items : List α) :
    Interleaving (first ++ items) second (merged ++ items) := by
  induction items generalizing first merged with
  | nil => simpa only [List.append_nil] using mixed
  | cons item rest ih => simpa only [List.append_assoc, List.singleton_append] using ih (mixed.left item)

theorem appendRight (mixed : Interleaving first second merged) (items : List α) :
    Interleaving first (second ++ items) (merged ++ items) :=
  (mixed.swap.appendLeft items).swap

end Interleaving
