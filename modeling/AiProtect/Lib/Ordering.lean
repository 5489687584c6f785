import Mathlib.Data.List.Rotate
import Mathlib.Data.List.Nodup
import Mathlib.Order.ConditionallyCompleteLattice.Basic

/-! # Orders of preference

Two ways to put the elements of a list in an order: by turns, where each element is
first once in every round, and by a key, where the order of the list breaks ties.
-/

namespace AiProtect

section Turns

variable {α : Type*}

/-- In a round of turns, the first elements are the list itself, from somewhere on. -/
theorem heads_of_turns (list : List α) (turn : Nat) :
    ((List.range list.length).map fun round => (list.rotate (turn + round)).head?) =
      (list.rotate turn).map some := by
  apply List.ext_getElem?
  intro index
  by_cases inside : index < list.length
  · have modulo : (turn + index) % list.length < list.length := Nat.mod_lt _ (by omega)
    rw [List.getElem?_map, List.getElem?_range inside, Option.map_some, List.getElem?_map,
      List.getElem?_rotate inside, ← List.rotate_mod, List.head?_rotate modulo, Nat.add_comm index turn,
      List.getElem?_eq_getElem modulo, Option.map_some]
  · rw [List.getElem?_eq_none (by simpa using inside), List.getElem?_eq_none (by simpa using inside)]

/-- Two elements of a list without repetition stand in one order only. -/
theorem not_both_orders {list : List α} (nodup : list.Nodup) {a b : α} (first : List.Sublist [a, b] list) :
    ¬ List.Sublist [b, a] list := by
  induction list with
  | nil => cases first
  | cons head tail ih =>
      obtain ⟨fresh, nodupTail⟩ := List.nodup_cons.mp nodup
      intro second
      cases first with
      | cons _ first =>
          cases second with
          | cons _ second => exact ih nodupTail first second
          | cons_cons _ second => exact fresh (first.subset (by simp))
      | cons_cons _ first =>
          cases second with
          | cons _ second => exact fresh (second.subset (by simp))
          | cons_cons _ second => exact fresh (List.singleton_sublist.mp first)

end Turns

section Keys

variable {α κ : Type*} [LinearOrder α] [LinearOrder κ]

/-- By the key, and by the order of the elements where the keys are the same. -/
def Precedes (key : α → κ) (a b : α) : Prop := key a < key b ∨ (key a = key b ∧ a < b)

theorem pair_sublist_of_sorted {list : List α} (sorted : list.Pairwise (· < ·)) {a b : α} (first : a ∈ list)
    (second : b ∈ list) (less : a < b) : List.Sublist [a, b] list := by
  induction list with
  | nil => cases first
  | cons head tail ih =>
      obtain ⟨least, sortedTail⟩ := List.pairwise_cons.mp sorted
      rcases List.mem_cons.mp first with rfl | firstLater
      · rcases List.mem_cons.mp second with rfl | secondLater
        · exact absurd less (lt_irrefl b)
        · exact (List.singleton_sublist.mpr secondLater).cons_cons a
      · rcases List.mem_cons.mp second with rfl | secondLater
        · exact absurd (less.trans (least a firstLater)) (lt_irrefl a)
        · exact (ih sortedTail firstLater secondLater).cons head

/-- Sorting a list by a key is stable. -/
theorem pairwise_mergeSort_precedes {list : List α} (sorted : list.Pairwise (· < ·)) (key : α → κ) :
    (list.mergeSort fun a b => decide (key a ≤ key b)).Pairwise (Precedes key) := by
  have trans : ∀ a b c, decide (key a ≤ key b) = true → decide (key b ≤ key c) = true →
      decide (key a ≤ key c) = true := by
    intro a b c first second
    exact decide_eq_true ((of_decide_eq_true first).trans (of_decide_eq_true second))
  have total : ∀ a b, (decide (key a ≤ key b) || decide (key b ≤ key a)) = true := by
    intro a b
    rw [Bool.or_eq_true, decide_eq_true_eq, decide_eq_true_eq]
    exact le_total (key a) (key b)
  have perm := List.mergeSort_perm list fun a b => decide (key a ≤ key b)
  have nodup : (list.mergeSort fun a b => decide (key a ≤ key b)).Nodup :=
    perm.nodup_iff.mpr (sorted.imp ne_of_lt)
  have ordered := List.pairwise_mergeSort trans total list
  rw [List.pairwise_iff_forall_sublist] at ordered ⊢
  intro a b pair
  have members : a ∈ list ∧ b ∈ list :=
    ⟨perm.subset (pair.subset (by simp)), perm.subset (pair.subset (by simp))⟩
  rcases lt_or_eq_of_le (of_decide_eq_true (ordered pair)) with less | tie
  · exact .inl less
  · refine .inr ⟨tie, ?_⟩
    rcases lt_trichotomy a b with less | same | greater
    · exact less
    · rw [same] at pair
      exact absurd pair (not_both_orders nodup pair)
    · have swapped := pair_sublist_of_sorted sorted members.2 members.1 greater
      have kept := List.pair_sublist_mergeSort trans total (decide_eq_true tie.ge) swapped
      exact absurd kept (not_both_orders nodup pair)

end Keys

end AiProtect
