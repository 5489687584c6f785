import Mathlib.Algebra.Order.BigOperators.Group.List
import Mathlib.Data.List.Basic
import Mathlib.Tactic.Linarith

/-! # Lists of records that are updated in place

A system that never forgets its parts keeps them in lists: a new part goes to the end, and
a change replaces the entry at one place. `Grows` says that every entry is still at its
place, up to a relation; the other lemmas read an updated list place by place, and sum a
weight over it, or over the entries that belong to one of several others. `tryEach` makes
such a list, unless an entry of it fails.
-/

universe u

namespace Places

variable {α : Type u}

/-- Every entry is still at its place, changed at most as `R` says. -/
def Grows (R : α → α → Prop) (before after : List α) : Prop :=
  ∀ (place : Nat) (entry : α), before[place]? = some entry →
    ∃ later : α, after[place]? = some later ∧ R entry later

section Grows

variable {R : α → α → Prop} {list : List α}

theorem Grows.refl (same : ∀ entry, R entry entry) (list : List α) : Grows R list list :=
  fun _ entry found => ⟨entry, found, same entry⟩

theorem Grows.append (same : ∀ entry, R entry entry) (list more : List α) : Grows R list (list ++ more) := by
  intro place entry found
  obtain ⟨inside, -⟩ := List.getElem?_eq_some_iff.mp found
  exact ⟨entry, by rw [List.getElem?_append_left inside, found], same entry⟩

theorem Grows.set (same : ∀ entry, R entry entry) {place : Nat} {entry next : α}
    (found : list[place]? = some entry) (related : R entry next) : Grows R list (list.set place next) := by
  intro other old there
  by_cases here : place = other
  · subst here
    obtain ⟨inside, -⟩ := List.getElem?_eq_some_iff.mp found
    rw [found] at there
    cases there
    exact ⟨next, List.getElem?_set_self inside, related⟩
  · exact ⟨old, by rw [List.getElem?_set_ne here, there], same old⟩

end Grows

theorem getElem?_set_cases {list : List α} {place other : Nat} {next entry : α}
    (found : (list.set place next)[other]? = some entry) :
    (other = place ∧ entry = next) ∨ (other ≠ place ∧ list[other]? = some entry) := by
  by_cases here : place = other
  · subst here
    have inside : place < list.length := by
      have bound := (List.getElem?_eq_some_iff.mp found).1
      rwa [List.length_set] at bound
    rw [List.getElem?_set_self inside] at found
    exact .inl ⟨rfl, (Option.some.inj found).symm⟩
  · rw [List.getElem?_set_ne here] at found
    exact .inr ⟨fun same => here same.symm, found⟩

theorem getElem?_snoc_cases {list : List α} {place : Nat} {next entry : α}
    (found : (list ++ [next])[place]? = some entry) :
    list[place]? = some entry ∨ (place = list.length ∧ entry = next) := by
  by_cases inside : place < list.length
  · rw [List.getElem?_append_left inside] at found
    exact .inl found
  · rw [List.getElem?_append_right (Nat.le_of_not_lt inside)] at found
    obtain ⟨bound, -⟩ := List.getElem?_eq_some_iff.mp found
    have here : place = list.length := by
      simp only [List.length_singleton] at bound
      omega
    subst here
    rw [Nat.sub_self, List.getElem?_cons_zero] at found
    exact .inr ⟨rfl, (Option.some.inj found).symm⟩

theorem getElem?_snoc_self (list : List α) (next : α) : (list ++ [next])[list.length]? = some next := by
  rw [List.getElem?_append_right (Nat.le_refl _), Nat.sub_self, List.getElem?_cons_zero]

/-- Replacing an entry replaces its weight. -/
theorem sum_set (weight : α → Nat) {list : List α} {place : Nat} {entry : α} (next : α)
    (found : list[place]? = some entry) :
    ((list.set place next).map weight).sum + weight entry = (list.map weight).sum + weight next := by
  induction list generalizing place with
  | nil => cases found
  | cons head tail ih =>
      cases place with
      | zero =>
          rw [List.getElem?_cons_zero] at found
          cases found
          simp only [List.set_cons_zero, List.map_cons, List.sum_cons]
          omega
      | succ place =>
          rw [List.getElem?_cons_succ] at found
          have rest := ih found
          simp only [List.set_cons_succ, List.map_cons, List.sum_cons]
          omega

/-- One entry weighs at most once over distinct labels. -/
theorem sum_ite_le {β : Type*} [DecidableEq β] (label : β) (weight : Nat) {labels : List β} (distinct : labels.Nodup) :
    (labels.map fun other => if label = other then weight else 0).sum ≤ weight := by
  induction labels with
  | nil => exact Nat.zero_le _
  | cons head tail ih =>
      obtain ⟨fresh, distinct⟩ := List.nodup_cons.mp distinct
      rw [List.map_cons, List.sum_cons]
      by_cases here : label = head
      · have rest : (tail.map fun other => if label = other then weight else 0) = tail.map fun _ => 0 := by
          apply List.map_congr_left
          intro other member
          refine if_neg fun same => fresh ?_
          rw [← here, same]
          exact member
        rw [if_pos here, rest]
        simp
      · rw [if_neg here, Nat.zero_add]
        exact ih distinct

/-- Entries with distinct labels weigh at most what all entries do. -/
theorem sum_fibers_le {β : Type*} [DecidableEq β] (label : α → β) (weight : α → Nat) (list : List α)
    {labels : List β} (distinct : labels.Nodup) :
    (labels.map fun other => ((list.filter fun entry => label entry = other).map weight).sum).sum ≤
      (list.map weight).sum := by
  induction list with
  | nil => simp
  | cons head tail ih =>
      have each : ∀ other, (((head :: tail).filter fun entry => label entry = other).map weight).sum =
          (if label head = other then weight head else 0) +
            ((tail.filter fun entry => label entry = other).map weight).sum := by
        intro other
        by_cases here : label head = other
        · simp [here]
        · simp [here]
      simp only [each, List.sum_map_add, List.map_cons, List.sum_cons]
      exact Nat.add_le_add (sum_ite_le (label head) (weight head) distinct) ih

section TryEach

variable {β ε : Type*}

/-- Work through a list, with the place of each entry, until one fails. -/
def tryEach (attempt : Nat → α → Except ε β) (place : Nat) : List α → Except ε (List β)
  | [] => .ok []
  | entry :: rest =>
      match attempt place entry with
      | .error error => .error error
      | .ok result =>
          match tryEach attempt (place + 1) rest with
          | .error error => .error error
          | .ok results => .ok (result :: results)

variable {attempt : Nat → α → Except ε β}

/-- Nothing is left out when nothing fails. -/
theorem tryEach_ok {place : Nat} {list : List α} {results : List β} (done : tryEach attempt place list = .ok results) :
    results.length = list.length ∧ ∀ (index : Nat) (entry : α), list[index]? = some entry →
      ∃ result, results[index]? = some result ∧ attempt (place + index) entry = .ok result := by
  induction list generalizing place results with
  | nil =>
      cases done
      exact ⟨rfl, fun _ _ found => (by cases found)⟩
  | cons first rest ih =>
      simp only [tryEach] at done
      cases here : attempt place first with
      | error error =>
          rw [here] at done
          cases done
      | ok result =>
          rw [here] at done
          cases later : tryEach attempt (place + 1) rest with
          | error error =>
              simp only [later] at done
              cases done
          | ok others =>
              simp only [later] at done
              cases done
              obtain ⟨same, all⟩ := ih later
              refine ⟨congrArg (· + 1) same, fun index entry found => ?_⟩
              cases index with
              | zero =>
                  cases found
                  exact ⟨result, rfl, here⟩
              | succ index =>
                  obtain ⟨other, present, built⟩ := all index entry found
                  rw [Nat.add_right_comm] at built
                  exact ⟨other, present, built⟩

/-- What fails is the first that fails. -/
theorem tryEach_error {place : Nat} {list : List α} {error : ε} (fails : tryEach attempt place list = .error error) :
    ∃ (index : Nat) (entry : α), list[index]? = some entry ∧ attempt (place + index) entry = .error error ∧
      ∀ (earlier : Nat) (other : α), earlier < index → list[earlier]? = some other →
        ∃ result, attempt (place + earlier) other = .ok result := by
  induction list generalizing place with
  | nil => cases fails
  | cons first rest ih =>
      simp only [tryEach] at fails
      cases here : attempt place first with
      | error mine =>
          rw [here] at fails
          cases fails
          exact ⟨0, first, rfl, here, fun _ _ none => absurd none (Nat.not_lt_zero _)⟩
      | ok result =>
          rw [here] at fails
          cases later : tryEach attempt (place + 1) rest with
          | ok others =>
              simp only [later] at fails
              cases fails
          | error mine =>
              simp only [later] at fails
              cases fails
              obtain ⟨index, entry, found, failed, before⟩ := ih later
              refine ⟨index + 1, entry, found, by rw [← failed, Nat.add_right_comm, Nat.add_assoc], ?_⟩
              intro earlier other less present
              cases earlier with
              | zero =>
                  cases present
                  exact ⟨result, here⟩
              | succ earlier =>
                  obtain ⟨built, ok⟩ := before earlier other (Nat.lt_of_succ_lt_succ less) present
                  rw [Nat.add_right_comm] at ok
                  exact ⟨built, ok⟩

end TryEach

end Places
